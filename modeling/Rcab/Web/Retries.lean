import Mathlib.Data.List.Perm.Subperm
import Rcab.Web.Series

/-!
# What the booking socket emits

Each series tries at most `SUBSCRIBE_MAX_TRIES` times, a subscription has at most one timer, and
what belongs to an earlier series or an id that is not followed any more comes to nothing
(`run_subscribes`).
-/

namespace Rcab.Web

section Counts

variable {s : Client}

/-- Every try of a series is emitted once. -/
theorem Inv.length_series_le (h : Inv s) (c : Subscription) (r : ℕ) :
    (s.emitted.filter fun e ↦ e.sub = c ∧ e.myRun = r).length ≤ subscribeMaxTries := by
  have hn : ((s.emitted.filter fun e ↦ e.sub = c ∧ e.myRun = r).map (·.n)).Nodup := by
    refine List.Nodup.map_on (fun e he e' he' hne ↦ ?_) ((h.key.of_map _).filter _)
    obtain ⟨hmem, hsub, hrun⟩ := by simpa using List.mem_filter.mp he
    obtain ⟨hmem', hsub', hrun'⟩ := by simpa using List.mem_filter.mp he'
    exact h.emission_eq hmem' hmem ⟨hsub.trans hsub'.symm, hrun.trans hrun'.symm⟩ hne
  have hsub : (s.emitted.filter fun e ↦ e.sub = c ∧ e.myRun = r).map (·.n) ⊆
      List.range' 1 subscribeMaxTries := by
    intro n hmem
    obtain ⟨e, he, rfl⟩ := List.mem_map.mp hmem
    obtain ⟨hle, hmax⟩ := h.tries e (List.mem_of_mem_filter he)
    exact List.mem_range'_1.mpr ⟨hle, by omega⟩
  simpa using (hn.subperm hsub).length_le

/-- A subscription has at most one timer. -/
theorem Inv.length_timeouts_le (h : Inv s) (c : Subscription) :
    (s.timeouts.filter (·.emission.sub = c)).length ≤ 1 := by
  have hn : (s.timeouts.filter (·.emission.sub = c)).Nodup := (h.nodup.of_map _).filter _
  have heq : ∀ t ∈ s.timeouts.filter (·.emission.sub = c),
      ∀ t' ∈ s.timeouts.filter (·.emission.sub = c), t' = t := by
    intro t ht t' ht'
    obtain ⟨hmem, hsub⟩ := by simpa using List.mem_filter.mp ht
    obtain ⟨hmem', hsub'⟩ := by simpa using List.mem_filter.mp ht'
    exact h.timeout_eq hmem hmem' (hsub'.trans hsub.symm)
  generalize s.timeouts.filter (·.emission.sub = c) = l at hn heq
  match l with
  | [] => exact Nat.zero_le 1
  | [_] => exact Nat.le_refl 1
  | t :: t' :: _ =>
    have hsame := heq t List.mem_cons_self t' (List.mem_cons_of_mem _ List.mem_cons_self)
    exact absurd (hsame ▸ List.mem_cons_self) (List.nodup_cons.mp hn).1

end Counts

/-! ## What a step does -/

section Steps

variable {s : Client} {c : Subscription}

@[simp] theorem attempt_subscribers (n r : ℕ) : (s.attempt c n r).subscribers = s.subscribers := by
  rcases attempt_cases s c n r with h | ⟨_, -, -, -, h⟩ <;> rw [h]

@[simp] theorem attempt_gates (n r : ℕ) : (s.attempt c n r).gates = s.gates := by
  rcases attempt_cases s c n r with h | ⟨_, -, -, -, h⟩ <;> rw [h]

@[simp] theorem attempt_closed (n r : ℕ) : (s.attempt c n r).closed = s.closed := by
  rcases attempt_cases s c n r with h | ⟨_, -, -, -, h⟩ <;> rw [h]

theorem current_congr {s' : Client} (h : s'.gates = s.gates) (c : Subscription) :
    s'.current c = s.current c := by
  cases c <;> simp only [Client.current, h]

theorem now_run (s : Client) (c c' : Subscription) :
    ((s.now c).subscribers c').run = (s.subscribers c').run + if c' = c then 1 else 0 := by
  rw [Client.now, attempt_subscribers, bump_run, clear_run]

@[simp] theorem now_gates : (s.now c).gates = s.gates := by
  rw [Client.now, attempt_gates]
  exact clear_gates

@[simp] theorem now_closed : (s.now c).closed = s.closed := by
  rw [Client.now, attempt_closed]
  exact clear_closed

@[simp] theorem cancel_emitted : (s.cancel c).emitted = s.emitted := clear_emitted

@[simp] theorem cancel_closed : (s.cancel c).closed = s.closed := clear_closed

/-- What is emitted on the way, in an open socket, for an id and a run that are current then. -/
def Emits (s s' : Client) : Prop :=
  ∃ new, s'.emitted = s.emitted ++ new ∧ ∀ m ∈ new, s.closed = false ∧
    s'.current m.sub = some m.id ∧ m.myRun = (s'.subscribers m.sub).run

theorem Emits.of_eq {s' : Client} (h : s'.emitted = s.emitted) : Emits s s' :=
  ⟨[], h.trans (List.append_nil _).symm, fun _ hm ↦ absurd hm List.not_mem_nil⟩

theorem emits_attempt (n r : ℕ) : Emits s (s.attempt c n r) := by
  rcases attempt_cases s c n r with h | ⟨id, hid, hopen, rfl, h⟩
  · exact .of_eq (by rw [h])
  · refine ⟨[⟨c, id, n, _⟩], by rw [h], fun m hm ↦ ?_⟩
    rw [List.mem_singleton.mp hm, h]
    exact ⟨hopen, hid, rfl⟩

/-- What a fresh subscribe emits. -/
theorem now_emitted (s : Client) (c : Subscription) : ∃ new, (s.now c).emitted = s.emitted ++ new ∧
    ∀ m ∈ new, s.closed = false ∧ m.sub = c ∧ s.current c = some m.id ∧
      m.myRun = (s.subscribers c).run + 1 := by
  have hrun := bump_run (s.clear c) c c
  rw [if_pos rfl, clear_run] at hrun
  have hemitted : ((s.clear c).bump c).emitted = s.emitted := clear_emitted
  unfold Client.now
  rcases attempt_cases ((s.clear c).bump c) c 1 (((s.clear c).bump c).subscribers c).run with
    h | ⟨id, hid, hopen, -, h⟩
  · exact ⟨[], by rw [h, hemitted, List.append_nil], fun _ hm ↦ absurd hm List.not_mem_nil⟩
  · refine ⟨[⟨c, id, 1, _⟩], by rw [h, hemitted], fun m hm ↦ ?_⟩
    rw [List.mem_singleton.mp hm]
    refine ⟨clear_closed.symm.trans hopen, rfl, ?_, hrun⟩
    rw [← hid]
    exact (current_congr clear_gates c).symm

theorem emits_now (s : Client) (c : Subscription) : Emits s (s.now c) := by
  obtain ⟨new, hnew, hall⟩ := now_emitted s c
  refine ⟨new, hnew, fun m hm ↦ ?_⟩
  obtain ⟨hopen, rfl, hid, hrun⟩ := hall m hm
  exact ⟨hopen, (current_congr now_gates _).trans hid, by rw [now_run, if_pos rfl, hrun]⟩

/-- A connect emits for both subscriptions. -/
theorem emits_connect (s : Client) : Emits s ((s.now .pool).now .ride) := by
  obtain ⟨new, hnew, hall⟩ := now_emitted s .pool
  obtain ⟨new', hnew', hall'⟩ := emits_now (s.now .pool) .ride
  refine ⟨new ++ new', by rw [hnew', hnew, List.append_assoc], fun m hm ↦ ?_⟩
  rcases List.mem_append.mp hm with hm | hm
  · obtain ⟨hopen, hsub, hid, hrun⟩ := hall m hm
    refine ⟨hopen, ?_, ?_⟩
    · rw [hsub, current_congr now_gates, current_congr now_gates, hid]
    · rw [hsub, now_run, now_run, if_pos rfl, if_neg (by decide), hrun]
  · obtain ⟨hopen, hid, hrun⟩ := hall' m hm
    exact ⟨now_closed.symm.trans hopen, hid, hrun⟩

@[simp] theorem onAck_emitted (e : Emission) (ack : Option Ack) :
    (s.onAck e ack).emitted = s.emitted := by
  unfold Client.onAck
  cases ack with
  | none => split_ifs <;> rfl
  | some ack =>
    dsimp only
    split_ifs
    · rfl
    · rfl
    · rfl
    · exact clear_emitted

theorem emits_onTimeout (e : Emission) : Emits s (s.onTimeout e) := by
  simp only [Client.onTimeout]
  split_ifs
  · exact .of_eq rfl
  · exact emits_attempt _ _

/-- Every event emits in an open socket, for an id that is followed. -/
theorem emits_next (s : Client) (e : Event) : Emits s (next s e) := by
  cases e with
  | connect =>
    simp only [next]
    split_ifs
    · exact .of_eq rfl
    · exact emits_connect { s with connected := true }
  | disconnect => exact .of_eq rfl
  | ack e ack => exact .of_eq (onAck_emitted e ack)
  | timer t => exact emits_onTimeout t.emission
  | subscribePool sharedRideId =>
    simp only [next, Client.subscribePool]
    split_ifs
    · exact emits_now { s with gates := _ } .pool
    · exact .of_eq rfl
  | subscribeRide rideId =>
    simp only [next, Client.subscribeRide]
    split_ifs
    · exact emits_now { s with gates := _ } .ride
    · exact .of_eq rfl
  | completed rideId =>
    simp only [next]
    split_ifs
    · exact .of_eq rfl
    · exact emits_now s .pool
    · exact .of_eq rfl
  | receive m =>
    simp only [next]
    split_ifs <;> exact .of_eq rfl
  | close =>
    refine .of_eq ?_
    simp only [next, Client.close, cancel_emitted]

/-- The run goes up when a series starts. -/
theorem run_of_starts {e : Event} (h : e.Starts s c) :
    ((next s e).subscribers c).run = (s.subscribers c).run + 1 := by
  cases e with
  | connect =>
    have hopen : s.closed = false := h
    simp only [next, hopen, Bool.false_eq_true, if_false, now_run]
    cases c <;> rfl
  | subscribePool sharedRideId =>
    obtain ⟨rfl, hconnected⟩ := h
    simp only [next, Client.subscribePool, hconnected, if_true, now_run]
  | subscribeRide rideId =>
    obtain ⟨rfl, hconnected⟩ := h
    simp only [next, Client.subscribeRide, hconnected, if_true, now_run]
  | completed rideId =>
    obtain ⟨rfl, hopen, hfollowed⟩ := h
    simp only [next, hopen, Bool.false_eq_true, if_false, if_pos hfollowed, now_run, if_true]
  | disconnect | ack | timer | receive | close => cases h

theorem onAck_run (e : Emission) (ack : Option Ack) (c : Subscription) :
    ((s.onAck e ack).subscribers c).run = (s.subscribers c).run := by
  unfold Client.onAck
  cases ack with
  | none => split_ifs <;> rfl
  | some ack =>
    dsimp only
    split_ifs
    · rfl
    · rfl
    · rfl
    · simp only [Client.setTimeout, Client.setSubscriber, Function.update_apply]
      split_ifs with hc
      · rw [hc]
        exact clear_run _
      · exact clear_run _

theorem onTimeout_run (e : Emission) (c : Subscription) :
    ((s.onTimeout e).subscribers c).run = (s.subscribers c).run := by
  have hrun : ((s.setSubscriber e.sub { s.subscribers e.sub with timer := none }).subscribers
      c).run = (s.subscribers c).run := by
    simp only [Client.setSubscriber, Function.update_apply]
    split_ifs with hc
    · rw [hc]
    · rfl
  simp only [Client.onTimeout]
  split_ifs
  · exact hrun
  · rwa [attempt_subscribers]

/-- Until then, or until the socket is closed, the run is the same. -/
theorem run_of_not_starts {e : Event} (h : ¬ e.Starts s c) (hclose : e ≠ .close) :
    ((next s e).subscribers c).run = (s.subscribers c).run := by
  cases e with
  | connect =>
    have hclosed : s.closed = true := eq_true_of_ne_false h
    simp only [next, hclosed, if_true]
  | disconnect => rfl
  | ack e ack => exact onAck_run e ack c
  | timer t => exact onTimeout_run t.emission c
  | subscribePool sharedRideId =>
    simp only [next, Client.subscribePool]
    split_ifs with hconnected
    · rw [now_run, if_neg fun hc ↦ h ⟨hc, hconnected⟩, Nat.add_zero]
    · rfl
  | subscribeRide rideId =>
    simp only [next, Client.subscribeRide]
    split_ifs with hconnected
    · rw [now_run, if_neg fun hc ↦ h ⟨hc, hconnected⟩, Nat.add_zero]
    · rfl
  | completed rideId =>
    simp only [next]
    split_ifs with hclosed hfollowed
    · rfl
    · rw [now_run, if_neg fun hc ↦ h ⟨hc, eq_false_of_ne_true hclosed, hfollowed⟩, Nat.add_zero]
    · rfl
  | receive m =>
    simp only [next]
    split_ifs <;> rfl
  | close => exact absurd rfl hclose

theorem closed_onTimeout (e : Emission) : (s.onTimeout e).closed = s.closed := by
  simp only [Client.onTimeout]
  split_ifs
  · rfl
  · exact attempt_closed _ _

theorem closed_onAck (e : Emission) (ack : Option Ack) : (s.onAck e ack).closed = s.closed := by
  unfold Client.onAck
  cases ack with
  | none => split_ifs <;> rfl
  | some ack =>
    dsimp only
    split_ifs
    · rfl
    · rfl
    · rfl
    · exact clear_closed

/-- A closed socket stays closed. -/
theorem closed_next {e : Event} (h : s.closed = true) : (next s e).closed = true := by
  cases e with
  | connect => simp only [next, h, if_true]
  | disconnect => exact h
  | ack e ack => exact (closed_onAck e ack).trans h
  | timer t => exact (closed_onTimeout t.emission).trans h
  | subscribePool sharedRideId =>
    simp only [next, Client.subscribePool]
    split_ifs
    · exact now_closed.trans h
    · exact h
  | subscribeRide rideId =>
    simp only [next, Client.subscribeRide]
    split_ifs
    · exact now_closed.trans h
    · exact h
  | completed rideId => simp only [next, h, if_true]
  | receive m => simp only [next, h, if_true]
  | close =>
    have hclosed : (({ s with closed := true }.cancel .pool).cancel .ride).closed = true := by
      rw [cancel_closed, cancel_closed]
    exact hclosed

/-- What the event answers belongs to an earlier series, or to an id not followed any more. -/
def Event.Stale (s : Client) : Event → Prop
  | .ack e _ => s.Stale e
  | .timer t => s.Stale t.emission
  | _ => False

/-- It schedules and emits nothing. -/
theorem next_stale {e : Event} (h : e.Stale s) :
    (next s e).emitted = s.emitted ∧ (next s e).timeouts ⊆ s.timeouts := by
  cases e with
  | ack e ack =>
    have hstale : { s with acks := s.acks.erase e }.Stale e := h
    simp only [next, Client.onAck, hstale, or_true, if_true]
    exact ⟨trivial, List.Subset.refl _⟩
  | timer t =>
    have hstale : ({ s with timeouts := s.timeouts.erase t }.setSubscriber t.emission.sub
        { s.subscribers t.emission.sub with timer := none }).Stale t.emission := by
      refine h.imp (fun hrun ↦ ?_) id
      simpa only [Client.setSubscriber, Function.update_self] using hrun
    simp only [next, Client.onTimeout, hstale, or_true, if_true]
    exact ⟨rfl, List.erase_subset⟩
  | connect | disconnect | subscribePool | subscribeRide | completed | receive | close => cases h

end Steps

/-! ## Runs -/

theorem inv_run {tr : List (Client × Event)} {s : Client} (hr : Run step {} tr s) : Inv s :=
  hr.invariant (fun _ _ _ h ⟨hp, heq⟩ ↦ heq ▸ h.next hp) .initial

/-- Nothing is emitted after `close`. -/
theorem emitted_after_close {tr tr' : List (Client × Event)} {s s' : Client}
    (hr : Run step {} (tr ++ (s, .close) :: tr') s') :
    ∀ x ∈ tr', (next x.1 x.2).emitted = x.1.emitted := by
  obtain ⟨-, t, ⟨-, ht⟩, hafter⟩ := hr.step_of_split
  have hclosed : t.closed = true := by
    have h : (({ s with closed := true }.cancel .pool).cancel .ride).closed = true := by
      rw [cancel_closed, cancel_closed]
    exact ht ▸ h
  have hall : s'.closed = true ∧ ∀ x ∈ tr', x.1.closed = true := by
    refine hafter.invariant_trace (I := fun tr u ↦ u.closed = true ∧ ∀ x ∈ tr, x.1.closed = true) ?_
      ⟨hclosed, fun x hx ↦ absurd hx List.not_mem_nil⟩
    rintro tr u e v ⟨hu, htr⟩ ⟨-, rfl⟩
    refine ⟨closed_next hu, fun x hx ↦ ?_⟩
    rcases List.mem_append.mp hx with hx | hx
    · exact htr x hx
    · rw [List.mem_singleton.mp hx]
      exact hu
  intro x hx
  obtain ⟨new, hnew, hopen⟩ := emits_next x.1 x.2
  cases new with
  | nil => rw [hnew, List.append_nil]
  | cons m new =>
    have hfalse := (hopen m List.mem_cons_self).1
    rw [hall.2 x hx] at hfalse
    cases hfalse

/-- **Subscribing, and subscribing again.**

The series of a subscription are numbered by its run, which goes up exactly when a connect, a follow
or a completion starts one, and when the socket is closed.  A series has at most
`SUBSCRIBE_MAX_TRIES` emissions, each subscription at most one timer; an acknowledgement or a timer
that is stale schedules and emits nothing; everything is emitted before `close`, for the id that is
followed and the series that is current. -/
theorem run_subscribes {tr : List (Client × Event)} {s : Client} (hr : Run step {} tr s) :
    (∀ c r, (s.emitted.filter fun e ↦ e.sub = c ∧ e.myRun = r).length ≤ subscribeMaxTries) ∧
    (∀ c, (s.timeouts.filter (·.emission.sub = c)).length ≤ 1) ∧
    (∀ x ∈ tr, ∀ c,
      (x.2.Starts x.1 c → ((next x.1 x.2).subscribers c).run = (x.1.subscribers c).run + 1) ∧
      (¬ x.2.Starts x.1 c → x.2 ≠ .close →
        ((next x.1 x.2).subscribers c).run = (x.1.subscribers c).run)) ∧
    (∀ x ∈ tr, x.2.Stale x.1 → (next x.1 x.2).emitted = x.1.emitted ∧
      (next x.1 x.2).timeouts ⊆ x.1.timeouts) ∧
    (∀ x ∈ tr, Emits x.1 (next x.1 x.2)) ∧
    (∀ tr₁ t tr₂, tr = tr₁ ++ (t, .close) :: tr₂ →
      ∀ x ∈ tr₂, (next x.1 x.2).emitted = x.1.emitted) := by
  have hi := inv_run hr
  refine ⟨hi.length_series_le, hi.length_timeouts_le, fun x _ c ↦ ⟨run_of_starts,
    run_of_not_starts⟩, fun x _ ↦ next_stale, fun x _ ↦ emits_next x.1 x.2, ?_⟩
  rintro tr₁ t tr₂ rfl
  exact emitted_after_close hr

/-- The server is unavailable. -/
def sampleUnavailable : Ack := ⟨some false, some "unavailable"⟩

/-- A pool is followed, and the server does not answer at first. -/
def sampleEvents : List Event :=
  [.connect, .subscribePool 7, .ack ⟨.pool, 7, 1, 2⟩ sampleUnavailable,
    .timer ⟨0, 1000, ⟨.pool, 7, 1, 2⟩⟩]

/-- It is asked again. -/
theorem sampleEvents_subscribes :
    ((sampleEvents.foldl next {}).emitted.filter fun e ↦ e.sub = .pool ∧ e.myRun = 2).length ≤ 5 :=
  (run_subscribes (Run.of_enabled step (fun _ _ h ↦ ⟨h, rfl⟩) sampleEvents
    ⟨trivial, trivial, List.mem_cons_self, List.mem_cons_self, trivial⟩)).1 .pool 2

end Rcab.Web
