import Rcab.Web.Subscriber

/-!
# The series of a subscription

A series is what a subscriber emits in one run.  An emission of the current run is followed by
another one only by way of its acknowledgement and then of a timer, so every try of a series is
emitted once (`Inv`).
-/

namespace Rcab.Web

/-- Emissions of one series. -/
def SameSeries (e e' : Emission) : Prop := e.sub = e'.sub ∧ e.myRun = e'.myRun

theorem SameSeries.symm {e e' : Emission} (h : SameSeries e e') : SameSeries e' e :=
  ⟨h.1.symm, h.2.symm⟩

/-- Which try of which series it is. -/
def Emission.key (e : Emission) : Subscription × ℕ × ℕ := (e.sub, e.myRun, e.n)

/-- No later try of its series was emitted. -/
def Client.Last (s : Client) (e : Emission) : Prop :=
  ∀ e' ∈ s.emitted, SameSeries e' e → e'.n ≤ e.n

/-- The invariant of a booking socket. -/
structure Inv (s : Client) : Prop where
  /-- A timer that is pending is the one its subscriber knows. -/
  timer : ∀ t ∈ s.timeouts, (s.subscribers t.emission.sub).timer = some t.handle
  handle : ∀ c, ∀ n ∈ (s.subscribers c).timer, n < s.handles
  distinct : ∀ c c', ∀ n ∈ (s.subscribers c).timer, n ∈ (s.subscribers c').timer → c = c'
  nodup : (s.timeouts.map (·.handle)).Nodup
  key : (s.emitted.map Emission.key).Nodup
  tries : ∀ e ∈ s.emitted, 1 ≤ e.n ∧ e.n ≤ subscribeMaxTries
  run : ∀ e ∈ s.emitted, e.myRun ≤ (s.subscribers e.sub).run
  acksNodup : s.acks.Nodup
  /-- Only the last try of a series is still to be acknowledged. -/
  ack : ∀ e ∈ s.acks, e ∈ s.emitted ∧ s.Last e
  /-- Only the last try is to be repeated, once it was acknowledged. -/
  retry : ∀ t ∈ s.timeouts, t.emission ∈ s.emitted ∧ t.emission.n < subscribeMaxTries ∧
    s.Last t.emission ∧ ∀ e ∈ s.acks, ¬ SameSeries e t.emission

section Inv

variable {s s' : Client} {c : Subscription} {e m : Emission} {t : Timeout}

theorem Inv.initial : Inv {} where
  timer _ h := absurd h List.not_mem_nil
  handle _ _ h := by cases h
  distinct _ _ _ h := by cases h
  nodup := List.nodup_nil
  key := List.nodup_nil
  tries _ h := absurd h List.not_mem_nil
  run _ h := absurd h List.not_mem_nil
  acksNodup := List.nodup_nil
  ack _ h := absurd h List.not_mem_nil
  retry _ h := absurd h List.not_mem_nil

/-- The gates and flags do not matter. -/
theorem Inv.flags (h : Inv s) (gates : BookingSocket) (closed connected : Bool) :
    Inv { s with gates, closed, connected } :=
  ⟨h.timer, h.handle, h.distinct, h.nodup, h.key, h.tries, h.run, h.acksNodup, h.ack, h.retry⟩

/-- A subscriber has one timer. -/
theorem Inv.timeout_eq (h : Inv s) {t' : Timeout} (ht : t ∈ s.timeouts) (ht' : t' ∈ s.timeouts)
    (hsub : t'.emission.sub = t.emission.sub) : t' = t := by
  have htimer := h.timer t' ht'
  rw [hsub, h.timer t ht] at htimer
  exact List.inj_on_of_nodup_map h.nodup ht' ht (Option.some.inj htimer).symm

/-- The emission of a key. -/
theorem Inv.emission_eq (h : Inv s) {e' : Emission} (he : e ∈ s.emitted) (he' : e' ∈ s.emitted)
    (hs : SameSeries e' e) (hn : e'.n = e.n) : e' = e :=
  List.inj_on_of_nodup_map h.key he' he (by rw [Emission.key, Emission.key, hs.1, hs.2, hn])

theorem Inv.ack_eq (h : Inv s) {e' : Emission} (he : e ∈ s.acks) (he' : e' ∈ s.acks)
    (hs : SameSeries e' e) : e' = e := by
  obtain ⟨hmem, hlast⟩ := h.ack e he
  obtain ⟨hmem', hlast'⟩ := h.ack e' he'
  exact h.emission_eq hmem hmem' hs (le_antisymm (hlast e' hmem' hs) (hlast' e hmem hs.symm))

/-! ## What is done to a subscriber -/

/-- Clearing leaves the other subscription's timer. -/
theorem Inv.timeouts_clear (h : Inv s) (c : Subscription) :
    (s.clear c).timeouts = s.timeouts.filter (·.emission.sub ≠ c) := by
  unfold Client.clear
  split
  · rename_i handle htimer
    refine List.filter_congr fun t ht ↦ ?_
    have hiff : t.handle = handle ↔ t.emission.sub = c := by
      have hknown := h.timer t ht
      constructor
      · rintro rfl
        exact h.distinct _ _ _ hknown htimer
      · intro hc
        rw [hc, htimer] at hknown
        exact (Option.some.inj hknown).symm
    simp only [ne_eq, hiff]
  · rename_i htimer
    refine (List.filter_eq_self.mpr fun t ht ↦ ?_).symm
    have hknown := h.timer t ht
    simp only [ne_eq, decide_not, Bool.not_eq_true', decide_eq_false_iff_not]
    intro hc
    rw [hc, htimer] at hknown
    cases hknown

@[simp] theorem clear_emitted : (s.clear c).emitted = s.emitted := by
  unfold Client.clear
  split <;> rfl

@[simp] theorem clear_acks : (s.clear c).acks = s.acks := by
  unfold Client.clear
  split <;> rfl

@[simp] theorem clear_handles : (s.clear c).handles = s.handles := by
  unfold Client.clear
  split <;> rfl

@[simp] theorem clear_closed : (s.clear c).closed = s.closed := by
  unfold Client.clear
  split <;> rfl

@[simp] theorem clear_gates : (s.clear c).gates = s.gates := by
  unfold Client.clear
  split <;> rfl

theorem clear_subscribers (s : Client) (c c' : Subscription) : (s.clear c).subscribers c' =
    if c' = c then { s.subscribers c with timer := none } else s.subscribers c' := by
  unfold Client.clear
  split
  · exact Function.update_apply _ _ _ _
  · rename_i htimer
    split_ifs with hc
    · rw [hc, ← htimer]
    · rfl

@[simp] theorem clear_run (c' : Subscription) :
    ((s.clear c).subscribers c').run = (s.subscribers c').run := by
  rw [clear_subscribers]
  split_ifs with hc
  · rw [hc]
  · rfl

theorem mem_timer_clear {c' : Subscription} {n : ℕ} (hn : n ∈ ((s.clear c).subscribers c').timer) :
    n ∈ (s.subscribers c').timer := by
  rw [clear_subscribers] at hn
  split_ifs at hn
  · cases hn
  · exact hn

theorem Inv.mem_clear (h : Inv s) : t ∈ (s.clear c).timeouts ↔
    t ∈ s.timeouts ∧ t.emission.sub ≠ c := by
  simp only [h.timeouts_clear, List.mem_filter, ne_eq, decide_eq_true_iff]

theorem Inv.clear (h : Inv s) (c : Subscription) : Inv (s.clear c) where
  timer t ht := by
    obtain ⟨ht, hc⟩ := h.mem_clear.mp ht
    rw [clear_subscribers, if_neg hc]
    exact h.timer t ht
  handle c' n hn := by
    rw [clear_handles]
    exact h.handle c' n (mem_timer_clear hn)
  distinct c' c'' n hn hn' := h.distinct c' c'' n (mem_timer_clear hn) (mem_timer_clear hn')
  nodup := by
    rw [h.timeouts_clear]
    exact h.nodup.sublist (List.filter_sublist.map _)
  key := by simpa only [clear_emitted] using h.key
  tries := by simpa only [clear_emitted] using h.tries
  run e he := by
    rw [clear_emitted] at he
    rw [clear_run]
    exact h.run e he
  acksNodup := by simpa only [clear_acks] using h.acksNodup
  ack e he := by
    rw [clear_acks] at he
    rw [Client.Last, clear_emitted]
    exact h.ack e he
  retry t ht := by
    obtain ⟨ht, -⟩ := h.mem_clear.mp ht
    rw [Client.Last, clear_emitted, clear_acks]
    exact h.retry t ht

theorem bump_subscribers (s : Client) (c c' : Subscription) : (s.bump c).subscribers c' =
    if c' = c then { s.subscribers c with run := (s.subscribers c).run + 1 }
    else s.subscribers c' := Function.update_apply _ _ _ _

theorem bump_timer (s : Client) (c c' : Subscription) :
    ((s.bump c).subscribers c').timer = (s.subscribers c').timer := by
  rw [bump_subscribers]
  split_ifs with hc
  · rw [hc]
  · rfl

theorem bump_run (s : Client) (c c' : Subscription) : ((s.bump c).subscribers c').run =
    (s.subscribers c').run + if c' = c then 1 else 0 := by
  rw [bump_subscribers]
  split_ifs with hc
  · rw [hc]
  · rfl

theorem Inv.bump (h : Inv s) (c : Subscription) : Inv (s.bump c) where
  timer t ht := by
    rw [bump_timer]
    exact h.timer t ht
  handle c' n hn := h.handle c' n (bump_timer s c c' ▸ hn)
  distinct c' c'' n hn hn' :=
    h.distinct c' c'' n (bump_timer s c c' ▸ hn) (bump_timer s c c'' ▸ hn')
  nodup := h.nodup
  key := h.key
  tries := h.tries
  run e he := by
    rw [bump_run]
    exact (h.run e he).trans (Nat.le_add_right _ _)
  acksNodup := h.acksNodup
  ack := h.ack
  retry := h.retry

/-- A further try of a series is the last one, if nothing else is to become of the series. -/
theorem Inv.emit (h : Inv s) (htries : 1 ≤ m.n ∧ m.n ≤ subscribeMaxTries)
    (hrun : m.myRun ≤ (s.subscribers m.sub).run)
    (hlater : ∀ e ∈ s.emitted, SameSeries e m → e.n < m.n)
    (hacks : ∀ e ∈ s.acks, ¬ SameSeries e m)
    (htimeouts : ∀ t ∈ s.timeouts, ¬ SameSeries t.emission m) :
    Inv { s with emitted := s.emitted ++ [m], acks := s.acks ++ [m] } where
  timer := h.timer
  handle := h.handle
  distinct := h.distinct
  nodup := h.nodup
  key := by
    rw [List.map_append, List.map_singleton]
    refine List.nodup_append.mpr ⟨h.key, List.nodup_singleton _, ?_⟩
    rintro k hk k' hk' rfl
    obtain ⟨e, he, hkey⟩ := List.mem_map.mp hk
    rw [List.mem_singleton.mp hk', Emission.key, Emission.key, Prod.mk.injEq, Prod.mk.injEq] at hkey
    exact absurd hkey.2.2 (hlater e he ⟨hkey.1, hkey.2.1⟩).ne
  tries e he := by
    rcases List.mem_append.mp he with he | he
    · exact h.tries e he
    · exact List.mem_singleton.mp he ▸ htries
  run e he := by
    rcases List.mem_append.mp he with he | he
    · exact h.run e he
    · exact List.mem_singleton.mp he ▸ hrun
  acksNodup := by
    refine List.nodup_append.mpr ⟨h.acksNodup, List.nodup_singleton _, ?_⟩
    rintro e he e' he' rfl
    exact hacks e he (List.mem_singleton.mp he' ▸ ⟨rfl, rfl⟩)
  ack e he := by
    rcases List.mem_append.mp he with he | he
    · obtain ⟨hmem, hlast⟩ := h.ack e he
      refine ⟨List.mem_append_left _ hmem, fun e' he' hs ↦ ?_⟩
      rcases List.mem_append.mp he' with he' | he'
      · exact hlast e' he' hs
      · rw [List.mem_singleton.mp he'] at hs
        exact absurd hs.symm (hacks e he)
    · rw [List.mem_singleton.mp he]
      refine ⟨List.mem_append_right _ List.mem_cons_self, fun e' he' hs ↦ ?_⟩
      rcases List.mem_append.mp he' with he' | he'
      · exact (hlater e' he' hs).le
      · rw [List.mem_singleton.mp he']
  retry t ht := by
    obtain ⟨hmem, hn, hlast, hnone⟩ := h.retry t ht
    refine ⟨List.mem_append_left _ hmem, hn, fun e he hs ↦ ?_, fun e he hs ↦ ?_⟩
    · rcases List.mem_append.mp he with he | he
      · exact hlast e he hs
      · rw [List.mem_singleton.mp he] at hs
        exact absurd hs.symm (htimeouts t ht)
    · rcases List.mem_append.mp he with he | he
      · exact hnone e he hs
      · rw [List.mem_singleton.mp he] at hs
        exact htimeouts t ht hs.symm

/-- What an attempt comes to. -/
theorem attempt_cases (s : Client) (c : Subscription) (n r : ℕ) : s.attempt c n r = s ∨
    ∃ id, s.current c = some id ∧ s.closed = false ∧ r = (s.subscribers c).run ∧
      s.attempt c n r = { s with emitted := s.emitted ++ [⟨c, id, n, r⟩]
                                 acks := s.acks ++ [⟨c, id, n, r⟩] } := by
  unfold Client.attempt
  split
  · rename_i id hid
    split_ifs with hc
    · exact Or.inl rfl
    · obtain ⟨hopen, hrun⟩ := not_or.mp hc
      exact Or.inr ⟨id, hid, eq_false_of_ne_true hopen, not_not.mp hrun, rfl⟩
  · exact Or.inl rfl

theorem Inv.now (h : Inv s) (c : Subscription) : Inv (s.now c) := by
  have hbump := (h.clear c).bump c
  have hrun : (((s.clear c).bump c).subscribers c).run = (s.subscribers c).run + 1 := by
    rw [bump_run, clear_run, if_pos rfl]
  -- nothing was emitted in the new run
  have hnone : ∀ e ∈ s.emitted, ∀ m : Emission, m.sub = c →
      m.myRun = (s.subscribers c).run + 1 → ¬ SameSeries e m := by
    rintro e he m rfl hm ⟨hsub, hmy⟩
    have hle := h.run e he
    rw [hsub, hmy, hm] at hle
    omega
  have hemitted : ((s.clear c).bump c).emitted = s.emitted := clear_emitted
  unfold Client.now
  rcases attempt_cases ((s.clear c).bump c) c 1 _ with heq | ⟨id, -, -, -, heq⟩
  · rw [heq]
    exact hbump
  · rw [heq]
    refine hbump.emit ⟨Nat.le_refl 1, (by decide : 1 ≤ subscribeMaxTries)⟩ (Nat.le_refl _)
      (fun e he hs ↦ ?_) (fun e he hs ↦ ?_) fun t ht hs ↦ ?_
    · exact absurd hs (hnone e (hemitted ▸ he) _ rfl hrun)
    · exact hnone e (hemitted ▸ (hbump.ack e he).1) _ rfl hrun hs
    · exact hnone _ (hemitted ▸ (hbump.retry t ht).1) _ rfl hrun hs

theorem Inv.cancel (h : Inv s) (c : Subscription) : Inv (s.cancel c) := (h.clear c).bump c

/-- A timer that fires is the only one of its subscription. -/
theorem Inv.fired (h : Inv s) (ht : t ∈ s.timeouts) :
    ∀ t' ∈ s.timeouts.erase t, t' ∈ s.timeouts ∧ t'.emission.sub ≠ t.emission.sub := by
  have hn : s.timeouts.Nodup := h.nodup.of_map _
  intro t' ht'
  obtain ⟨hne, hmem⟩ := hn.mem_erase_iff.mp ht'
  exact ⟨hmem, fun hsub ↦ hne (h.timeout_eq ht hmem hsub)⟩

theorem Inv.fire (h : Inv s) (ht : t ∈ s.timeouts) :
    Inv ({ s with timeouts := s.timeouts.erase t }.setSubscriber t.emission.sub
      { s.subscribers t.emission.sub with timer := none }) := by
  have htimer (c : Subscription) : (Function.update s.subscribers t.emission.sub
      { s.subscribers t.emission.sub with timer := none } c).timer =
        if c = t.emission.sub then none else (s.subscribers c).timer := by
    rw [Function.update_apply]
    split_ifs <;> rfl
  have hmem {c : Subscription} {n : ℕ} (hn : n ∈ (Function.update s.subscribers t.emission.sub
      { s.subscribers t.emission.sub with timer := none } c).timer) :
        n ∈ (s.subscribers c).timer := by
    rw [htimer] at hn
    split_ifs at hn
    · cases hn
    · exact hn
  have hrun (c : Subscription) : (Function.update s.subscribers t.emission.sub
      { s.subscribers t.emission.sub with timer := none } c).run = (s.subscribers c).run := by
    rw [Function.update_apply]
    split_ifs with hc
    · rw [hc]
    · rfl
  exact
    { timer := fun t' ht' ↦ by
        obtain ⟨hmem', hne⟩ := h.fired ht t' ht'
        exact (htimer _).trans ((if_neg hne).trans (h.timer t' hmem'))
      handle := fun c n hn ↦ h.handle c n (hmem hn)
      distinct := fun c c' n hn hn' ↦ h.distinct c c' n (hmem hn) (hmem hn')
      nodup := h.nodup.sublist (List.erase_sublist.map _)
      key := h.key
      tries := h.tries
      run := fun e he ↦ (h.run e he).trans_eq (hrun _).symm
      acksNodup := h.acksNodup
      ack := h.ack
      retry := fun t' ht' ↦ h.retry t' (h.fired ht t' ht').1 }

theorem Inv.onTimeout (h : Inv s) (ht : t ∈ s.timeouts) :
    Inv ({ s with timeouts := s.timeouts.erase t }.onTimeout t.emission) := by
  obtain ⟨hmem, hn, hlast, hacks⟩ := h.retry t ht
  simp only [Client.onTimeout]
  split_ifs with hstale
  · exact h.fire ht
  rcases attempt_cases ({ s with timeouts := s.timeouts.erase t }.setSubscriber t.emission.sub
    { s.subscribers t.emission.sub with timer := none }) t.emission.sub (t.emission.n + 1)
      t.emission.myRun with heq | ⟨id, -, -, hrun, heq⟩
  · rw [heq]
    exact h.fire ht
  · rw [heq]
    refine (h.fire ht).emit ⟨Nat.le_add_left _ _, hn⟩ hrun.le (fun e he hs ↦ ?_) (fun e he hs ↦ ?_)
      fun t' ht' hs ↦ ?_
    · exact Nat.lt_succ_of_le (hlast e he hs)
    · exact hacks e he hs
    · exact (h.fired ht t' ht').2 hs.1

theorem Inv.erase (h : Inv s) (e : Emission) : Inv { s with acks := s.acks.erase e } where
  timer := h.timer
  handle := h.handle
  distinct := h.distinct
  nodup := h.nodup
  key := h.key
  tries := h.tries
  run := h.run
  acksNodup := h.acksNodup.erase e
  ack e' he' := h.ack e' (List.mem_of_mem_erase he')
  retry t ht := by
    obtain ⟨hmem, hn, hlast, hacks⟩ := h.retry t ht
    exact ⟨hmem, hn, hlast, fun e' he' ↦ hacks e' (List.mem_of_mem_erase he')⟩

/-- A timer is set where there is none. -/
theorem Inv.setTimeout (h : Inv s) (hsub : ∀ t ∈ s.timeouts, t.emission.sub ≠ e.sub)
    (hmem : e ∈ s.emitted) (hn : e.n < subscribeMaxTries) (hlast : s.Last e)
    (hacks : ∀ e' ∈ s.acks, ¬ SameSeries e' e) : Inv (s.setTimeout e) := by
  have htimer (c : Subscription) : ((s.setTimeout e).subscribers c).timer =
      if c = e.sub then some s.handles else (s.subscribers c).timer := by
    simp only [Client.setTimeout, Client.setSubscriber, Function.update_apply]
    split_ifs <;> rfl
  have hrun (c : Subscription) : ((s.setTimeout e).subscribers c).run = (s.subscribers c).run := by
    simp only [Client.setTimeout, Client.setSubscriber, Function.update_apply]
    split_ifs with hc
    · rw [hc]
    · rfl
  have hcases {t : Timeout} (ht : t ∈ (s.setTimeout e).timeouts) :
      t ∈ s.timeouts ∨ t.handle = s.handles ∧ t.emission = e := by
    rcases List.mem_append.mp ht with ht | ht
    · exact Or.inl ht
    · rw [List.mem_singleton.mp ht]
      exact Or.inr ⟨rfl, rfl⟩
  exact
    { timer := fun t ht ↦ by
        rcases hcases ht with ht | ⟨hhandle, rfl⟩
        · rw [htimer, if_neg (hsub t ht)]
          exact h.timer t ht
        · rw [htimer, if_pos rfl, hhandle]
      handle := fun c n hn ↦ by
        rw [htimer] at hn
        split_ifs at hn
        · exact Option.some.inj hn ▸ Nat.lt_succ_self _
        · exact Nat.lt_succ_of_lt (h.handle c n hn)
      distinct := fun c c' n hn hn' ↦ by
        rw [htimer] at hn hn'
        split_ifs at hn hn' with hc hc' hc'
        · exact hc.trans hc'.symm
        · exact absurd (h.handle c' n hn') (Option.some.inj hn ▸ Nat.lt_irrefl _)
        · exact absurd (h.handle c n hn) (Option.some.inj hn' ▸ Nat.lt_irrefl _)
        · exact h.distinct c c' n hn hn'
      nodup := by
        simp only [Client.setTimeout, Client.setSubscriber, List.map_append, List.map_singleton]
        refine List.nodup_append.mpr ⟨h.nodup, List.nodup_singleton _, ?_⟩
        rintro n hn n' hn' rfl
        obtain ⟨t, ht, rfl⟩ := List.mem_map.mp hn
        exact absurd (h.handle _ _ (h.timer t ht)) (List.mem_singleton.mp hn' ▸ Nat.lt_irrefl _)
      key := h.key
      tries := h.tries
      run := fun e' he' ↦ (h.run e' he').trans_eq (hrun _).symm
      acksNodup := h.acksNodup
      ack := h.ack
      retry := fun t ht ↦ by
        rcases hcases ht with ht | ⟨-, rfl⟩
        · exact h.retry t ht
        · exact ⟨hmem, hn, hlast, hacks⟩ }

theorem Inv.onAck (h : Inv s) (he : e ∈ s.acks) (ack : Option Ack) :
    Inv ({ s with acks := s.acks.erase e }.onAck e ack) := by
  have herase := h.erase e
  obtain ⟨hmem, hlast⟩ := h.ack e he
  unfold Client.onAck
  cases ack with
  | none => split_ifs <;> exact herase
  | some ack =>
    dsimp only
    split_ifs with hstale hack hn
    · exact herase
    · exact herase
    · exact herase
    refine (herase.clear e.sub).setTimeout (fun t ht ↦ (herase.mem_clear.mp ht).2) ?_
      (not_le.mp hn) ?_ fun e' he' hs ↦ ?_
    · simpa only [clear_emitted] using hmem
    · simpa only [Client.Last, clear_emitted] using hlast
    · rw [clear_acks] at he'
      obtain ⟨hne, hmem'⟩ := h.acksNodup.mem_erase_iff.mp he'
      exact hne (h.ack_eq he hmem' hs)

theorem Inv.next (h : Inv s) {ev : Event} (hp : ev.Possible s) : Inv (next s ev) := by
  cases ev with
  | connect =>
    simp only [Web.next]
    split_ifs
    · exact h.flags ..
    · exact ((h.flags ..).now .pool).now .ride
  | disconnect => exact h.flags ..
  | ack e ack => exact h.onAck hp ack
  | timer t => exact h.onTimeout hp
  | subscribePool sharedRideId =>
    simp only [Web.next, Client.subscribePool]
    split_ifs
    · exact (h.flags ..).now .pool
    · exact h.flags ..
  | subscribeRide rideId =>
    simp only [Web.next, Client.subscribeRide]
    split_ifs
    · exact (h.flags ..).now .ride
    · exact h.flags ..
  | completed rideId =>
    simp only [Web.next]
    split_ifs
    · exact h
    · exact h.now .pool
    · exact h
  | receive m =>
    simp only [Web.next]
    split_ifs
    · exact h
    · exact h.flags ..
  | close => exact (((h.flags ..).cancel .pool).cancel .ride).flags ..

end Inv

end Rcab.Web
