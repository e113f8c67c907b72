import Rcab.Pools.Membership
import Rcab.Work.System

/-!
# No trip without its intent

In every state the backend reaches, each generation of a trip has the intent that makes somebody
work on it, and no generation ever decreases (`intents_of_run`).

The trips' own transactions keep this by the machines of one ride and of one pool; a relay never
takes a row away, and a reconciler only restores intents of generations that were reached.
-/

universe u

namespace Rcab

open Outbox (Due Windows OutboxMessage)

/-! ## What a ride and a pool keep -/

/-- A ride stays, keeps its passenger and its type, and its generation never decreases. -/
theorem RideSim.get {wakes : ℕ → Prop} {db db' : Db} (h : RideSim wakes db db') {id : RideId}
    {r : Ride} (hr : db.rides.get id = some r) : ∃ r', db'.rides.get id = some r' ∧
      r'.passengerId = r.passengerId ∧ r'.type = r.type ∧
      r.dispatchGeneration ≤ r'.dispatchGeneration := by
  refine h.keeps (P := fun v ↦ ∃ r', v.row = some r' ∧ r'.passengerId = r.passengerId ∧
    r'.type = r.type ∧ r.dispatchGeneration ≤ r'.dispatchGeneration) ?_ id
    ⟨r, hr, rfl, rfl, Nat.le_refl _⟩
  rintro v v' hst ⟨r₁, hr₁, hp, ht, hg⟩
  obtain ⟨r₂, hr₂, hp', ht', hg'⟩ := hst.kept hr₁
  exact ⟨r₂, hr₂, hp'.trans hp, ht'.trans ht, hg.trans hg'⟩

/-- A pool stays, and its generation never decreases. -/
theorem PoolStep.kept {v v' : PoolView} (hst : PoolStep v v') {s : SharedRide}
    (hrow : v.row = some s) :
    ∃ s', v'.row = some s' ∧ s.dispatchGeneration ≤ s'.dispatchGeneration := by
  have hsame : ∀ {s₁ : SharedRide}, v.row = some s₁ → s₁ = s := fun h ↦
    Option.some.inj (h.symm.trans hrow)
  cases hst with
  | idle => exact ⟨s, hrow, Nat.le_refl _⟩
  | opened s₁ m hnone =>
      rw [hrow] at hnone
      cases hnone
  | joined s₁ m hs₁ =>
      obtain rfl := hsame hs₁
      exact ⟨_, rfl, by simp⟩
  | closed s₁ reason now stops hs₁ =>
      obtain rfl := hsame hs₁
      exact ⟨_, rfl, by simp [SharedRide.close]⟩
  | claimed s₁ d now hs₁ =>
      obtain rfl := hsame hs₁
      exact ⟨_, rfl, Nat.le_refl _⟩
  | retired s₁ s' now hs₁ ho hn hs' hmv =>
      obtain rfl := hsame hs₁
      exact ⟨s', rfl, hmv.dispatchGeneration.ge⟩
  | aborted s₁ s' now hs₁ hc hd hs' hmv =>
      obtain rfl := hsame hs₁
      exact ⟨s', rfl, hmv.dispatchGeneration.ge⟩
  | confirmed s₁ s' d i now hs₁ hd hf hmore hs' hmv =>
      obtain rfl := hsame hs₁
      exact ⟨s', rfl, hmv.dispatchGeneration.ge⟩
  | completed s₁ s' d i now hs₁ hd hf hlast hs' hmv =>
      obtain rfl := hsame hs₁
      exact ⟨s', rfl, hmv.dispatchGeneration.ge⟩

theorem PoolSim.get {db db' : Db} (h : PoolSim db db') {id : PoolId} {s : SharedRide}
    (hs : db.sharedRides.get id = some s) :
    ∃ s', db'.sharedRides.get id = some s' ∧ s.dispatchGeneration ≤ s'.dispatchGeneration := by
  refine h.keeps (P := fun v ↦ ∃ s', v.row = some s' ∧
    s.dispatchGeneration ≤ s'.dispatchGeneration) ?_ id ⟨s, hs, Nat.le_refl _⟩
  rintro v v' hst ⟨s₁, hs₁, hg⟩
  obtain ⟨s₂, hs₂, hg'⟩ := hst.kept hs₁
  exact ⟨s₂, hs₂, hg.trans hg'⟩

/-- More intents do no harm to a pool. -/
theorem PoolInv.mono {v v' : PoolView} (h : PoolInv v) (hrow : v'.row = v.row)
    (hm : v'.members = v.members) (hs : v'.stops = v.stops) (hd : v.dispatch ⊆ v'.dispatch)
    (he : v.expire ⊆ v'.expire) : PoolInv v' where
  absent hnone := by rw [hm, hs]; exact h.absent (hrow ▸ hnone)
  seats s hs := by rw [hm]; exact h.seats s (hrow ▸ hs)
  active s hs := by rw [hm]; exact h.active s (hrow ▸ hs)
  expire s hs := he (h.expire s (hrow ▸ hs))
  whileOpen s hr := by rw [hs]; exact h.whileOpen s (hrow ▸ hr)
  onceClosed s hr ho := by
    obtain ⟨hg, hin, hi⟩ := h.onceClosed s (hrow ▸ hr) ho
    rw [hm, hs]
    exact ⟨hg, hd hin, hi⟩
  progress s hr := by rw [hs]; exact h.progress s (hrow ▸ hr)
  claimed s d hs := h.claimed s d (hrow ▸ hs)

namespace Work

variable {s s' : System}

/-! ## The outbox -/

/-- The rows of the outbox stay, and only a writer adds one. -/
theorem isSome_next {w : Outbox.World} {e : Outbox.Event} {key : DedupeKey} :
    ((w.next e).outbox.get key).isSome ↔
      (w.outbox.get key).isSome ∨ ∃ m now, e = .enqueue m now ∧ key = m.key := by
  cases e with
  | lease i now locked picked uuid answered =>
      simp [Outbox.World.next, Outbox.lease]
  | publish i thrown =>
      simp only [Outbox.World.next]
      split <;> simp [Outbox.World.setRelay]
  | ack i now executed =>
      simp only [Outbox.World.next]
      split
      · simp
      · cases executed
        · simp
        · simp [Outbox.ack]
  | fail i now executed =>
      simp only [Outbox.World.next]
      split
      · cases executed
        · simp
        · simp [Outbox.fail]
      · simp
  | crash i => simp [Outbox.World.next, Outbox.World.setRelay]
  | enqueue m now =>
      have : ((w.outbox.insert (m.row now)).get key).isSome ↔
          key = m.key ∨ (w.outbox.get key).isSome := Table.isSome_get_insert
      simp only [Outbox.World.next, this, Outbox.Event.enqueue.injEq]
      constructor
      · rintro (hk | hs)
        · exact Or.inr ⟨m, now, ⟨rfl, rfl⟩, hk⟩
        · exact Or.inl hs
      · rintro (hs | ⟨_, _, ⟨rfl, rfl⟩, hk⟩)
        · exact Or.inr hs
        · exact Or.inl hk
  | rearm id now => simp [Outbox.World.next, Outbox.rearm]

/-- A relay holds rows it leased from the outbox. -/
theorem rows_next {w : Outbox.World} {e : Outbox.Event} {i : ℕ} {row : Outbox.LeasedOutboxRow}
    (h : row ∈ ((w.next e).relays i).rows) :
    row ∈ (w.relays i).rows ∨ (w.outbox.get row.dedupeKey).isSome := by
  have hset : ∀ {j : ℕ} {d : Outbox.Drain}, row ∈ ((w.setRelay j d).relays i).rows →
      row ∈ (w.relays i).rows ∨ i = j ∧ row ∈ d.rows := by
    intro j d h
    by_cases hij : i = j
    · subst hij
      right
      simpa [Outbox.World.setRelay] using h
    · left
      simpa [Outbox.World.setRelay, hij] using h
  cases e with
  | lease j now locked picked uuid answered =>
      simp only [Outbox.World.next] at h
      rcases hset h with h | ⟨-, h⟩
      · exact Or.inl h
      · right
        split_ifs at h
        · simp only [Outbox.lease, List.mem_filterMap, Option.map_eq_some_iff] at h
          obtain ⟨id, -, r, hr, rfl⟩ := h
          have hsome := congrArg Option.isSome hr
          rwa [Table.isSome_get_update] at hsome
        · cases h
  | publish j thrown =>
      simp only [Outbox.World.next] at h
      split at h
      · exact Or.inl h
      · rcases hset h with h | ⟨rfl, h⟩
        · exact Or.inl h
        · left
          unfold Outbox.Drain.publish at h
          split at h <;> exact h
  | ack j now executed =>
      simp only [Outbox.World.next] at h
      split at h
      · exact Or.inl h
      · rcases hset h with h | ⟨rfl, h⟩
        · exact Or.inl h
        · exact Or.inl (List.mem_of_mem_tail h)
  | fail j now executed =>
      simp only [Outbox.World.next] at h
      split at h
      · rcases hset h with h | ⟨rfl, h⟩
        · exact Or.inl h
        · exact Or.inl (List.mem_of_mem_tail h)
      · exact Or.inl h
  | crash j =>
      rcases hset h with h | ⟨-, h⟩
      · exact Or.inl h
      · cases h
  | enqueue m now => exact Or.inl h
  | rearm id now => exact Or.inl h

/-- The wake of a row is for its generation. -/
theorem publication_wakes {row : Outbox.LeasedOutboxRow} {p : Outbox.Publication} {rideId : RideId}
    {g : ℕ} (h : Outbox.publication row = .ok p) (hw : p.Wakes rideId g) :
    row.dedupeKey.topic = .rideWakeSchedule ∧ row.dedupeKey.generation = g := by
  unfold Outbox.publication at h
  split at h
  · obtain rfl := Except.ok.inj h
    exact hw.elim
  · obtain rfl := Except.ok.inj h
    exact hw.elim
  · rename_i htopic
    split at h
    · obtain rfl := Except.ok.inj h
      exact ⟨htopic, hw.2⟩
    · cases h
  · split at h
    · obtain rfl := Except.ok.inj h
      exact hw.elim
    · cases h
  · cases h

/-- What goes on the queues is of a row some relay holds. -/
theorem mem_publishes {w : Outbox.World} {e : Outbox.Event} {p : Outbox.Publication}
    (h : p ∈ System.publishes w e) :
    ∃ i, ∃ row ∈ (w.relays i).rows, Outbox.publication row = .ok p := by
  cases e with
  | publish i thrown =>
      simp only [System.publishes] at h
      split at h
      · cases h
      · rename_i row hrow
        refine ⟨i, row, List.mem_of_mem_head? hrow, ?_⟩
        cases hp : Outbox.publication row with
        | error message => simp [hp, Except.toOption] at h
        | ok p' =>
            obtain rfl : p = p' := by simpa [hp, Except.toOption] using h
            rfl
  | _ => cases h

/-! ## The invariant -/

/-- What the trips, the relays and the reconcilers agree on: wakes are for generation 1, and a
generation somebody read was reached. -/
structure Consistent (s : System) : Prop where
  rides : ∀ id, RideInv (s.db.rideView id)
  pools : PoolsInv s.db
  held : ∀ i, ∀ row ∈ (s.relays i).rows, row.dedupeKey.topic = .rideWakeSchedule →
    row.dedupeKey.generation = 1
  published : ∀ p ∈ s.published, ∀ rideId g, p.Wakes rideId g → g = 1
  seen : ∀ r updatedAt, Due.soloDispatch r updatedAt ∈ s.seen →
    ∃ r', s.db.rides.get r.id = some r' ∧ r.dispatchGeneration ≤ r'.dispatchGeneration

namespace Consistent

theorem initial (h : s.Initial) : Consistent s where
  rides id := by
    have hno : ∀ key, ¬ (s.db.outbox.get key).isSome = true := by
      intro key hk
      obtain ⟨r, hr⟩ := Option.isSome_iff_exists.mp hk
      exact h.outbox r (Table.mem_of_get hr)
    refine .of_absent (Table.get_eq_none.mpr fun r hr ↦ absurd hr (h.noTrips.rides r)) ?_ ?_
    · exact Set.eq_empty_iff_forall_notMem.mpr fun g hg ↦ hno _ hg
    · exact Set.eq_empty_iff_forall_notMem.mpr fun g hg ↦ hno _ hg
  pools := .of_noPools h.noPools
  held i row hrow := by
    rw [h.relays i] at hrow
    cases hrow
  published p hp := by
    rw [h.published] at hp
    cases hp
  seen r updatedAt hr := by
    rw [h.seen] at hr
    cases hr

section Trip

variable {D : Type u} [LinearOrder D] (dist : Point → Point → D)

/-- A transaction on the trips that wakes for generation 1 at most. -/
theorem trip (h : Consistent s) {e : Step} (hw : e.WakesIn (· = 1)) (sent : List Dispatch.Notice) :
    Consistent { s with db := exec dist s.db e, sent } where
  rides id := (rideSim_exec dist e hw).keeps (fun _ _ hst hi ↦ hi.step hst) id (h.rides id)
  pools := h.pools.step (show Rcab.step dist s.db e _ from rfl)
  held := h.held
  published := h.published
  seen r updatedAt hr := by
    obtain ⟨r', hr', hg⟩ := h.seen r updatedAt hr
    obtain ⟨r'', hr'', -, -, hg'⟩ := (rideSim_exec dist e hw).get hr'
    exact ⟨r'', hr'', hg.trans hg'⟩

end Trip

/-- The rows a reconciler may write an intent for. -/
theorem intent (h : Consistent s) {cfg : Windows} {i : Due} (hi : i ∈ s.seen) {m : OutboxMessage}
    (hm : i.intent cfg = some m) :
    (m.key.topic = .rideDispatchRequested → ∃ r, s.db.rides.get m.key.aggregateId = some r ∧
      m.key.generation ≤ r.dispatchGeneration) ∧
    (m.key.topic = .rideWakeSchedule → m.key.generation = 1) := by
  cases i with
  | unwokenScheduled r =>
      simp only [Due.intent, Option.map_eq_some_iff] at hm
      obtain ⟨at_, -, rfl⟩ := hm
      exact ⟨fun ht ↦ (by cases ht), fun _ ↦ rfl⟩
  | soloDispatch r updatedAt =>
      obtain rfl := Option.some.inj hm
      exact ⟨fun _ ↦ h.seen r updatedAt hi, fun ht ↦ (by cases ht)⟩
  | openPool p poolOpenedAt =>
      obtain rfl := Option.some.inj hm
      exact ⟨fun ht ↦ (by cases ht), fun ht ↦ (by cases ht)⟩
  | closedPool p =>
      obtain rfl := Option.some.inj hm
      exact ⟨fun ht ↦ (by cases ht), fun ht ↦ (by cases ht)⟩

/-- A statement on the outbox. -/
theorem outbox (h : Consistent s) {cfg : Windows} {e : Outbox.Event}
    (ha : Allowed cfg s (.outbox e)) (published : List Outbox.Publication)
    (hp : ∀ p ∈ published, p ∈ System.publishes s.world e ∨ p ∈ s.published) :
    Consistent { s.withWorld (s.world.next e) with published } where
  rides id := by
    -- An intent that was not there is one a reconciler calls for.
    have hnew : ∀ key : DedupeKey, ((s.world.next e).outbox.get key).isSome →
        (s.db.outbox.get key).isSome ∨
          (key.topic = .rideDispatchRequested → ∃ r, s.db.rides.get key.aggregateId = some r ∧
            key.generation ≤ r.dispatchGeneration) ∧
          (key.topic = .rideWakeSchedule → key.generation = 1) := by
      intro key hk
      rcases isSome_next.mp hk with hk | ⟨m, now, rfl, rfl⟩
      · exact Or.inl hk
      · obtain ⟨i, hi, hm⟩ := ha
        exact Or.inr (h.intent hi hm)
    refine (h.rides id).mono rfl (fun g hg ↦ isSome_next.mpr (Or.inl hg))
      (fun g hg ↦ isSome_next.mpr (Or.inl hg)) (fun g hg ↦ ?_) fun g hg ↦ ?_
    · rcases hnew _ hg with hg | ⟨hg, -⟩
      · exact (h.rides id).upTo g hg
      · exact hg rfl
    · rcases hnew _ hg with hg | ⟨-, hg⟩
      · exact (h.rides id).first g hg
      · exact hg rfl
  pools := ⟨fun id ↦ (h.pools.pool id).mono rfl rfl rfl (fun g hg ↦ isSome_next.mpr (Or.inl hg))
    fun g hg ↦ isSome_next.mpr (Or.inl hg), h.pools.activeOnce⟩
  held i row hrow ht := by
    rcases rows_next hrow with hrow | hsome
    · exact h.held i row hrow ht
    · -- The row was leased from the outbox just now.
      refine (h.rides row.dedupeKey.aggregateId).first _ ?_
      show (s.db.outbox.get ⟨.rideWakeSchedule, _, _⟩).isSome = true
      rw [← ht]
      exact hsome
  published p hp' rideId g hw := by
    rcases hp p hp' with hp' | hp'
    · obtain ⟨i, row, hrow, hpub⟩ := mem_publishes hp'
      obtain ⟨ht, rfl⟩ := publication_wakes hpub hw
      exact h.held i row hrow ht
    · exact h.published p hp' rideId g hw
  seen := h.seen

variable {D : Type u} [LinearOrder D] {dist : Point → Point → D} {cfg : Windows} {e : Event}

theorem step (h : Consistent s) (hst : Work.step dist cfg s e s') : Consistent s' := by
  obtain ⟨ha, rfl⟩ := hst
  cases e with
  | trip e =>
      refine h.trip dist ?_ s.sent
      cases e with
      | wakeScheduled rideId generation =>
          obtain ⟨p, hp, hw⟩ := ha
          exact h.published p hp rideId generation hw
      | _ => trivial
  | hardFail t trip generation told =>
      obtain ⟨e, hw, he⟩ := handleHardFail_exec dist t s.db trip generation
      have hw : e.WakesIn (· = 1) := by
        cases e with
        | wakeScheduled rideId generation => exact hw.elim
        | _ => trivial
      have := h.trip dist hw (if told then
        (Dispatch.handleHardFail t s.db trip generation).2 ++ s.sent else s.sent)
      rw [← he] at this
      exact this
  | outbox e => exact h.outbox ha _ fun p hp ↦ List.mem_append.mp hp
  | query answer =>
      refine ⟨h.rides, h.pools, h.held, h.published, fun r updatedAt hr ↦ ?_⟩
      rcases List.mem_append.mp hr with hr | hr
      · exact ⟨r, (ha _ hr).1, Nat.le_refl _⟩
      · exact h.seen r updatedAt hr

theorem run {s₀ : System} {tr : List (System × Event)} (h : Consistent s₀)
    (hr : Run (Work.step dist cfg) s₀ tr s) : Consistent s :=
  hr.invariant (fun _ _ _ hi hst ↦ hi.step hst) h

end Consistent

/-! ## Every generation has its intent -/

/-- The intent has a row, whatever became of it. -/
def HasIntent (db : Db) (topic : OutboxTopic) (aggregateId : Uuid) (generation : ℕ) : Prop :=
  (db.outbox.get ⟨topic, aggregateId, generation⟩).isSome

/-- Every generation of every trip has its intent, and no intent is there twice. -/
structure Intents (db : Db) : Prop where
  solo : ∀ r ∈ db.rides, 1 ≤ r.dispatchGeneration →
    HasIntent db .rideDispatchRequested r.id r.dispatchGeneration ∨
      r.type = .scheduled ∧ r.dispatchGeneration = 1 ∧ HasIntent db .rideWakeSchedule r.id 1
  booked : ∀ r ∈ db.rides, r.type = .scheduled → r.status = .requested →
    r.dispatchGeneration = 0 → HasIntent db .rideWakeSchedule r.id 1
  openPool : ∀ p ∈ db.sharedRides, p.poolState = .open_ →
    HasIntent db .poolExpireSchedule p.rideId 0
  closedPool : ∀ p ∈ db.sharedRides, p.dispatchGeneration = 1 →
    HasIntent db .poolDispatchRequested p.rideId 1
  once : ∀ p ∈ db.sharedRides, p.dispatchGeneration ≤ 1
  unique : ∀ a ∈ db.outbox, ∀ b ∈ db.outbox, a.dedupeKey.topic = b.dedupeKey.topic →
    a.dedupeKey.aggregateId = b.dedupeKey.aggregateId →
    a.dedupeKey.generation = b.dedupeKey.generation → a = b

/-- Every trip is still there, at the same generation or a later one. -/
structure NotBefore (db db' : Db) : Prop where
  rides : ∀ r ∈ db.rides, ∃ r' ∈ db'.rides, r'.id = r.id ∧
    r.dispatchGeneration ≤ r'.dispatchGeneration
  pools : ∀ p ∈ db.sharedRides, ∃ p' ∈ db'.sharedRides, p'.rideId = p.rideId ∧
    p.dispatchGeneration ≤ p'.dispatchGeneration

theorem Consistent.intents (h : Consistent s) : Intents s.db where
  solo r hr hg := by
    have hrow : s.db.rides.get r.id = some r := Table.get_of_mem hr
    have hi := h.rides r.id
    by_cases ht : r.type = .scheduled
    · by_cases h1 : r.dispatchGeneration = 1
      · exact Or.inr ⟨ht, h1, hi.booked r hrow ht⟩
      · exact Or.inl (hi.windows r hrow ht (by omega))
    · obtain ⟨h1, hin⟩ := hi.once r hrow ht
      exact Or.inl (h1 ▸ hin)
  booked r hr ht _ _ := (h.rides r.id).booked r (Table.get_of_mem hr) ht
  openPool p hp _ := (h.pools.pool p.rideId).expire p (Table.get_of_mem hp)
  closedPool p hp hg := by
    have hrow : s.db.sharedRides.get p.rideId = some p := Table.get_of_mem hp
    refine ((h.pools.pool p.rideId).onceClosed p hrow fun ho ↦ ?_).2.1
    -- An open pool is at generation 0.
    rw [((h.pools.pool p.rideId).whileOpen p hrow ho).1] at hg
    cases hg
  once p hp := by
    have hrow : s.db.sharedRides.get p.rideId = some p := Table.get_of_mem hp
    by_cases ho : p.poolState = .open_
    · rw [((h.pools.pool p.rideId).whileOpen p hrow ho).1]
      exact Nat.zero_le 1
    · exact ((h.pools.pool p.rideId).onceClosed p hrow ho).1.le
  unique a ha b hb ht hid hg := by
    refine Table.unique ha hb ?_
    show (⟨a.dedupeKey.topic, a.dedupeKey.aggregateId, a.dedupeKey.generation⟩ : DedupeKey) =
      b.dedupeKey
    rw [ht, hid, hg]

namespace NotBefore

variable {db db' db'' : Db}

theorem refl : NotBefore db db :=
  ⟨fun r hr ↦ ⟨r, hr, rfl, Nat.le_refl _⟩, fun p hp ↦ ⟨p, hp, rfl, Nat.le_refl _⟩⟩

theorem trans (h : NotBefore db db') (h' : NotBefore db' db'') : NotBefore db db'' where
  rides r hr := by
    obtain ⟨r', hr', hid, hg⟩ := h.rides r hr
    obtain ⟨r'', hr'', hid', hg'⟩ := h'.rides r' hr'
    exact ⟨r'', hr'', hid'.trans hid, hg.trans hg'⟩
  pools p hp := by
    obtain ⟨p', hp', hid, hg⟩ := h.pools p hp
    obtain ⟨p'', hp'', hid', hg'⟩ := h'.pools p' hp'
    exact ⟨p'', hp'', hid'.trans hid, hg.trans hg'⟩

theorem of_sim {wakes : ℕ → Prop} (hr : RideSim wakes db db') (hp : PoolSim db db') :
    NotBefore db db' where
  rides r hrow := by
    obtain ⟨r', hr', -, -, hg⟩ := hr.get (Table.get_of_mem hrow)
    exact ⟨r', Table.mem_of_get hr', Table.key_of_get hr', hg⟩
  pools p hrow := by
    obtain ⟨p', hp', hg⟩ := hp.get (Table.get_of_mem hrow)
    exact ⟨p', Table.mem_of_get hp', Table.key_of_get hp', hg⟩

end NotBefore

section Runs

variable {D : Type u} [LinearOrder D] {dist : Point → Point → D} {cfg : Windows}

theorem notBefore_exec (h : Consistent s) (e : Step) : NotBefore s.db (exec dist s.db e) :=
  have hwakes : e.WakesIn fun _ ↦ True := by cases e <;> trivial
  .of_sim (rideSim_exec dist e hwakes) (poolSim_exec dist h.pools e)

theorem notBefore_step {e : Event} (h : Consistent s) (hst : step dist cfg s e s') :
    NotBefore s.db s'.db := by
  obtain ⟨-, rfl⟩ := hst
  cases e with
  | trip e => exact notBefore_exec h e
  | hardFail t trip generation told =>
      obtain ⟨e, -, he⟩ := handleHardFail_exec dist t s.db trip generation
      show NotBefore s.db (Dispatch.handleHardFail t s.db trip generation).1
      rw [he]
      exact notBefore_exec h e
  | outbox e => exact ⟨NotBefore.refl.rides, NotBefore.refl.pools⟩
  | query answer => exact .refl

theorem notBefore_run {tr : List (System × Event)} (h : Consistent s)
    (hr : Run (step dist cfg) s tr s') : NotBefore s.db s'.db := by
  induction hr with
  | nil => exact .refl
  | snoc hr hst ih => exact ih.trans (notBefore_step (h.run hr) hst)

/-- **No lost work**: whatever the trips' transactions, the hard-fail workers, the relays and the
reconcilers do, and in whatever order, every generation of every trip has its intent, and no
generation ever decreases. -/
theorem intents_of_run (dist : Point → Point → D) (cfg : Windows) {s₀ s : System}
    {tr : List (System × Event)} (h₀ : s₀.Initial) (hr : Run (step dist cfg) s₀ tr s) :
    Intents s.db ∧ ∀ tr' s', Run (step dist cfg) s tr' s' → NotBefore s.db s'.db :=
  have h : Consistent s := (Consistent.initial h₀).run hr
  ⟨h.intents, fun _ _ hr' ↦ notBefore_run h hr'⟩

end Runs

/-! ## A scheduled ride nobody takes -/

def sampleSystem : System := ⟨.empty, fun _ ↦ {}, [], [], [], []⟩

theorem sampleSystem_initial : sampleSystem.Initial where
  noTrips := Db.empty_noTrips
  noPools := Db.empty_noPools
  outbox := Table.notMem_empty
  relays _ := rfl
  published := rfl
  seen := rfl
  sent := rfl

/-- The ride is booked, its wake is published and run, and its first window closes. -/
def sampleWindow : List Event :=
  [.trip (.createRide ⟨0, 0⟩
      { newId := 1, passengerId := 2, origin := ⟨0, 0⟩, dest := ⟨1, 1⟩, fareCents := 500
        idempotencyKey := "k", type := .scheduled, scheduledFor := some 900 }),
    .outbox (.lease 0 0 [] [⟨.rideWakeSchedule, 1, 1⟩] (fun _ ↦ 90) true),
    .outbox (.publish 0 none),
    .trip (.wakeScheduled 1 1),
    .hardFail ⟨240, 240⟩ (.solo 1) (some 1) true]

def sampleRetried : System := sampleWindow.foldl (next (D := ℕ) fun _ _ ↦ 0) sampleSystem

theorem sampleRetried_intent : ∃ r ∈ sampleRetried.db.rides, r.dispatchGeneration = 2 ∧
    HasIntent sampleRetried.db .rideDispatchRequested r.id r.dispatchGeneration := by
  have hany : sampleRetried.db.rides.Any fun r ↦ r.dispatchGeneration = 2 := by decide +kernel
  obtain ⟨r, hr, hg⟩ := hany
  have hrun := Run.of_enabled (step (D := ℕ) (fun _ _ ↦ 0) .default) step_next sampleWindow
    (s := sampleSystem) (by decide +kernel)
  obtain ⟨hi, -⟩ := intents_of_run (D := ℕ) (fun _ _ ↦ 0) .default sampleSystem_initial hrun
  refine ⟨r, hr, hg, (hi.solo r hr (by omega)).resolve_right fun h ↦ ?_⟩
  omega

end Work

end Rcab
