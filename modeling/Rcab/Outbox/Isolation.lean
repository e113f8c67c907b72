import Rcab.Outbox.Pass

/-!
# What a row's reconciliation leaves alone

Jobs, intents and rows each belong to one trip, and reconciling a trip touches what belongs to
it alone.
-/

namespace Rcab

namespace Outbox

/-- The trip a job is for. -/
def JobId.trip : JobId → TripRef
  | .dispatchStart trip _ => trip
  | .wave2 trip _ => trip
  | .hardFail trip _ => trip
  | .scheduledWake rideId _ => .solo rideId
  | .poolExpire poolId => .shared poolId
  | .legacyWave2 trip => trip
  | .legacyHardFail trip => trip
  | .legacyWake rideId => .solo rideId
  | .legacyPoolExpire poolId => .shared poolId

end Outbox

/-- The trip an intent is for. -/
def DedupeKey.trip (key : DedupeKey) : Option TripRef :=
  match key.topic with
  | .rideDispatchRequested | .rideWakeSchedule => some (.solo key.aggregateId)
  | .poolDispatchRequested | .poolExpireSchedule => some (.shared key.aggregateId)
  | .other _ => none

namespace Outbox

open Dispatch Scheduled

@[simp] theorem dispatchKey_trip (trip : TripRef) (g : ℕ) :
    (dispatchKey trip g).trip = some trip := by
  cases trip <;> rfl

/-- Nothing of the trip's changed. -/
structure SameFor (trip : TripRef) (b b' : Backend) : Prop where
  queue : ∀ id, id.trip = trip → b'.queue id = b.queue id
  outbox : ∀ key, key.trip = some trip → b'.db.outbox.get key = b.db.outbox.get key
  ride : ∀ rideId, trip = .solo rideId → b'.db.rides.get rideId = b.db.rides.get rideId
  pool : ∀ poolId, trip = .shared poolId →
    b'.db.sharedRides.get poolId = b.db.sharedRides.get poolId

namespace SameFor

variable {trip : TripRef} {b b' b'' : Backend}

theorem refl : SameFor trip b b :=
  ⟨fun _ _ ↦ rfl, fun _ _ ↦ rfl, fun _ _ ↦ rfl, fun _ _ ↦ rfl⟩

theorem trans (h : SameFor trip b b') (h' : SameFor trip b' b'') : SameFor trip b b'' where
  queue id hid := (h'.queue id hid).trans (h.queue id hid)
  outbox key hk := (h'.outbox key hk).trans (h.outbox key hk)
  ride rideId ht := (h'.ride rideId ht).trans (h.ride rideId ht)
  pool poolId ht := (h'.pool poolId ht).trans (h.pool poolId ht)

theorem liveAt (h : SameFor trip b b') {id : JobId} (hid : id.trip = trip) :
    b'.queue.LiveAt id ↔ b.queue.LiveAt id := by
  unfold Queue.LiveAt
  rw [h.queue id hid]

theorem intentPending (h : SameFor trip b b') {key : DedupeKey} (hk : key.trip = some trip) :
    IntentPending b'.db key ↔ IntentPending b.db key := by
  unfold IntentPending
  rw [h.outbox key hk]

end SameFor

section Jobs

variable {q : Queue} {id id' : JobId} {data : JobData} {delay : Int}

theorem Queue.add_of_ne (h : id ≠ id') : (q.add id' data delay) id = q id := by
  unfold Queue.add
  split_ifs
  · rfl
  · exact Function.update_of_ne h _ _

theorem Queue.removeFinished_of_ne (h : id ≠ id') : q.removeFinished id' id = q id := by
  unfold Queue.removeFinished
  split_ifs
  · exact Function.update_of_ne h _ _
  · rfl

/-- A timer is restored under an id of its own. -/
theorem restoreTimers_of_ne {cfg : Windows} {now base : Time} {trip : TripRef} {g : ℕ}
    {scheduled hasHardFail : Bool} (hh : id ≠ .hardFail trip g) (h2 : id ≠ .wave2 trip g) :
    restoreTimers cfg now q trip g scheduled hasHardFail base id = q id := by
  unfold restoreTimers
  split_ifs
  · rw [Queue.add_of_ne h2, Queue.removeFinished_of_ne h2]
  · rfl
  · rw [Queue.add_of_ne h2, Queue.removeFinished_of_ne h2, Queue.add_of_ne hh,
      Queue.removeFinished_of_ne hh]
  · rw [Queue.add_of_ne hh, Queue.removeFinished_of_ne hh]

end Jobs

section Trips

variable {trip trip' : TripRef} {b : Backend} {t : TxClock}

/-- An intent and the jobs of another trip. -/
theorem SameFor.rearmed {m : OutboxMessage} {queue : Queue} (hm : m.key.trip = some trip')
    (hne : trip' ≠ trip) (hq : ∀ id, id.trip = trip → queue id = b.queue id) :
    SameFor trip b ⟨rearmOrEnqueue t b.db m, queue⟩ := by
  obtain ⟨outbox, hdb⟩ := rearmOrEnqueue_eq t b.db m
  refine ⟨hq, fun key hk ↦ get_rearmOrEnqueue_ne ?_, fun _ _ ↦ ?_, fun _ _ ↦ ?_⟩
  · rintro rfl
    exact hne (Option.some.inj (hm.symm.trans hk))
  · rw [hdb]
  · rw [hdb]

/-- The jobs of another trip. -/
theorem SameFor.jobs {queue : Queue} (hq : ∀ id, id.trip = trip → queue id = b.queue id) :
    SameFor trip b { b with queue } :=
  ⟨hq, fun _ _ ↦ rfl, fun _ _ ↦ rfl, fun _ _ ↦ rfl⟩

/-- The re-arm of another ride. -/
theorem SameFor.retried {rideId : RideId} {expected : Option ℕ} (hne : .solo rideId ≠ trip) :
    SameFor trip b { b with db := (rearmScheduledRide t b.db rideId expected).1 } := by
  rcases rearmScheduledRide_cases t b.db rideId expected with h | ⟨r, -, -, -, h⟩
  · rw [h]
    exact refl
  · rw [h]
    refine ⟨fun _ _ ↦ rfl, fun key hk ↦ ?_, fun id htrip ↦ get_rearmed_ne t b.db _ ?_, fun _ _ ↦ rfl⟩
    · have hkey : key ≠ (dispatchIntent (.solo rideId) (r.dispatchGeneration + 1)).key := by
        rintro rfl
        exact hne (Option.some.inj hk)
      rw [rearmed_outbox]
      exact get_enqueueOutbox_ne hkey
    · rintro rfl
      exact hne htrip.symm

theorem sameFor_reconcileDispatching {cfg : Windows} {c : ReconcileClock} {g : ℕ}
    {ctx : DispatchContext} (hne : trip' ≠ trip)
    (hs : ctx.scheduled = true → ∃ rideId, trip' = .solo rideId) :
    SameFor trip b (reconcileDispatching cfg c b trip' g ctx) := by
  have hid : ∀ {id id' : JobId}, id.trip = trip → id'.trip = trip' → id ≠ id' := by
    rintro id id' h h' rfl
    exact hne (h'.symm.trans h)
  have h := reconcileDispatching_reconciles cfg c b trip' g ctx
  generalize reconcileDispatching cfg c b trip' g ctx = b' at h ⊢
  cases h with
  | running => exact .refl
  | retried _ _ hsch =>
      obtain ⟨rideId, rfl⟩ := hs hsch
      exact .retried hne
  | restarted =>
      refine .rearmed (dispatchKey_trip trip' g) hne fun id hid' ↦ ?_
      rw [Queue.removeFinished_of_ne (hid hid' rfl), Queue.removeFinished_of_ne (hid hid' rfl)]
  | closing => exact .refl
  | restored base =>
      exact .jobs fun id hid' ↦ restoreTimers_of_ne (hid hid' rfl) (hid hid' rfl)

end Trips

/-! ## Rows -/

/-- Nothing of the trip's changed, its `updated_at` included. -/
structure Same (trip : TripRef) (w w' : Store) : Prop where
  backend : SameFor trip w.backend w'.backend
  updatedAt : w'.updatedAt trip = w.updatedAt trip
  poolOpenedAt : w'.poolOpenedAt = w.poolOpenedAt

/-- Each row is reconciled on its own. -/
theorem isolated_reconcile (cfg : Windows) (clock : TripRef → ReconcileClock) :
    Isolated Due.trip Same fun w (i : Due) ↦ i.reconcile cfg (clock i.trip) w where
  refl _ _ := ⟨.refl, rfl, rfl⟩
  trans _ _ _ _ h h' := ⟨h.backend.trans h'.backend, h'.updatedAt.trans h.updatedAt,
    h'.poolOpenedAt.trans h.poolOpenedAt⟩
  off trip w i hne := by
    have hid : ∀ {id id' : JobId}, id.trip = trip → id'.trip = i.trip → id ≠ id' := by
      rintro id id' h h' rfl
      exact hne (h'.symm.trans h)
    cases i with
    | unwokenScheduled r =>
        refine ⟨?_, rfl, rfl⟩
        show SameFor trip w.backend (reconcileUnwoken _ w.backend r)
        unfold reconcileUnwoken
        split
        · exact .refl
        split_ifs
        · exact .refl
        · exact .rearmed rfl hne fun id h ↦ Queue.removeFinished_of_ne (hid h rfl)
    | soloDispatch r updatedAt =>
        refine ⟨sameFor_reconcileDispatching hne fun _ ↦ ⟨r.id, rfl⟩, ?_, rfl⟩
        simp only [Due.reconcile]
        split_ifs
        · rfl
        · exact Function.update_of_ne (Ne.symm hne) _ _
    | openPool s poolOpenedAt =>
        refine ⟨?_, rfl, rfl⟩
        show SameFor trip w.backend (reconcileOpen _ _ w.backend s poolOpenedAt)
        unfold reconcileOpen
        split_ifs
        · exact .refl
        · exact .rearmed rfl hne fun id h ↦ Queue.removeFinished_of_ne (hid h rfl)
    | closedPool s =>
        exact ⟨sameFor_reconcileDispatching hne (fun h ↦ by cases h), rfl, rfl⟩

namespace Same

variable {w w' : Store} {i : Due}

theorem symm {trip : TripRef} (h : Same trip w w') : Same trip w' w where
  backend :=
    { queue := fun id hid ↦ (h.backend.queue id hid).symm
      outbox := fun key hk ↦ (h.backend.outbox key hk).symm
      ride := fun rideId ht ↦ (h.backend.ride rideId ht).symm
      pool := fun poolId ht ↦ (h.backend.pool poolId ht).symm }
  updatedAt := h.updatedAt.symm
  poolOpenedAt := h.poolOpenedAt.symm

/-- The row of a trip nothing changed of. -/
theorem mem (h : Same i.trip w w') (hi : i.In w) : i.In w' := by
  cases i with
  | unwokenScheduled r => exact ⟨(h.backend.ride r.id rfl).trans hi.1, hi.2⟩
  | soloDispatch r updatedAt =>
      exact ⟨(h.backend.ride r.id rfl).trans hi.1, hi.2.1, hi.2.2.trans h.updatedAt.symm⟩
  | openPool s poolOpenedAt =>
      exact ⟨(h.backend.pool s.rideId rfl).trans hi.1, hi.2.1, by rw [h.poolOpenedAt, hi.2.2]⟩
  | closedPool s => exact ⟨(h.backend.pool s.rideId rfl).trans hi.1, hi.2⟩

/-- Its work is as it was. -/
theorem lost_iff (h : Same i.trip w w') : i.Lost w'.backend ↔ i.Lost w.backend := by
  have hb := h.backend
  have hdispatch : ∀ {trip : TripRef} {g : ℕ}, SameFor trip w.backend w'.backend →
      (HasWave2 w'.backend.queue trip g ∨ DurableWork w'.backend trip g ↔
        HasWave2 w.backend.queue trip g ∨ DurableWork w.backend trip g) := by
    intro trip g hb
    unfold HasWave2 DurableWork
    rw [hb.liveAt rfl, hb.liveAt rfl, hb.liveAt rfl, hb.liveAt rfl, hb.liveAt rfl,
      hb.intentPending (dispatchKey_trip trip g)]
  unfold Due.Lost
  refine and_congr_right fun _ ↦ not_congr ?_
  cases i with
  | unwokenScheduled r =>
      exact or_congr (hb.liveAt rfl) (or_congr (hb.liveAt rfl) (hb.intentPending rfl))
  | soloDispatch r updatedAt => exact hdispatch hb
  | openPool s poolOpenedAt =>
      exact or_congr (hb.liveAt rfl) (or_congr (hb.liveAt rfl) (hb.intentPending rfl))
  | closedPool s => exact hdispatch hb

end Same

end Outbox

end Rcab
