import Rcab.Matching.RideStop

/-!
# Confirming a stop

The transaction of `RideLifecycleService.confirmStop`: ownership against the
committed claim, the stop's stamp, the pool's start at its first pickup, its
completion and the guard's release at its last stop.
-/

namespace Rcab.RideLifecycle

open Dispatch (lockSharedTrip release)
open Matching (findByRideId confirm markRideStarted markRideCompleted)

structure StopConfirmInput where
  rideId : PoolId
  driverId : DriverId
  sequenceIndex : Nat
  type : StopType
deriving DecidableEq, Repr

inductive StopConfirmFailure where
  | notFound | notOwner | wrongType | outOfOrder
deriving DecidableEq, Repr

structure StopConfirmed where
  stop : RideStop
  pendingAfter : Nat
  rideCompleted : Bool
  duplicate : Bool
  /-- `state_version` after the confirmation. -/
  version : Nat
deriving DecidableEq, Repr

inductive StopConfirmResult where
  | ok (confirmed : StopConfirmed)
  | failed (reason : StopConfirmFailure)
deriving DecidableEq, Repr

/-- Bump `state_version`; the new one, or nothing when the pool is gone. -/
def touchPool (t : TxClock) (db : Db) (poolId : PoolId) : Db × Option Nat :=
  (db.updatePool t.now poolId fun s ↦ s, (db.sharedRides.get poolId).map (·.stateVersion + 1))

/-- The last stop completes the pool and releases the driver. -/
def completeWhenDone (t : TxClock) (db : Db) (input : StopConfirmInput) (pendingAfter : Nat) :
    Tx Unit :=
  if pendingAfter = 0 then
    match markRideCompleted t db input.rideId with
    | (_, none) => .error (.thrown "confirmStop: claimed pool could not be completed")
    | (db, some _) => .ok ((release db input.driverId (.shared input.rideId)).1, ())
  else .ok (db, ())

theorem completeWhenDone_cases {t : TxClock} {db db' : Db} {input : StopConfirmInput}
    {pendingAfter : Nat} {u : Unit} (h : completeWhenDone t db input pendingAfter = .ok (db', u)) :
    db' = db ∨
      (∃ s ∈ db.sharedRides, s.rideId = input.rideId ∧ s.poolState.Closed) ∧
        db' = (release (db.updatePool t.now input.rideId (SharedRide.complete t.now)
          (SharedRide.complete_rideId t.now)) input.driverId (.shared input.rideId)).1 := by
  unfold completeWhenDone markRideCompleted at h
  split_ifs at h with hdone hclosed
  · obtain ⟨rfl, -⟩ := Tx.ok_inj h
    exact Or.inr ⟨hclosed, rfl⟩
  · obtain ⟨rfl, -⟩ := Tx.ok_inj h
    exact Or.inl rfl

/-- The writes of a first confirmation of the first pending stop. -/
def confirmPending (t : TxClock) (db : Db) (input : StopConfirmInput) (stops : List RideStop) :
    Tx StopConfirmResult :=
  let pending := (stops.filter fun s ↦ s.confirmedAt = none).length
  match confirm t db input.rideId input.sequenceIndex with
  | (_, none) => .error (.thrown "confirmStop: stop changed under the pool lock")
  | (db, some updated) =>
  let db :=
    if input.type = .pickup ∧ stops.all (·.confirmedAt = none) then
      markRideStarted t db input.rideId
    else db
  let pendingAfter := pending - 1
  (completeWhenDone t db input pendingAfter).andThen fun db _ ↦
  match touchPool t db input.rideId with
  | (_, none) => .error (.thrown "confirmStop: pool vanished under the pool lock")
  | (db, some version) =>
      .ok (db, .ok
        { stop := updated
          pendingAfter
          rideCompleted := pendingAfter = 0
          duplicate := false
          version })

/-- The stamp, the start, the completion and the new version, in this order. -/
theorem confirmPending_cases {t : TxClock} {db db' : Db} {input : StopConfirmInput}
    {stops : List RideStop} {r : StopConfirmResult}
    (h : confirmPending t db input stops = .ok (db', r)) :
    ∃ db₁ updated db₂ pendingAfter db₃ u version,
      confirm t db input.rideId input.sequenceIndex = (db₁, some updated) ∧
      (db₂ = db₁ ∨ db₂ = markRideStarted t db₁ input.rideId) ∧
      pendingAfter = (stops.filter fun s ↦ s.confirmedAt = none).length - 1 ∧
      completeWhenDone t db₂ input pendingAfter = .ok (db₃, u) ∧
      touchPool t db₃ input.rideId = (db', some version) ∧
      r = .ok ⟨updated, pendingAfter, pendingAfter = 0, false, version⟩ := by
  unfold confirmPending at h
  split at h
  · cases h
  rename_i db₁ updated h₁
  obtain ⟨db₃, u, h₃, h⟩ := Tx.andThen_eq_ok.mp h
  split at h
  · cases h
  rename_i db₄ version h₄
  obtain ⟨rfl, rfl⟩ := Tx.ok_inj h
  refine ⟨db₁, updated, _, _, db₃, u, version, h₁, ?_, rfl, h₃, h₄, rfl⟩
  split_ifs
  · exact Or.inr rfl
  · exact Or.inl rfl

def confirmStop (t : TxClock) (db : Db) (input : StopConfirmInput) : Tx StopConfirmResult :=
  match lockSharedTrip db input.rideId with
  | none => .ok (db, .failed .notFound)
  | some pool =>
  if pool.claimedByDriverId ≠ some input.driverId then .ok (db, .failed .notOwner)
  else
  let stops := findByRideId db input.rideId
  match stops.find? fun s ↦ s.sequenceIndex = input.sequenceIndex with
  | none => .ok (db, .failed .notFound)
  | some target =>
  if target.type ≠ input.type then .ok (db, .failed .wrongType)
  else if target.confirmedAt.isSome then
    .ok (db, .ok
      { stop := target
        pendingAfter := (stops.filter fun s ↦ s.confirmedAt = none).length
        rideCompleted := pool.poolState = .completed
        duplicate := true
        version := pool.stateVersion })
  else if (stops.find? fun s ↦ s.confirmedAt = none).all fun firstPending ↦
      firstPending.sequenceIndex ≠ input.sequenceIndex then
    .ok (db, .failed .outOfOrder)
  else confirmPending t db input stops

/-- Only the claimant's first confirmation of a stop writes. -/
theorem confirmStop_cases {t : TxClock} {db db' : Db} {input : StopConfirmInput}
    {r : StopConfirmResult} (h : confirmStop t db input = .ok (db', r)) :
    db' = db ∨
      ∃ pool, db.sharedRides.get input.rideId = some pool ∧
        pool.claimedByDriverId = some input.driverId ∧
        confirmPending t db input (findByRideId db input.rideId) = .ok (db', r) := by
  unfold confirmStop at h
  split at h
  · obtain ⟨rfl, -⟩ := Tx.ok_inj h
    exact Or.inl rfl
  rename_i pool hpool
  split_ifs at h with hd
  · obtain ⟨rfl, -⟩ := Tx.ok_inj h
    exact Or.inl rfl
  dsimp only at h
  split at h
  · obtain ⟨rfl, -⟩ := Tx.ok_inj h
    exact Or.inl rfl
  split_ifs at h
  · obtain ⟨rfl, -⟩ := Tx.ok_inj h
    exact Or.inl rfl
  · obtain ⟨rfl, -⟩ := Tx.ok_inj h
    exact Or.inl rfl
  · obtain ⟨rfl, -⟩ := Tx.ok_inj h
    exact Or.inl rfl
  · exact Or.inr ⟨pool, hpool, not_not.mp hd, h⟩

end Rcab.RideLifecycle
