import Rcab.Dispatch.Assignment
import Mathlib.Data.List.Sort

/-!
# The ride-stop repository

`ride-stop.repository.ts`.
-/

namespace Rcab

/-- `SET pool_state = 'closed_started'`. -/
def SharedRide.start (s : SharedRide) : SharedRide := { s with poolState := .closedStarted }

@[simp] theorem SharedRide.start_rideId (s : SharedRide) : s.start.rideId = s.rideId := rfl

@[simp] theorem SharedRide.start_poolState (s : SharedRide) :
    s.start.poolState = .closedStarted := rfl

/-- `SET pool_state = 'completed', completed_at = now()`. -/
def SharedRide.complete (now : Time) (s : SharedRide) : SharedRide :=
  { s with poolState := .completed, completedAt := some now }

@[simp] theorem SharedRide.complete_rideId (now : Time) (s : SharedRide) :
    (s.complete now).rideId = s.rideId := rfl

@[simp] theorem SharedRide.complete_poolState (now : Time) (s : SharedRide) :
    (s.complete now).poolState = .completed := rfl

namespace Matching

/-- The itinerary in sequence order. -/
def findByRideId (db : Db) (rideId : PoolId) : List RideStop :=
  (db.rideStops.filter fun s ↦ s.rideId = rideId).insertionSort fun a b ↦
    a.sequenceIndex ≤ b.sequenceIndex

/-- Stamp one unconfirmed stop; nothing when it is confirmed already or unknown. -/
def confirm (t : TxClock) (db : Db) (rideId : PoolId) (sequenceIndex : Nat) :
    Db × Option RideStop :=
  match (db.rideStops.get (rideId, sequenceIndex)).filter fun s ↦ s.confirmedAt = none with
  | none => (db, none)
  | some s =>
      ({ db with
        rideStops := db.rideStops.update (fun s ↦ s.pkey = (rideId, sequenceIndex))
          fun s ↦ { s with confirmedAt := some t.now } },
        some { s with confirmedAt := some t.now })

/-- A stamp writes the stops. -/
theorem confirm_eq {t : TxClock} {db db' : Db} {poolId : PoolId} {sequenceIndex : Nat}
    {s : Option RideStop}
    (h : confirm t db poolId sequenceIndex = (db', s)) : ∃ rideStops, db' = { db with rideStops } := by
  unfold confirm at h
  split at h
  · obtain ⟨rfl, -⟩ := Prod.mk.inj h
    exact ⟨db.rideStops, rfl⟩
  · obtain ⟨rfl, -⟩ := Prod.mk.inj h
    exact ⟨_, rfl⟩

/-- First pickup of a claimed pool. -/
def markRideStarted (t : TxClock) (db : Db) (rideId : PoolId) : Db :=
  if db.sharedRides.Any fun s ↦ s.rideId = rideId ∧ s.poolState.Claimable then
    db.updatePool t.now rideId SharedRide.start SharedRide.start_rideId
  else db

theorem markRideStarted_cases (t : TxClock) (db : Db) (rideId : PoolId) :
    markRideStarted t db rideId = db ∨
      (∃ s ∈ db.sharedRides, s.rideId = rideId ∧ s.poolState.Claimable) ∧
        markRideStarted t db rideId =
          db.updatePool t.now rideId SharedRide.start SharedRide.start_rideId := by
  unfold markRideStarted
  split_ifs with h
  · exact Or.inr ⟨h, rfl⟩
  · exact Or.inl rfl

/-- Final stop; only from a closed pool. -/
def markRideCompleted (t : TxClock) (db : Db) (rideId : PoolId) : Db × Option Time :=
  if db.sharedRides.Any fun s ↦ s.rideId = rideId ∧ s.poolState.Closed then
    (db.updatePool t.now rideId (SharedRide.complete t.now) (SharedRide.complete_rideId t.now),
      some t.now)
  else (db, none)

end Matching

end Rcab
