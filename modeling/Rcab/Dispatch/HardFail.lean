import Rcab.Realtime.Protocol
import Rcab.Rides.Repository
import Rcab.Scheduled.Retry

/-!
# Hard-fail

`DispatchService.handleHardFail`: the last wave of a trip timed out.  A normal ride becomes
`no_driver`, a scheduled one opens its next window, a pool is aborted.

The type of a ride never changes, so it is read here with the transaction that follows.  What a
pool's members are told is read from the pool after the commit, and is not part of this.
-/

namespace Rcab.Dispatch

open Realtime (RideStateChanged rideStatusVersion)

/-- Abort an unclaimed pool and revoke its live offers; a job without a generation
means the current one. -/
def hardFailPool (t : TxClock) (db : Db) (poolId : PoolId) (generation : Option Nat) :
    Db × Option (List RevokedOffer) :=
  match lockSharedTrip db poolId with
  | none => (db, none)
  | some pool =>
  let g := generation.getD pool.dispatchGeneration
  if g ≠ pool.dispatchGeneration ∨ g < 1 then (db, none)
  else match abortUnclaimedPool t db poolId g with
  | (db, false) => (db, none)
  | (db, true) =>
      let (db, revoked) := revokeLiveForTrip t db (.shared poolId)
      (db, some revoked)

/-- A pool is left alone, or it was unclaimed at this generation and is aborted. -/
theorem hardFailPool_cases (t : TxClock) (db : Db) (poolId : PoolId) (generation : Option Nat) :
    hardFailPool t db poolId generation = (db, none) ∨
      ∃ s, db.sharedRides.get poolId = some s ∧
        Unclaimed poolId (generation.getD s.dispatchGeneration) s ∧
        hardFailPool t db poolId generation =
          ((revokeLiveForTrip t (db.updatePool t.now poolId SharedRide.abort
              SharedRide.abort_rideId) (.shared poolId)).1,
            some (revokeLiveForTrip t (db.updatePool t.now poolId SharedRide.abort
              SharedRide.abort_rideId) (.shared poolId)).2) := by
  unfold hardFailPool
  cases hpool : lockSharedTrip db poolId with
  | none => exact Or.inl rfl
  | some pool =>
    have hget : db.sharedRides.get poolId = some pool := hpool
    by_cases hg : generation.getD pool.dispatchGeneration ≠ pool.dispatchGeneration ∨
        generation.getD pool.dispatchGeneration < 1
    · exact Or.inl (by simp only [hg, if_true])
    by_cases hany : db.sharedRides.Any (Unclaimed poolId (generation.getD pool.dispatchGeneration))
    · obtain ⟨s, hs, hun⟩ := hany
      obtain rfl : s = pool :=
        Table.unique hs (Table.mem_of_get hget) (hun.1.trans (Table.key_of_get hget).symm)
      have hany : db.sharedRides.Any (Unclaimed poolId (generation.getD s.dispatchGeneration)) :=
        ⟨s, hs, hun⟩
      refine Or.inr ⟨s, hget, hun, ?_⟩
      simp only [hg, if_false, abortUnclaimedPool, hany, if_true]
    · exact Or.inl (by simp only [hg, if_false, abortUnclaimedPool, hany])

/-- What people are told once a transaction has committed. -/
inductive Notice where
  /-- `ride_offer_revoked`, with the offer's outcome. -/
  | rideOfferRevoked (driverId : DriverId) (offerId : OfferId) (trip : TripRef)
  | rideNoDriver (passengerId : PassengerId) (rideId : RideId)
  | rideStateChanged (event : RideStateChanged)
  | rideDispatchRetry (passengerId : PassengerId) (rideId : RideId) (retryCount : Nat)
deriving DecidableEq, Repr

def notifyRevoked (trip : TripRef) (revoked : List RevokedOffer) : List Notice :=
  revoked.map fun r ↦ .rideOfferRevoked r.driverId r.offerId trip

/-- The passenger hears of the first re-arm only. -/
def retryScheduledRide (t : TxClock) (db : Db) (rideId : RideId) (generation : Option Nat) :
    Db × List Notice :=
  match Scheduled.rearmScheduledRide t db rideId generation with
  | (db, none) => (db, [])
  | (db, some retried) =>
      (db, notifyRevoked (.solo rideId) retried.revokedOffers ++
        if retried.firstRetry then
          [.rideDispatchRetry retried.passengerId rideId retried.retryCount]
        else [])

/-- The window of a ride that is not scheduled closed. -/
def failSolo (t : TxClock) (db : Db) (rideId : RideId) (generation : Option Nat) :
    Db × List Notice :=
  match Rides.markNoDriver t db rideId generation with
  | (db, none) => (db, [])
  | (db, some revoked) =>
      (db, notifyRevoked (.solo rideId) revoked ++
        (db.rides.get rideId).toList.map (fun row ↦ .rideNoDriver row.passengerId rideId) ++
        [.rideStateChanged
          ⟨rideId, "no_driver", "system", some (rideStatusVersion "no_driver")⟩])

def handleHardFail (t : TxClock) (db : Db) (trip : TripRef) (generation : Option Nat) :
    Db × List Notice :=
  match trip with
  | .solo rideId =>
      if db.rides.Any fun r ↦ r.id = rideId ∧ r.type = .scheduled then
        retryScheduledRide t db rideId generation
      else failSolo t db rideId generation
  | .shared poolId =>
      match hardFailPool t db poolId generation with
      | (db, none) => (db, [])
      | (db, some revoked) => (db, notifyRevoked trip revoked)

end Rcab.Dispatch
