import Rcab.Dispatch.Offer
import Rcab.Outbox.Writer

/-!
# Scheduled rides: wake and re-arm

`wakeScheduled` of `dispatch-start.service.ts` (its guarded update; what it starts
afterwards creates offers, which are steps of their own) and `scheduled-retry.ts`.
-/

namespace Rcab.Scheduled

open Dispatch (revokeLiveForTrip RevokedOffer)
open Outbox (enqueueOutbox)

/-- The rides a wake matches: `dispatch_generation IN (generation - 1, generation)`. -/
def Wakeable (rideId : RideId) (generation : Nat) (r : Ride) : Prop :=
  r.id = rideId ∧ r.type = .scheduled ∧ r.status = .requested ∧
    (r.dispatchGeneration + 1 = generation ∨ r.dispatchGeneration = generation)

instance {rideId : RideId} {generation : Nat} : DecidablePred (Wakeable rideId generation) :=
  fun r ↦ inferInstanceAs (Decidable (r.id = rideId ∧ r.type = .scheduled ∧ r.status = .requested ∧
    (r.dispatchGeneration + 1 = generation ∨ r.dispatchGeneration = generation)))

/-- True when the ride was woken, false when it was stale. -/
def wakeScheduled (db : Db) (rideId : RideId) (generation : Nat) : Db × Bool :=
  ({ db with
    rides := db.rides.update (Wakeable rideId generation) fun r ↦
      { r with dispatchGeneration := generation } },
    (db.rides.Any (Wakeable rideId generation) : Bool))

structure ScheduledRetryResult where
  rideId : RideId
  passengerId : PassengerId
  previousGeneration : Nat
  generation : Nat
  retryCount : Nat
  firstRetry : Bool
  revokedOffers : List RevokedOffer
deriving DecidableEq, Repr

/-- Close the current window and open the next; a job without a generation means the
current one. -/
def rearmScheduledRide (t : TxClock) (db : Db) (rideId : RideId) (expectedGeneration : Option Nat) :
    Db × Option ScheduledRetryResult :=
  match db.rides.get rideId with
  | none => (db, none)
  | some ride =>
  if ride.type ≠ .scheduled ∨ ride.status ≠ .requested ∨ ride.driverId.isSome then (db, none)
  -- Not woken yet.
  else if ride.dispatchGeneration < 1 then (db, none)
  else if expectedGeneration.any (· ≠ ride.dispatchGeneration) then (db, none)
  else
  let generation := ride.dispatchGeneration + 1
  let db := { db with
    rides := db.rides.update
      (fun r ↦ r.id = rideId ∧ r.dispatchGeneration = ride.dispatchGeneration)
      fun r ↦ { r with dispatchGeneration := generation } }
  let (db, revokedOffers) := revokeLiveForTrip t db (.solo rideId)
  let db := enqueueOutbox t db ⟨.ride, rideId, generation, .rideDispatchRequested rideId, none⟩
  (db, some
    { rideId
      passengerId := ride.passengerId
      previousGeneration := ride.dispatchGeneration
      generation
      retryCount := generation - 1
      firstRetry := generation = 2
      revokedOffers })

end Rcab.Scheduled
