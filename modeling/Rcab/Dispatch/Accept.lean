import Rcab.Dispatch.Assignment

/-!
# The accept transaction

`DispatchService.acceptInTx`: trip row, offer row, deadline, generation, trip
state, eligibility, guard, and only then the three writes that bind the trip.  The
trip is the one the offer row names.
-/

namespace Rcab.Dispatch

/-- The trip row an accept locks, whichever table holds it. -/
inductive LockedTrip where
  | ride (r : Ride)
  | pool (s : SharedRide)

namespace LockedTrip

/-- `takenBy`. -/
def driverId : LockedTrip → Option DriverId
  | .ride r => r.driverId
  | .pool s => s.claimedByDriverId

def dispatchGeneration : LockedTrip → Nat
  | .ride r => r.dispatchGeneration
  | .pool s => s.dispatchGeneration

end LockedTrip

/-- Lock-order step 1, for either kind of trip. -/
def lockTrip (db : Db) : TripRef → Option LockedTrip
  | .solo rideId => (lockSoloTrip db rideId).map .ride
  | .shared poolId => (lockSharedTrip db poolId).map .pool

/-- `RideStopRepository.countAll`. -/
def countAll (db : Db) (poolId : PoolId) : Nat :=
  (db.rideStops.filter fun s ↦ s.rideId = poolId).length

/-- Step 5: the seats the trip needs, or why it cannot be claimed. -/
def seatsNeeded (db : Db) : LockedTrip → Except AcceptOfferFailure Nat
  | .ride r =>
      if r.driverId.isSome then .error .tripTaken
      else if r.status ≠ .requested then .error .tripNotClaimable
      else .ok 1
  | .pool s =>
      if s.claimedByDriverId.isSome then .error .tripTaken
      else if ¬ s.poolState.Claimable then .error .tripNotClaimable
      else if s.seatCount < 1 ∨ countAll db s.rideId ≠ 2 * s.seatCount then .error .itineraryMissing
      else .ok s.seatCount

/-- The answer for an offer that is neither live nor accepted. -/
def resolvedFailure (state : DispatchOfferState) (takenBy : Option DriverId) (driverId : DriverId) :
    AcceptOfferFailure :=
  match state with
  -- Revoked because another driver won: say so rather than a bare revoke.
  | .revoked => if takenBy.any (· ≠ driverId) then .tripTaken else .offerRevoked
  | .declined => .offerDeclined
  | _ => .offerExpired

/-- Step 8: bind the trip, resolve the offer, revoke the rest. -/
def bindTrip (t : TxClock) (db : Db) (offer : DispatchOffer) (driverId : DriverId)
    (trip : TripRef) : Tx AcceptOutcome :=
  (claimRow t db trip driverId offer.dispatchGeneration).andThen fun db _ ↦
  (markAccepted t db offer.id).andThen fun db _ ↦
  let (db, revoked) := revokeLiveForTrip t db trip (some offer.id)
  .ok (db, ⟨.ok trip offer.dispatchGeneration false, revoked⟩)

/-- Steps 4–8, for a live offer of the caller's. -/
def acceptLive (t : TxClock) (db : Db) (accounts : Accounts) (offer : DispatchOffer)
    (driverId : DriverId) (trip : TripRef) (locked : LockedTrip) : Tx AcceptOutcome :=
  -- 4. Deadline on the DB clock, after the locks.
  if Lapsed t.clockTimestamp offer then
    (resolveLive t db offer.id .expired).andThen fun db _ ↦ .ok (db, rejected .offerExpired)
  else if offer.dispatchGeneration ≠ locked.dispatchGeneration then
    (resolveLive t db offer.id .revoked).andThen fun db _ ↦ .ok (db, rejected .offerStale)
  else
  -- 5. Trip state.
  match seatsNeeded db locked with
  | .error reason => .ok (db, rejected reason)
  | .ok seats =>
  -- 6. Account + vehicle eligibility at the decision.
  match driverEligibility accounts driverId seats with
  | .driverIneligible => .ok (db, rejected .driverIneligible)
  | .vehicleCapacity => .ok (db, rejected .vehicleCapacity)
  | .ok =>
  -- 7. The exclusivity guard.
  (acquire t db ⟨driverId, trip, some offer.id, offer.dispatchGeneration⟩).andThen fun db guard ↦
  match guard with
  | .driverBusy => .ok (db, rejected .driverBusy)
  | .tripTaken => .ok (db, rejected .tripTaken)
  | .ok => bindTrip t db offer driverId trip

def acceptInTx (t : TxClock) (db : Db) (accounts : Accounts) (offerId : OfferId)
    (driverId : DriverId) (trip : TripRef) : Tx AcceptOutcome :=
  -- 1. Trip row lock.
  match lockTrip db trip with
  | none => .ok (db, rejected .tripNotClaimable)
  | some locked =>
  -- 2. Offer row lock.
  match lockForUpdate db offerId with
  | none => .ok (db, rejected .offerNotFound)
  | some offer =>
  if offer.driverId ≠ driverId then .ok (db, rejected .offerNotFound)
  -- 3. A committed acceptance replays before any first-use rule.
  else if offer.state = .accepted then
    match findByTrip db trip with
    | some guard =>
        if guard.driverId = driverId ∧ guard.dispatchGeneration = offer.dispatchGeneration then
          .ok (db, ⟨.ok trip offer.dispatchGeneration true, []⟩)
        else .ok (db, rejected .tripNotClaimable)
    -- Released since (completed / cancelled): never re-create it.
    | none => .ok (db, rejected .tripNotClaimable)
  else if ¬ Live offer then
    .ok (db, rejected (resolvedFailure offer.state locked.driverId driverId))
  else acceptLive t db accounts offer driverId trip locked

/-- `acceptOffer`: the trip is derived from the caller's own offer row. -/
def acceptOffer (t : TxClock) (db : Db) (accounts : Accounts) (offerId : OfferId)
    (driverId : DriverId) : Tx AcceptOutcome :=
  match findForDriver db offerId driverId with
  | none => .ok (db, rejected .offerNotFound)
  | some seen => acceptInTx t db accounts offerId driverId seen.trip

end Rcab.Dispatch
