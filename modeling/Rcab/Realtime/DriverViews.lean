import Rcab.Matching.RideStop
import Rcab.Outbox.Jobs
import Rcab.Realtime.Protocol
import Rcab.RideLifecycle.ConfirmStop

/-!
# What a driver is told

The payloads of `realtime.protocol.ts` that go to one driver, and how the server builds them: the
`driver:assignment` snapshot from committed rows, the outcome of an accept, the echo of a stop and
the shared offer.
-/

namespace Rcab

inductive TripKind where
  | solo | shared
deriving DecidableEq, Repr

def TripRef.kind : TripRef → TripKind
  | .solo _ => .solo
  | .shared _ => .shared

namespace Realtime

open Dispatch (OfferStop AcceptOfferFailure)
open Matching (findByRideId)

/-! ## `driver:assignment` -/

structure DriverStopView where
  sequenceIndex : ℕ
  type : StopType
  passengerId : PassengerId
  point : Point
  confirmed : Bool
  confirmedAt : Option Time
deriving DecidableEq, Repr

/-- What only one kind of trip has. -/
inductive DriverTripView where
  | solo (status : String) (pickup dropoff : Point) (fareCents : Int)
  | shared (poolStatus : PoolState) (seatCount : ℕ) (stops : List DriverStopView)
deriving DecidableEq, Repr

structure DriverAssignmentView where
  tripId : Uuid
  offerId : Option OfferId
  generation : ℕ
  assignedAt : Time
  version : ℕ
  trip : DriverTripView
deriving DecidableEq, Repr

def driverStopView (s : RideStop) : DriverStopView where
  sequenceIndex := s.sequenceIndex
  type := s.type
  passengerId := s.passengerId
  point := s.point
  confirmed := s.confirmedAt.isSome
  confirmedAt := s.confirmedAt

/-- The driver's committed assignment, or none. -/
def driverAssignment (db : Db) (driverId : DriverId) : Option DriverAssignmentView :=
  match db.driverActiveAssignment.get driverId with
  | none => none
  | some a =>
  match a.trip with
  | .solo rideId =>
      (db.rides.get rideId).map fun r ↦
        { tripId := r.id
          offerId := a.offerId
          generation := a.dispatchGeneration
          assignedAt := a.assignedAt
          version := rideStatusVersion r.status.text
          trip := .solo r.status.text r.origin r.dest r.fareCents }
  | .shared poolId =>
      (db.sharedRides.get poolId).map fun p ↦
        { tripId := poolId
          offerId := a.offerId
          generation := a.dispatchGeneration
          assignedAt := a.assignedAt
          version := p.stateVersion
          trip := .shared p.poolState p.seatCount ((findByRideId db poolId).map driverStopView) }

/-! ## `ride_offer_outcome` -/

/-- The explicit result of an offer for the driver who held it. -/
inductive OfferOutcome where
  | assigned | lost | expired | revoked | rejected
deriving DecidableEq, Repr

structure RideOfferOutcomePayload where
  offerId : OfferId
  outcome : OfferOutcome
  tripKind : Option TripKind := none
  tripId : Option Uuid := none
  generation : Option ℕ := none
  reason : Option String := none
  assignment : Option DriverAssignmentView := none
deriving DecidableEq, Repr

/-- The outcome for an accept refusal reason. -/
def outcomeForAcceptFailure (reason : String) : OfferOutcome :=
  if reason = "trip_taken" then .lost
  else if reason = "offer_expired" ∨ reason = "offer_stale" then .expired
  else if reason = "offer_revoked" ∨ reason = "trip_not_claimable" then .revoked
  else .rejected

end Realtime

namespace Dispatch

open Realtime
open Matching (findByRideId)

/-- The values of `AcceptOfferFailure`. -/
def AcceptOfferFailure.text : AcceptOfferFailure → String
  | .offerNotFound => "offer_not_found"
  | .offerExpired => "offer_expired"
  | .offerDeclined => "offer_declined"
  | .offerRevoked => "offer_revoked"
  | .offerStale => "offer_stale"
  | .tripTaken => "trip_taken"
  | .tripNotClaimable => "trip_not_claimable"
  | .itineraryMissing => "itinerary_missing"
  | .driverBusy => "driver_busy"
  | .driverIneligible => "driver_ineligible"
  | .vehicleCapacity => "vehicle_capacity"
  | .conflict => "conflict"

/-- The committed assignment for the outcome payload, read after the commit. -/
def assignmentView (db : Db) (driverId : DriverId) (tripRef : Uuid) :
    Option DriverAssignmentView :=
  (driverAssignment db driverId).filter fun a ↦ a.tripId = tripRef

/-- What `afterAccepted` tells the winner, from the rows it reads then. -/
def assignedOutcome (db : Db) (driverId : DriverId) (offerId : OfferId) (trip : TripRef)
    (generation : ℕ) : RideOfferOutcomePayload where
  offerId
  outcome := .assigned
  tripKind := trip.kind
  tripId := trip.id
  generation
  assignment := assignmentView db driverId trip.id

/-- `notifyAcceptRejected`: the trip is named to the caller of an own offer only. -/
def rejectedOutcome (offerId : OfferId) (trip : Option TripRef) (reason : AcceptOfferFailure) :
    RideOfferOutcomePayload where
  offerId
  outcome := outcomeForAcceptFailure reason.text
  tripKind := trip.map TripRef.kind
  tripId := trip.map TripRef.id
  reason := reason.text

/-- `notifyRevoked`: what those whose offers were revoked are told. -/
def revokedOutcome (offerId : OfferId) (trip : TripRef) (taken : Bool) :
    RideOfferOutcomePayload where
  offerId
  outcome := if taken then .lost else .revoked
  tripKind := trip.kind
  tripId := trip.id
  reason := if taken then "taken" else "revoked"

/-- `ride_offer` for a pool. -/
structure SharedRideOfferPayload where
  offerId : OfferId
  sharedRideId : PoolId
  ttlMs : Int
  expiresAt : Time
  stops : List OfferStop
  passengerCount : ℕ
  waveNumber : ℕ
deriving DecidableEq, Repr

/-- The persisted itinerary, as `runPoolWave` offers it. -/
def offerStops (db : Db) (poolId : PoolId) : List OfferStop :=
  (findByRideId db poolId).map fun s ↦ ⟨s.type, s.point, s.passengerId, s.sequenceIndex⟩

/-- What `runPoolWave` sends for an offer it created; nothing without a complete itinerary. -/
def sharedRideOffer (db : Db) (pool : SharedRide) (offer : CreatedOffer) (ttlMs : Int)
    (waveNumber : ℕ) : Option SharedRideOfferPayload :=
  let stops := offerStops db pool.rideId
  if pool.seatCount < 1 ∨ stops.length ≠ 2 * pool.seatCount then none
  else some
    { offerId := offer.offerId
      sharedRideId := pool.rideId
      ttlMs
      expiresAt := offer.expiresAt
      stops
      passengerCount := pool.seatCount
      waveNumber }

end Dispatch

/-! ## `stop:pickup_confirmed`, `stop:drop_confirmed` -/

namespace RideLifecycle

structure StopEcho where
  rideId : PoolId
  sequenceIndex : ℕ
  passengerId : PassengerId
  type : StopType
  confirmedAt : Time
  rideCompleted : Bool
  version : Option ℕ
deriving DecidableEq, Repr

/-- The driver's echo of a confirmation that did not fail; `dateNow` stands in for a missing
stamp. -/
def StopConfirmResult.echo (dateNow : Time) (input : StopConfirmInput) :
    StopConfirmResult → Option StopEcho
  | .ok confirmed => some
      { rideId := input.rideId
        sequenceIndex := input.sequenceIndex
        passengerId := confirmed.stop.passengerId
        type := confirmed.stop.type
        confirmedAt := confirmed.stop.confirmedAt.getD dateNow
        rideCompleted := confirmed.rideCompleted
        version := some confirmed.version }
  | .failed _ => none

end RideLifecycle

end Rcab
