import Rcab.Db.Schema

/-!
# The vocabulary of dispatch

`dispatch.types.ts`: what an accept and a decline answer.
-/

namespace Rcab.Dispatch

/-- A stop of a pool's itinerary. -/
structure OfferStop where
  type : StopType
  point : Point
  passengerId : PassengerId
  sequenceIndex : Nat
deriving DecidableEq, Repr

/-- A live offer some other statement revoked; its driver is told after commit. -/
structure RevokedOffer where
  offerId : OfferId
  driverId : DriverId
deriving DecidableEq, Repr

inductive AcceptOfferFailure where
  /-- Unknown id, or not this driver's offer. -/
  | offerNotFound
  | offerExpired | offerDeclined | offerRevoked
  /-- The offer's generation is not the trip's. -/
  | offerStale
  /-- Another driver holds the trip. -/
  | tripTaken
  | tripNotClaimable
  /-- The pool's stops were not persisted at closure. -/
  | itineraryMissing
  /-- The driver already holds another active trip. -/
  | driverBusy
  | driverIneligible
  | vehicleCapacity
  /-- The bounded deadlock retry was exhausted. -/
  | conflict
deriving DecidableEq, Repr

inductive AcceptOfferResult where
  | ok (trip : TripRef) (generation : Nat) (replay : Bool)
  | failed (reason : AcceptOfferFailure)
deriving DecidableEq, Repr

/-- What the accept transaction decided, plus what to tell people after commit. -/
structure AcceptOutcome where
  result : AcceptOfferResult
  revoked : List RevokedOffer
deriving DecidableEq, Repr

def rejected (reason : AcceptOfferFailure) : AcceptOutcome := ⟨.failed reason, []⟩

inductive DeclineOfferResult where
  | declined | notFound | notLive
deriving DecidableEq, Repr

end Rcab.Dispatch
