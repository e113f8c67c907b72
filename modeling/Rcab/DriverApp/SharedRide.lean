import Rcab.Realtime.DriverViews

/-!
# The driver app's shared trip

`shared_ride_models.dart` and `shared_ride_provider.dart`: the state machine on the driver, with
what the realtime layer parses for it.

    none → offered → accepting → assigned

or `offered | accepting → lost | expired | revoked | rejected`.
-/

namespace Rcab.DriverApp

open Realtime (DriverAssignmentView DriverStopView RideOfferOutcomePayload)
open Dispatch (AcceptOfferResult AcceptOfferFailure SharedRideOfferPayload)
open RideLifecycle (StopEcho)

/-! ## What comes in -/

structure SharedRideStop where
  sequenceIndex : ℕ
  passengerId : PassengerId
  type : StopType
  point : Point
deriving DecidableEq, Repr

structure SharedRideOffer where
  sharedRideId : PoolId
  stops : List SharedRideStop
  passengerCount : ℕ
  offerId : Option OfferId
  ttlMs : Int
deriving DecidableEq, Repr

/-- `tryFromRideOfferJson`; nothing for an offer without stops. -/
def SharedRideOffer.fromPayload (p : SharedRideOfferPayload) : Option SharedRideOffer :=
  if p.stops = [] then none
  else some
    { sharedRideId := p.sharedRideId
      stops := p.stops.map fun s ↦ ⟨s.sequenceIndex, s.passengerId, s.type, s.point⟩
      passengerCount := p.passengerCount
      offerId := some p.offerId
      ttlMs := p.ttlMs }

/-- `DriverAssignment`, less what only the solo trip uses. -/
structure DriverAssignment where
  tripKind : TripKind
  tripId : Uuid
  offerId : Option OfferId
  generation : ℕ
  version : ℕ
  stops : List DriverStopView
deriving DecidableEq, Repr

namespace DriverAssignment

def isShared (a : DriverAssignment) : Prop := a.tripKind = .shared

instance {a : DriverAssignment} : Decidable a.isShared :=
  inferInstanceAs (Decidable (_ = TripKind.shared))

/-- `fromJson` of the server's view. -/
def fromView (view : DriverAssignmentView) : DriverAssignment :=
  match view.trip with
  | .solo _ _ _ _ => ⟨.solo, view.tripId, view.offerId, view.generation, view.version, []⟩
  | .shared _ _ stops =>
      ⟨.shared, view.tripId, view.offerId, view.generation, view.version, stops⟩

end DriverAssignment

inductive OfferOutcomeKind where
  | assigned | lost | expired | revoked | rejected
  /-- The server could not decide; the offer is still live. -/
  | retry
  | declined
  /-- The server could not answer: not a verdict. -/
  | unknown
deriving DecidableEq, Repr

structure OfferOutcome where
  offerId : OfferId
  kind : OfferOutcomeKind
  tripKind : Option TripKind
  tripId : Option Uuid
  generation : Option ℕ
  reason : Option String
  assignment : Option DriverAssignment
deriving DecidableEq, Repr

def outcomeForAcceptFailure (reason : String) : OfferOutcomeKind :=
  if reason = "trip_taken" then .lost
  else if reason = "offer_expired" ∨ reason = "offer_stale" then .expired
  else if reason = "offer_revoked" ∨ reason = "trip_not_claimable" then .revoked
  else if reason = "conflict" then .retry
  else if reason = "unavailable" then .unknown
  else .rejected

namespace OfferOutcome

/-- `OfferOutcomeKind.parse`, by name. -/
def kindOf : Realtime.OfferOutcome → OfferOutcomeKind
  | .assigned => .assigned
  | .lost => .lost
  | .expired => .expired
  | .revoked => .revoked
  | .rejected => .rejected

/-- `fromJson` of a `ride_offer_outcome`. -/
def fromPayload (p : RideOfferOutcomePayload) : OfferOutcome where
  offerId := p.offerId
  kind := kindOf p.outcome
  tripKind := p.tripKind
  tripId := p.tripId
  generation := p.generation
  reason := p.reason
  assignment := p.assignment.map .fromView

/-- `jsonFromAck` of an accept the server decided. -/
def fromAck (offerId : OfferId) : AcceptOfferResult → OfferOutcome
  | .ok trip generation _ =>
      ⟨offerId, .assigned, some trip.kind, some trip.id, some generation, none, none⟩
  | .failed reason =>
      ⟨offerId, outcomeForAcceptFailure reason.text, none, none, none, some reason.text, none⟩

end OfferOutcome

/-! ## The state -/

inductive StopStatus where
  | pending | confirmed
deriving DecidableEq, Repr

structure StopState where
  stop : SharedRideStop
  status : StopStatus
  confirmedAt : Option Time := none
deriving DecidableEq, Repr

inductive SharedRidePhase where
  | none
  | offered
  | accepting
  /-- Committed assignment: the stop screen is live. -/
  | assigned
  | lost | expired | revoked | rejected
deriving DecidableEq, Repr

structure SharedRideState where
  sharedRideId : Option Uuid := none
  stops : List StopState := []
  currentStopIndex : ℕ := 0
  completed : Bool := false
  phase : SharedRidePhase := .none
  offerId : Option OfferId := none
  passengerCount : ℕ := 0
  secondsLeft : Int := 0
  generation : Option ℕ := none
  outcomeReason : Option String := none
deriving DecidableEq, Repr

namespace SharedRideState

def empty : SharedRideState := {}

def isOffer (s : SharedRideState) : Prop := s.phase = .offered ∨ s.phase = .accepting

instance {s : SharedRideState} : Decidable s.isOffer := inferInstanceAs (Decidable (_ ∨ _))

def isAssigned (s : SharedRideState) : Prop := s.phase = .assigned

instance {s : SharedRideState} : Decidable s.isAssigned := inferInstanceAs (Decidable (_ = _))

def isTerminalOutcome (s : SharedRideState) : Prop :=
  s.phase = .lost ∨ s.phase = .revoked ∨ s.phase = .expired ∨ s.phase = .rejected

instance {s : SharedRideState} : Decidable s.isTerminalOutcome :=
  inferInstanceAs (Decidable (_ ∨ _))

end SharedRideState

/-- What a `driver:assignment` snapshot did. -/
inductive AssignmentChange where
  | none | restored | refreshed | released
deriving DecidableEq, Repr

structure SharedRideNotifier where
  state : SharedRideState
  /-- The trip of `appliedVersion`. -/
  versionTripId : Option Uuid
  /-- Highest version applied for `versionTripId`; it survives a reset. -/
  appliedVersion : ℕ
  /-- The last trip seen complete. -/
  completedTripId : Option Uuid
  /-- Whether there is an offer sender to answer offers with. -/
  offerSender : Bool
deriving DecidableEq, Repr

namespace SharedRideNotifier

/-- A notifier just built. -/
def create (offerSender : Bool) : SharedRideNotifier := ⟨.empty, none, 0, none, offerSender⟩

variable (n : SharedRideNotifier)

def setState (state : SharedRideState) : SharedRideNotifier := { n with state }

/-! ## The versions applied -/

def noteVersion (tripId : Uuid) : Option ℕ → SharedRideNotifier
  | none => n
  | some version =>
      if n.versionTripId ≠ some tripId then
        { n with versionTripId := some tripId, appliedVersion := version }
      else if n.appliedVersion < version then { n with appliedVersion := version }
      else n

/-- The version is older than what was already applied for the trip. -/
def isOlder (tripId : Uuid) : Option ℕ → Prop
  | none => False
  | some version => n.versionTripId = some tripId ∧ version < n.appliedVersion

instance {n : SharedRideNotifier} {tripId : Uuid} {version : Option ℕ} :
    Decidable (n.isOlder tripId version) :=
  match version with
  | none => inferInstanceAs (Decidable False)
  | some _ => inferInstanceAs (Decidable (_ ∧ _))

/-- A snapshot of this version would rewind a trip already completed here. -/
def revertsCompleted (tripId : Uuid) (version : ℕ) : Prop :=
  n.completedTripId = some tripId ∧ n.versionTripId = some tripId ∧ version ≤ n.appliedVersion

instance {n : SharedRideNotifier} {tripId : Uuid} {version : ℕ} :
    Decidable (n.revertsCompleted tripId version) :=
  inferInstanceAs (Decidable (_ ∧ _ ∧ _))

/-! ## Offers -/

/-- `sort` by the sequence index. -/
def sortStops (stops : List StopState) : List StopState :=
  stops.insertionSort fun x y ↦ x.stop.sequenceIndex ≤ y.stop.sequenceIndex

/-- Show the proposed itinerary; ignored while a committed trip is in progress. -/
def applyOffer (offer : SharedRideOffer) : SharedRideNotifier :=
  if n.state.isAssigned ∧ n.state.completed = false then n
  else n.setState
    { sharedRideId := some offer.sharedRideId
      stops := sortStops (offer.stops.map fun s ↦ { stop := s, status := .pending })
      phase := .offered
      offerId := offer.offerId
      passengerCount := offer.passengerCount
      -- Rounded up.
      secondsLeft := -((-offer.ttlMs) / 1000) }

/-- One countdown step while ringing. -/
def tick : SharedRideNotifier :=
  if n.state.phase ≠ .offered then n
  else
    let next := n.state.secondsLeft - 1
    if next ≤ 0 then n.setState { n.state with phase := .expired, secondsLeft := 0 }
    else n.setState { n.state with secondsLeft := next }

/-- The driver tapped Accept. -/
def accept : SharedRideNotifier × Bool :=
  if n.state.phase ≠ .offered ∨ n.state.offerId = none then (n, false)
  else if n.offerSender = false then (n, false)
  else (n.setState { n.state with phase := .accepting }, true)

/-- The driver tapped Decline. -/
def decline : SharedRideNotifier :=
  if n.state.isOffer ∨ n.state.isTerminalOutcome then n.setState .empty else n

/-- The accept's ack never arrived. -/
def ackTimedOut : SharedRideNotifier :=
  if n.state.phase ≠ .accepting then n
  else n.setState { n.state with phase := if 0 < n.state.secondsLeft then .offered else .expired }

/-- The server holds no assignment: an undecided accept did not commit. -/
def resolveUndecidedAccept : SharedRideNotifier × Bool :=
  if n.state.phase ≠ .accepting then (n, false) else (n.setState .empty, true)

def reset : SharedRideNotifier := n.setState .empty

/-! ## Assignments -/

/-- A stop of the server's itinerary. -/
def restoredStop (j : DriverStopView) : StopState where
  stop := ⟨j.sequenceIndex, j.passengerId, j.type, j.point⟩
  status := if j.confirmed then .confirmed else .pending
  confirmedAt := j.confirmedAt

def hydrate (a : DriverAssignment) : SharedRideNotifier :=
  let restored := sortStops (a.stops.map restoredStop)
  let firstPending := restored.findIdx? fun s ↦ s.status = .pending
  let completed : Bool := restored ≠ [] ∧ firstPending = none
  let n := n.noteVersion a.tripId (some a.version)
  let n := if completed then { n with completedTripId := some a.tripId } else n
  n.setState
    { sharedRideId := some a.tripId
      stops := restored
      currentStopIndex := firstPending.getD restored.length
      completed
      phase := .assigned
      offerId := a.offerId
      passengerCount := (restored.map fun s ↦ s.stop.passengerId).dedup.length
      generation := some a.generation }

/-- The `driver:assignment` snapshot; one that is older than what was applied is ignored. -/
def applyAssignment : Option DriverAssignment → SharedRideNotifier × AssignmentChange
  | none =>
      -- Released while the app was away.
      if n.state.isAssigned ∧ n.state.completed = false then (n.setState .empty, .released)
      else (n, .none)
  | some a =>
      if ¬ a.isShared then (n, .none)
      else if n.isOlder a.tripId (some a.version) ∨ n.revertsCompleted a.tripId a.version then
        (n, .none)
      else
        let wasSame : Bool := n.state.isAssigned ∧ n.state.sharedRideId = some a.tripId
        (n.hydrate a, if wasSame then .refreshed else .restored)

/-! ## Outcomes -/

def lossPhase : OfferOutcomeKind → SharedRidePhase
  | .lost => .lost
  | .expired => .expired
  | .revoked => .revoked
  | _ => .rejected

/-- The outcome is about the offer shown. -/
def OwnOffer (outcome : OfferOutcome) : Prop := n.state.offerId = some outcome.offerId

instance {n : SharedRideNotifier} {outcome : OfferOutcome} : Decidable (n.OwnOffer outcome) :=
  inferInstanceAs (Decidable (_ = _))

/-- An assigned outcome is about the trip shown. -/
def Matches (outcome : OfferOutcome) : Prop :=
  n.OwnOffer outcome ∨
    outcome.tripId ≠ none ∧ outcome.tripId = n.state.sharedRideId ∧ n.state.isOffer

instance {n : SharedRideNotifier} {outcome : OfferOutcome} : Decidable (n.Matches outcome) :=
  inferInstanceAs (Decidable (_ ∨ _))

/-- The branch of `applyOutcome` for an assigned outcome. -/
def applyAssigned (outcome : OfferOutcome) : SharedRideNotifier × Bool :=
  if outcome.tripKind = some .solo then (n, false)
  else if ¬ n.Matches outcome then
    -- Lost-ack recovery: the assignment is still authoritative.
    match outcome.assignment with
    | none => (n, false)
    | some a =>
        if a.isShared ∧ a.offerId = some outcome.offerId then
          let (n, change) := n.applyAssignment (some a)
          (n, change = .restored)
        else (n, false)
  else
    match outcome.assignment.filter fun a ↦ a.isShared ∧ some a.tripId = n.state.sharedRideId with
    | some a => (n.hydrate a, true)
    | none =>
        if n.state.isAssigned then (n, false)
        else (n.setState
          { n.state with
            phase := .assigned
            generation := outcome.generation.or n.state.generation
            secondsLeft := 0 }, true)

/-- An explicit outcome for this driver's offer; whether the phase changed. -/
def applyOutcome (outcome : OfferOutcome) : SharedRideNotifier × Bool :=
  if outcome.kind = .assigned then n.applyAssigned outcome
  else if ¬ n.OwnOffer outcome then (n, false)
  else
    match outcome.kind with
    | .retry =>
        if n.state.phase ≠ .accepting then (n, false)
        else (n.setState { n.state with phase := .offered }, true)
    | .declined | .unknown => (n, false)
    | kind =>
        if ¬ n.state.isOffer then (n, false)
        else (n.setState
          { n.state with
            phase := lossPhase kind
            outcomeReason := outcome.reason.or n.state.outcomeReason
            secondsLeft := 0 }, true)

/-! ## Echoes -/

/-- The state once the stop at position `idx` is confirmed. -/
def confirmAt (echo : StopEcho) (idx : ℕ) : SharedRideNotifier :=
  let updated := n.state.stops.modify idx fun s ↦
    { s with status := .confirmed, confirmedAt := some echo.confirmedAt }
  let nextPending := updated.findIdx? fun s ↦ s.status = .pending
  let completed : Bool := echo.rideCompleted ∨ nextPending = none
  let n := if completed then { n with completedTripId := some echo.rideId } else n
  n.setState
    { n.state with
      stops := updated
      currentStopIndex := nextPending.getD updated.length
      completed }

/-- The server's echo of a confirmed stop; it applies to an assigned trip only. -/
def applyServerEcho (echo : StopEcho) : SharedRideNotifier :=
  if n.state.sharedRideId ≠ some echo.rideId ∨ ¬ n.state.isAssigned then n
  -- Taken for stale: its effect would be included already.
  else if n.isOlder echo.rideId echo.version then n
  else
    let n := n.noteVersion echo.rideId echo.version
    match n.state.stops.findIdx? fun s ↦ s.stop.sequenceIndex = echo.sequenceIndex with
    | none => n
    | some idx =>
        if (n.state.stops[idx]?).any fun s ↦ s.status = .confirmed then n
        else n.confirmAt echo idx

end SharedRideNotifier

/-! ## Inputs -/

/-- What the notifier is called with, by the controller or by the driver. -/
inductive Input where
  | applyOffer (offer : SharedRideOffer)
  | accept | decline | tick | ackTimedOut | resolveUndecidedAccept
  | applyOutcome (outcome : OfferOutcome)
  | applyAssignment (a : Option DriverAssignment)
  | applyServerEcho (echo : StopEcho)
  | reset
deriving DecidableEq, Repr

/-- The notifier after a call. -/
def SharedRideNotifier.apply (n : SharedRideNotifier) : Input → SharedRideNotifier
  | .applyOffer offer => n.applyOffer offer
  | .accept => n.accept.1
  | .decline => n.decline
  | .tick => n.tick
  | .ackTimedOut => n.ackTimedOut
  | .resolveUndecidedAccept => n.resolveUndecidedAccept.1
  | .applyOutcome outcome => (n.applyOutcome outcome).1
  | .applyAssignment a => (n.applyAssignment a).1
  | .applyServerEcho echo => n.applyServerEcho echo
  | .reset => n.reset

end Rcab.DriverApp
