import Rcab.Auth.Tokens
import Rcab.Rides.Rows

/-!
# The ride endpoints

`GET /v1/rides/:id`, `POST /v1/rides/:id/state` and `POST /v1/rides/:id/cancel`: who may do what is
decided from the claims of the access token, in part before the transaction and in part inside it.
-/

universe u

namespace Rcab.Rides

open Auth (AccessTokenClaims)

/-- The role as the actor of a cancellation. -/
def actorOf : Auth.Role → Actor
  | .client => .client
  | .driver => .driver

/-! ## Reading -/

/-- Who may read a ride: its passenger and its driver. -/
def Reads (user : AccessTokenClaims) (r : Ride) : Prop :=
  (user.role = .client ∧ r.passengerId = user.sub) ∨
    (user.role = .driver ∧ r.driverId = some user.sub)

instance {user : AccessTokenClaims} : DecidablePred (Reads user) := fun _ ↦
  inferInstanceAs (Decidable (_ ∨ _))

def getRide (db : Db) (user : AccessTokenClaims) (rideId : RideId) : Except HttpError Ride :=
  match db.rides.get rideId with
  | none => .error ⟨404, "ride_not_found", "ride not found"⟩
  | some ride =>
      if Reads user ride then .ok ride
      else .error ⟨403, "forbidden", "not your ride"⟩

/-! ## Cancelling -/

/-- `CancelRideDto`; the only `event` is `mark_no_show`. -/
structure CancelRideDto where
  reason : Option String := none
  markNoShow : Bool := false
deriving DecidableEq, Repr

/-- `RIDE_NO_SHOW_WAIT_MS`, unless configured. -/
def defaultNoShowWaitMs : Time := 300000

/-- A reason that is missing or empty is falsy. -/
def CancelRideDto.Unexplained (dto : CancelRideDto) : Prop := dto.reason.getD "" = ""

instance : DecidablePred CancelRideDto.Unexplained := fun _ ↦ inferInstanceAs (Decidable (_ = _))

/-- What the controller checks itself, and hands to the state machine. -/
def cancelParams (noShowWaitMs : Time) (user : AccessTokenClaims) (rideId : RideId)
    (dto : CancelRideDto) : Except HttpError CancelRide :=
  if dto.markNoShow ∧ user.role ≠ .driver then
    .error ⟨403, "forbidden", "only the driver can report a no-show"⟩
  else if user.role = .driver ∧ ¬ dto.markNoShow ∧ dto.Unexplained then
    .error ⟨400, "reason_required", "a driver cancellation requires a reason"⟩
  else .ok
    { rideId
      actor := actorOf user.role
      actorId := user.sub
      isNoShow := dto.markNoShow
      reason := if dto.markNoShow then some "no_show" else dto.reason
      noShowWaitMs }

structure CancelledRide where
  rideId : RideId
  status : RideStatus
  cancelledBy : Option Actor
deriving DecidableEq, Repr

/-- The refusals of the transaction. -/
def RideCancelResult.error : RideCancelResult → HttpError
  | .notFound => ⟨404, "ride_not_found", "ride not found"⟩
  | .notOwner => ⟨403, "forbidden", "not your ride"⟩
  | .noShowTooEarly => ⟨409, "no_show_too_early", "the no-show wait has not elapsed yet"⟩
  | _ => ⟨409, "invalid_transition", "the ride's current state cannot be cancelled"⟩

/-- `POST /v1/rides/:id/cancel`. -/
def cancelEndpoint (noShowWaitMs : Time) (t : TxClock) (db : Db) (dateNow : Time)
    (user : AccessTokenClaims) (rideId : RideId) (dto : CancelRideDto) :
    Db × Except HttpError CancelledRide :=
  match cancelParams noShowWaitMs user rideId dto with
  | .error e => (db, .error e)
  | .ok params =>
  match cancel t db dateNow params with
  | (db', .ok _) =>
      match db'.rides.get rideId with
      | some row => (db', .ok ⟨row.id, row.status, row.cancelledBy⟩)
      | none => (db', .error RideCancelResult.notFound.error)
  | (db', refusal) => (db', .error refusal.error)

/-! ## Advancing -/

/-- The refusals of a transition. -/
def RideTransitionResult.error (event : String) : RideTransitionResult → HttpError
  | .notFound => ⟨404, "ride_not_found", "ride not found"⟩
  | .notOwner => ⟨403, "forbidden", "only the assigned driver can advance this ride"⟩
  | _ => ⟨409, "invalid_transition", "cannot apply '" ++ event ++ "' from the ride's current state"⟩

/-- The names of `RIDE_FORWARD_EVENTS`. -/
def RideEvent.text : RideEvent → String
  | .startEnRoute => "start_en_route"
  | .markArrived => "mark_arrived"
  | .startRide => "start_ride"
  | .endRide => "end_ride"

/-- `POST /v1/rides/:id/state`. -/
def transitionEndpoint (db : Db) (dateNow : Time) (user : AccessTokenClaims) (rideId : RideId)
    (event : RideEvent) : Db × Except HttpError (RideId × RideStatus) :=
  if user.role ≠ .driver then (db, .error ⟨403, "forbidden", "Driver role required"⟩)
  else
  let spec := transitions event
  match transition db dateNow rideId user.sub spec.source spec.target with
  | (db', .ok) => (db', .ok (rideId, spec.target))
  | (db', refusal) => (db', .error (refusal.error event.text))

/-! ## The calls the controller makes -/

/-- A cancellation reaches the repository through the endpoint. -/
def controllerCalls (noShowWaitMs : Time) : RideCalls where
  creates _ := True
  cancels params := ∃ user rideId dto, cancelParams noShowWaitMs user rideId dto = .ok params

section Calls

variable {w : Time} {params : CancelRide}

/-- A cancellation as the controller hands it on. -/
theorem cancelParams_eq_ok {user : AccessTokenClaims} {rideId : RideId} {dto : CancelRideDto}
    (h : cancelParams w user rideId dto = .ok params) :
    params = ⟨rideId, actorOf user.role, user.sub, dto.markNoShow,
      if dto.markNoShow then some "no_show" else dto.reason, w⟩ ∧
      (dto.markNoShow → user.role = .driver) ∧
      (user.role = .driver → ¬ dto.markNoShow → ¬ dto.Unexplained) := by
  unfold cancelParams at h
  by_cases h₁ : dto.markNoShow ∧ user.role ≠ .driver
  · rw [if_pos h₁] at h
    cases h
  by_cases h₂ : user.role = .driver ∧ ¬ dto.markNoShow ∧ dto.Unexplained
  · rw [if_neg h₁, if_pos h₂] at h
    cases h
  rw [if_neg h₁, if_neg h₂] at h
  exact ⟨(Except.ok.inj h).symm, fun hn ↦ not_not.mp fun hd ↦ h₁ ⟨hn, hd⟩,
    fun hd hn hu ↦ h₂ ⟨hd, hn, hu⟩⟩

theorem controllerCalls_waits (h : (controllerCalls w).cancels params) :
    params.noShowWaitMs = w := by
  obtain ⟨user, rideId, dto, h⟩ := h
  rw [(cancelParams_eq_ok h).1]

/-- Only a driver reports a no-show, for that reason. -/
theorem controllerCalls_noShow (h : (controllerCalls w).cancels params) (hn : params.isNoShow) :
    params.actor = .driver ∧ params.reason = some "no_show" := by
  obtain ⟨user, rideId, dto, h⟩ := h
  obtain ⟨rfl, hdriver, -⟩ := cancelParams_eq_ok h
  dsimp only at hn ⊢
  rw [hdriver hn, if_pos hn]
  exact ⟨rfl, rfl⟩

/-- A driver gives a reason. -/
theorem controllerCalls_reason (h : (controllerCalls w).cancels params)
    (ha : params.actor = .driver) : ∃ reason, params.reason = some reason ∧ reason ≠ "" := by
  obtain ⟨user, rideId, dto, h⟩ := h
  obtain ⟨rfl, -, hreason⟩ := cancelParams_eq_ok h
  have hd : user.role = .driver := by
    cases hr : user.role with
    | driver => rfl
    | client => simp [actorOf, hr] at ha
  dsimp only
  split_ifs with hn
  · exact ⟨_, rfl, by decide⟩
  · have hex := hreason hd hn
    unfold CancelRideDto.Unexplained at hex
    cases hr : dto.reason with
    | none => simp [hr] at hex
    | some reason => exact ⟨reason, rfl, by simpa [hr] using hex⟩

end Calls

section Endpoints

variable {D : Type u} [LinearOrder D] (dist : Point → Point → D)

/-- What the cancel endpoint does to the database is one transaction of the trips, called as the
controller calls it. -/
theorem cancelEndpoint_exec (w : Time) (t : TxClock) (db : Db) (dateNow : Time)
    (user : AccessTokenClaims) (rideId : RideId) (dto : CancelRideDto) :
    (cancelEndpoint w t db dateNow user rideId dto).1 = db ∨
      ∃ params, (controllerCalls w).cancels params ∧
        (cancelEndpoint w t db dateNow user rideId dto).1 =
          exec dist db (.cancel t dateNow params) := by
  unfold cancelEndpoint
  cases hp : cancelParams w user rideId dto with
  | error e => exact Or.inl rfl
  | ok params =>
    refine Or.inr ⟨params, ⟨user, rideId, dto, hp⟩, ?_⟩
    change _ = (cancel t db dateNow params).1
    dsimp only
    rcases cancel t db dateNow params with ⟨db', result⟩
    cases result with
    | ok revoked =>
      dsimp only
      split <;> rfl
    | notFound | notOwner | invalidTransition | noShowTooEarly => rfl

/-- And so is what the state endpoint does. -/
theorem transitionEndpoint_exec (db : Db) (dateNow : Time) (user : AccessTokenClaims)
    (rideId : RideId) (event : RideEvent) :
    (transitionEndpoint db dateNow user rideId event).1 = db ∨
      (transitionEndpoint db dateNow user rideId event).1 =
        exec dist db (.transition dateNow rideId user.sub event) := by
  unfold transitionEndpoint
  split_ifs
  · exact Or.inl rfl
  right
  change _ = (transition db dateNow rideId user.sub _ _).1
  dsimp only
  rcases transition db dateNow rideId user.sub _ _ with ⟨db', result⟩
  cases result <;> rfl

end Endpoints

end Rcab.Rides
