import Rcab.Dispatch.Offer
import Rcab.Dispatch.Assignment
import Rcab.Outbox.Writer

/-!
# The rides repository

`rides.repository.ts` and the table of `ride-state-machine.ts`.  Every operation is
one transaction; `dateNow` is the process clock where the source reads `new Date()`.
-/

namespace Rcab.Rides

open Dispatch (lockSoloTrip claimSoloRow acquire revokeLiveForTrip RevokedOffer)
open Outbox (enqueueOutbox)

/-! ## Create -/

/-- The idempotency operations that persist as a `rides` row. -/
inductive RideIdempotencyOperation where
  | solo | scheduled
deriving DecidableEq, Repr

def RideIdempotencyOperation.operation : RideIdempotencyOperation → IdempotencyOperation
  | .solo => .solo
  | .scheduled => .scheduled

def operationForType : RideType → RideIdempotencyOperation
  | .scheduled => .scheduled
  | _ => .solo

structure CreateRide where
  /-- `gen_random_uuid()`. -/
  newId : RideId
  passengerId : PassengerId
  origin : Point
  dest : Point
  fareCents : Int
  idempotencyKey : String
  type : RideType := .normal
  scheduledFor : Option Time := none
  idempotencyOperation : Option RideIdempotencyOperation := none
  requestFingerprint : Option String := none
deriving DecidableEq, Repr

def CreateRide.operation (params : CreateRide) : IdempotencyOperation :=
  (params.idempotencyOperation.getD (operationForType params.type)).operation

/-- A normal ride is dispatchable at once; a scheduled one waits for its wake. -/
def CreateRide.row (params : CreateRide) : Ride where
  id := params.newId
  passengerId := params.passengerId
  origin := params.origin
  dest := params.dest
  fareCents := params.fareCents
  status := .requested
  type := params.type
  scheduledFor := params.scheduledFor
  idempotencyKey := params.idempotencyKey
  idempotencyOperation := params.operation
  requestFingerprint := params.requestFingerprint
  dispatchGeneration := if params.type = .scheduled then 0 else 1

structure CreatedRide where
  row : Ride
  created : Bool
  requestFingerprint : Option String
deriving DecidableEq, Repr

/-- The caller's own ride for an idempotency scope. -/
def findByIdempotencyScope (db : Db) (passengerId : PassengerId) (operation : IdempotencyOperation)
    (key : String) : Option Ride :=
  db.rides.rows.find? fun r ↦
    r.passengerId = passengerId ∧ r.idempotencyOperation = operation ∧ r.idempotencyKey = key

/-- The work intent committed with the row. -/
def CreateRide.intent (params : CreateRide) : Except TxError Outbox.OutboxMessage :=
  if params.type = .scheduled then
    match params.scheduledFor with
    | none => .error (.thrown "scheduled ride requires scheduledFor")
    | some at_ => .ok ⟨.ride, params.newId, 1, .rideWakeSchedule at_, none⟩
  else .ok ⟨.ride, params.newId, 1, .rideDispatchRequested params.newId, none⟩

/-- Insert a ride with its work intent; a taken scope answers the ride that holds it. -/
def create (t : TxClock) (db : Db) (params : CreateRide) : Tx CreatedRide :=
  match findByIdempotencyScope db params.passengerId params.operation params.idempotencyKey with
  | some existing => .ok (db, ⟨existing, false, existing.requestFingerprint⟩)
  | none =>
  if (db.rides.get params.newId).isSome then .error (.constraint .ridesPkey)
  else match params.intent with
  | .error e => .error e
  | .ok message =>
      let db := { db with rides := db.rides.insert params.row }
      .ok (enqueueOutbox t db message, ⟨params.row, true, params.requestFingerprint⟩)

/-- A create inserts the ride with its intent, or nothing where the scope is taken. -/
theorem create_eq_ok {t : TxClock} {db db' : Db} {params : CreateRide} {r : CreatedRide}
    (h : create t db params = .ok (db', r)) :
    db' = db ∨ ∃ message, db.rides.get params.row.id = none ∧ params.intent = .ok message ∧
      db' = enqueueOutbox t { db with rides := db.rides.insert params.row } message := by
  unfold create at h
  split at h
  · obtain ⟨rfl, -⟩ := Tx.ok_inj h
    exact Or.inl rfl
  split_ifs at h with hfree
  split at h
  · cases h
  rename_i message hm
  obtain ⟨rfl, -⟩ := Tx.ok_inj h
  exact Or.inr ⟨message, by simpa [CreateRide.row] using hfree, hm, rfl⟩

/-! ## Claim and give up -/

/-- The operator's offer-less assignment. -/
def claimSolo (t : TxClock) (db : Db) (rideId : RideId) (driverId : DriverId) : Tx (Option Ride) :=
  match lockSoloTrip db rideId with
  | none => .ok (db, none)
  | some ride =>
  if ride.status ≠ .requested ∨ ride.driverId.isSome then .ok (db, none)
  else
  let generation := max ride.dispatchGeneration 1
  (acquire t db ⟨driverId, .solo rideId, none, generation⟩).andThen fun db guard ↦
  match guard with
  | .driverBusy | .tripTaken => .ok (db, none)
  | .ok =>
  (claimSoloRow t db rideId driverId generation).andThen fun db _ ↦
  .ok ((revokeLiveForTrip t db (.solo rideId)).1, lockSoloTrip db rideId)

/-- A claim takes the driver's guard and the ride, or does nothing. -/
theorem claimSolo_eq_ok {t : TxClock} {db db' : Db} {rideId : RideId} {driverId : DriverId}
    {r : Option Ride} (h : claimSolo t db rideId driverId = .ok (db', r)) :
    db' = db ∨ ∃ ride db₁ db₂ u, lockSoloTrip db rideId = some ride ∧
      ¬ (ride.status ≠ .requested ∨ ride.driverId.isSome) ∧
      acquire t db ⟨driverId, .solo rideId, none, max ride.dispatchGeneration 1⟩ =
        .ok (db₁, .ok) ∧
      claimSoloRow t db₁ rideId driverId (max ride.dispatchGeneration 1) = .ok (db₂, u) ∧
      db' = (revokeLiveForTrip t db₂ (.solo rideId)).1 := by
  unfold claimSolo at h
  split at h
  · obtain ⟨rfl, -⟩ := Tx.ok_inj h
    exact Or.inl rfl
  rename_i ride hride
  split_ifs at h with hfree
  · obtain ⟨rfl, -⟩ := Tx.ok_inj h
    exact Or.inl rfl
  obtain ⟨db₁, guard, h₁, h⟩ := Tx.andThen_eq_ok.mp h
  rcases Dispatch.acquire_eq_ok h₁ with ⟨hne, rfl⟩ | ⟨rfl, -, -⟩
  · cases guard with
    | ok => exact absurd rfl hne
    | driverBusy | tripTaken =>
      obtain ⟨rfl, -⟩ := Tx.ok_inj h
      exact Or.inl rfl
  · obtain ⟨db₂, u, h₂, h⟩ := Tx.andThen_eq_ok.mp h
    obtain ⟨rfl, -⟩ := Tx.ok_inj h
    exact Or.inr ⟨ride, db₁, db₂, u, hride, hfree, h₁, h₂, rfl⟩

/-- All waves exhausted.  A job without a generation means the current one. -/
def markNoDriver (t : TxClock) (db : Db) (rideId : RideId) (generation : Option Nat) :
    Db × Option (List RevokedOffer) :=
  match lockSoloTrip db rideId with
  | none => (db, none)
  | some ride =>
  if ride.status ≠ .requested ∨ ride.driverId.isSome then (db, none)
  else if generation.any (· ≠ ride.dispatchGeneration) then (db, none)
  else
  let db := { db with
    rides := db.rides.update (fun r ↦ r.id = rideId) fun r ↦ { r with status := .noDriver } }
  let (db, revoked) := revokeLiveForTrip t db (.solo rideId)
  (db, some revoked)

/-- A requested ride without a driver becomes `no_driver`; any other stays as it is. -/
theorem markNoDriver_cases (t : TxClock) (db : Db) (rideId : RideId) (generation : Option Nat) :
    markNoDriver t db rideId generation = (db, none) ∨
      ∃ ride revoked, lockSoloTrip db rideId = some ride ∧
        ¬ (ride.status ≠ .requested ∨ ride.driverId.isSome) ∧
        markNoDriver t db rideId generation = ((revokeLiveForTrip t { db with
          rides := db.rides.update (fun r ↦ r.id = rideId) fun r ↦ { r with status := .noDriver } }
            (.solo rideId)).1, some revoked) := by
  unfold markNoDriver
  split
  · exact Or.inl rfl
  rename_i ride hride
  split_ifs with hfree
  · exact Or.inl rfl
  · exact Or.inl rfl
  · exact Or.inr ⟨ride, _, hride, hfree, rfl⟩

/-! ## The forward lifecycle -/

/-- `RIDE_FORWARD_EVENTS`. -/
inductive RideEvent where
  | startEnRoute | markArrived | startRide | endRide
deriving DecidableEq, Repr

structure TransitionSpec where
  source : RideStatus
  target : RideStatus
deriving DecidableEq, Repr

/-- `TRANSITIONS`. -/
def transitions : RideEvent → TransitionSpec
  | .startEnRoute => ⟨.accepted, .enRoute⟩
  | .markArrived => ⟨.enRoute, .arrived⟩
  | .startRide => ⟨.arrived, .inProgress⟩
  | .endRide => ⟨.inProgress, .completed⟩

/-- `TERMINAL_STATUSES`: the driver no longer holds the trip. -/
def TerminalStatus : RideStatus → Prop
  | .completed | .cancelled | .noShow => True
  | _ => False

instance : DecidablePred TerminalStatus := fun s ↦ by
  cases s <;> unfold TerminalStatus <;> infer_instance

/-- `{ status: toStatus, [TIMESTAMP_FOR_STATUS[toStatus]]: now }`. -/
def advance (dateNow : Time) (target : RideStatus) (r : Ride) : Ride :=
  match target with
  | .enRoute => { r with status := target, enRouteAt := some dateNow }
  | .arrived => { r with status := target, arrivedAt := some dateNow }
  | .inProgress => { r with status := target, startedAt := some dateNow }
  | .completed => { r with status := target, completedAt := some dateNow }
  | _ => { r with status := target }

@[simp] theorem advance_id (dateNow : Time) (target : RideStatus) (r : Ride) :
    (advance dateNow target r).id = r.id := by
  cases target <;> rfl

@[simp] theorem advance_status (dateNow : Time) (target : RideStatus) (r : Ride) :
    (advance dateNow target r).status = target := by
  cases target <;> rfl

@[simp] theorem advance_driverId (dateNow : Time) (target : RideStatus) (r : Ride) :
    (advance dateNow target r).driverId = r.driverId := by
  cases target <;> rfl

inductive RideTransitionResult where
  | ok
  | notFound | notOwner | invalidTransition
deriving DecidableEq, Repr

/-- One guarded lifecycle transition for the bound driver. -/
def transition (db : Db) (dateNow : Time) (rideId : RideId) (driverId : DriverId)
    (source target : RideStatus) : Db × RideTransitionResult :=
  match db.rides.get rideId with
  | none => (db, .notFound)
  | some current =>
  if current.driverId ≠ some driverId then (db, .notOwner)
  else if current.status ≠ source then (db, .invalidTransition)
  else
  let db := { db with
    rides := db.rides.update (fun r ↦ r.id = rideId) (advance dateNow target) (by simp) }
  if TerminalStatus target then ((Dispatch.release db driverId (.solo rideId)).1, .ok) else (db, .ok)

/-- The driver's ride advances from the source status, and a terminal one releases the driver. -/
theorem transition_cases (db : Db) (dateNow : Time) (rideId : RideId) (driverId : DriverId)
    (source target : RideStatus) :
    (transition db dateNow rideId driverId source target).1 = db ∨
      ∃ current, db.rides.get rideId = some current ∧ current.driverId = some driverId ∧
        current.status = source ∧
        ((TerminalStatus target ∧ (transition db dateNow rideId driverId source target).1 =
            (Dispatch.release { db with
              rides := db.rides.update (fun r ↦ r.id = rideId) (advance dateNow target) (by simp) }
                driverId (.solo rideId)).1) ∨
          (¬ TerminalStatus target ∧ (transition db dateNow rideId driverId source target).1 =
            { db with
              rides := db.rides.update (fun r ↦ r.id = rideId) (advance dateNow target)
                (by simp) })) := by
  unfold transition
  split
  · exact Or.inl rfl
  rename_i current hcurrent
  split_ifs with hd hs ht
  · exact Or.inl rfl
  · exact Or.inl rfl
  · exact Or.inr ⟨current, hcurrent, not_not.mp hd, not_not.mp hs, Or.inl ⟨ht, rfl⟩⟩
  · exact Or.inr ⟨current, hcurrent, not_not.mp hd, not_not.mp hs, Or.inr ⟨ht, rfl⟩⟩

/-! ## Cancellation and no-show -/

/-- `CLIENT_CANCELLABLE` and `DRIVER_CANCELLABLE`. -/
def Cancellable : Actor → RideStatus → Prop
  | _, .requested | _, .dispatching | _, .accepted | _, .enRoute | _, .arrived => True
  | .driver, .inProgress => True
  | _, _ => False

instance : ∀ actor, DecidablePred (Cancellable actor) := fun actor s ↦ by
  cases actor <;> cases s <;> unfold Cancellable <;> infer_instance

structure CancelRide where
  rideId : RideId
  actor : Actor
  actorId : Uuid
  isNoShow : Bool
  reason : Option String
  noShowWaitMs : Time
deriving DecidableEq, Repr

inductive RideCancelResult where
  | ok (revokedOffers : List RevokedOffer)
  | notFound | notOwner | invalidTransition | noShowTooEarly
deriving DecidableEq, Repr

def Owns (params : CancelRide) (r : Ride) : Prop :=
  match params.actor with
  | .client => r.passengerId = params.actorId
  | .driver => r.driverId = some params.actorId

instance {params : CancelRide} : DecidablePred (Owns params) := fun r ↦ by
  unfold Owns
  cases params.actor <;> infer_instance

/-- Where a cancellation leads, or why it is refused. -/
def cancelTarget (params : CancelRide) (dateNow : Time) (current : Ride) :
    Except RideCancelResult RideStatus :=
  if params.isNoShow then
    if current.status ≠ .arrived then .error .invalidTransition
    else match current.arrivedAt with
    | none => .error .noShowTooEarly
    | some arrivedMs =>
        if dateNow - arrivedMs < params.noShowWaitMs then .error .noShowTooEarly else .ok .noShow
  else if Cancellable params.actor current.status then .ok .cancelled
  else .error .invalidTransition

def cancel (t : TxClock) (db : Db) (dateNow : Time) (params : CancelRide) : Db × RideCancelResult :=
  match db.rides.get params.rideId with
  | none => (db, .notFound)
  | some current =>
  if ¬ Owns params current then (db, .notOwner)
  else match cancelTarget params dateNow current with
  | .error refusal => (db, refusal)
  | .ok target =>
  let db := { db with
    rides := db.rides.update (fun r ↦ r.id = params.rideId) fun r ↦
      { r with
        status := target
        cancelledAt := some dateNow
        cancelledBy := some params.actor
        cancelReason := params.reason } }
  let (db, revoked) := revokeLiveForTrip t db (.solo params.rideId)
  match current.driverId with
  | some driverId => ((Dispatch.release db driverId (.solo params.rideId)).1, .ok revoked)
  | none => (db, .ok revoked)

/-- A cancellation that is not refused ends the ride, revokes its offers and releases its
driver. -/
theorem cancel_cases (t : TxClock) (db : Db) (dateNow : Time) (params : CancelRide) :
    (cancel t db dateNow params).1 = db ∨
      ∃ current target db₁, db.rides.get params.rideId = some current ∧
        cancelTarget params dateNow current = .ok target ∧
        db₁ = (revokeLiveForTrip t { db with
          rides := db.rides.update (fun r ↦ r.id = params.rideId) fun r ↦
            { r with
              status := target
              cancelledAt := some dateNow
              cancelledBy := some params.actor
              cancelReason := params.reason } } (.solo params.rideId)).1 ∧
        (cancel t db dateNow params).1 = match current.driverId with
          | some driverId => (Dispatch.release db₁ driverId (.solo params.rideId)).1
          | none => db₁ := by
  unfold cancel
  split
  · exact Or.inl rfl
  rename_i current hcurrent
  split_ifs with hown
  swap
  · exact Or.inl rfl
  split
  · exact Or.inl rfl
  rename_i target htarget
  refine Or.inr ⟨current, target, _, hcurrent, htarget, rfl, ?_⟩
  cases current.driverId <;> rfl

end Rcab.Rides
