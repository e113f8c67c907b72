import Rcab.Lib.Table
import Mathlib.Algebra.Group.Int.Defs
import Mathlib.Data.Rat.Defs

/-!
# The schema

The rows of the tables the api writes, as migrations 0003–0017 leave them, and the
types of their columns.  Columns no modelled statement reads (`created_at`,
`updated_at`, the deprecated `members` and the generated centroids) are left out.

Identifiers are uuids, of which only equality and the order of their text are
used.  Instants are milliseconds.  Coordinates are the rational a float8 denotes.

Two constraints are fields of the row they constrain, so a row violating them
cannot be written down: `shared_rides_seat_capacity_check` and
`shared_rides_max_seats_check`.
-/

namespace Rcab

abbrev Uuid := Nat
abbrev RideId := Uuid
abbrev PoolId := Uuid
abbrev DriverId := Uuid
abbrev PassengerId := Uuid
abbrev OfferId := Uuid

/-- An instant, in milliseconds. -/
abbrev Time := Int

/-- A latitude and a longitude. -/
structure Point where
  lat : ℚ
  lng : ℚ
deriving DecidableEq, Repr

/-- The two clocks a transaction reads: `now()` is its start, `clock_timestamp()`
the instant of the statement. -/
structure TxClock where
  now : Time
  clockTimestamp : Time
deriving DecidableEq, Repr

/-- A trip in either table. -/
inductive TripRef where
  | solo (rideId : RideId)
  | shared (sharedRideId : PoolId)
deriving DecidableEq, Repr

/-! ## `rides` -/

inductive RideStatus where
  | requested | dispatching | accepted | enRoute | arrived | inProgress
  | completed | cancelled | noDriver | noShow
deriving DecidableEq, Repr

/-- The statuses in which the bound driver holds the ride. -/
def RideStatus.Active : RideStatus → Prop
  | .accepted | .enRoute | .arrived | .inProgress => True
  | _ => False

instance : DecidablePred RideStatus.Active := fun s ↦ by
  cases s <;> unfold RideStatus.Active <;> infer_instance

inductive RideType where
  | normal | shared | scheduled
deriving DecidableEq, Repr

/-- Who cancelled. -/
inductive Actor where
  | client | driver
deriving DecidableEq, Repr

inductive IdempotencyOperation where
  | solo | scheduled | shared
deriving DecidableEq, Repr

structure Ride where
  id : RideId
  passengerId : PassengerId
  origin : Point
  dest : Point
  fareCents : Int
  status : RideStatus
  type : RideType
  scheduledFor : Option Time
  idempotencyKey : String
  idempotencyOperation : IdempotencyOperation
  requestFingerprint : Option String
  driverId : Option DriverId := none
  acceptedAt : Option Time := none
  enRouteAt : Option Time := none
  arrivedAt : Option Time := none
  startedAt : Option Time := none
  completedAt : Option Time := none
  cancelledAt : Option Time := none
  cancelledBy : Option Actor := none
  cancelReason : Option String := none
  dispatchGeneration : Nat
deriving DecidableEq, Repr

/-! ## `shared_rides`, `pool_member`, `ride_stops` -/

/-- `pool_state`; `open_` is the column's value `'open'`. -/
inductive PoolState where
  | open_ | closedFull | closedTimeout | closedStarted | aborted | completed
deriving DecidableEq, Repr

/-- The states after which a pool has no members and no driver. -/
def PoolState.Terminal : PoolState → Prop
  | .aborted | .completed => True
  | _ => False

instance : DecidablePred PoolState.Terminal := fun s ↦ by
  cases s <;> unfold PoolState.Terminal <;> infer_instance

/-- `pool_state IN ('closed_full', 'closed_timeout')`: `CLAIMABLE_POOL_STATES`. -/
def PoolState.Claimable : PoolState → Prop
  | .closedFull | .closedTimeout => True
  | _ => False

instance : DecidablePred PoolState.Claimable := fun s ↦ by
  cases s <;> unfold PoolState.Claimable <;> infer_instance

/-- The states in which a claiming driver holds the pool. -/
def PoolState.Closed : PoolState → Prop
  | .closedFull | .closedTimeout | .closedStarted => True
  | _ => False

instance : DecidablePred PoolState.Closed := fun s ↦ by
  cases s <;> unfold PoolState.Closed <;> infer_instance

theorem PoolState.closed_of_claimable {s : PoolState} (h : s.Claimable) : s.Closed := by
  cases s <;> simp_all [Claimable, Closed]

structure SharedRide where
  rideId : PoolId
  seatCount : Nat
  maxSeats : Nat
  poolState : PoolState
  poolClosedAt : Option Time
  detourBudgetM : Int
  origin : Point
  dest : Point
  claimedByDriverId : Option DriverId := none
  claimedAt : Option Time := none
  completedAt : Option Time := none
  dispatchGeneration : Nat := 0
  stateVersion : Nat := 0
  /-- `shared_rides_seat_capacity_check`. -/
  capacity : seatCount ≤ maxSeats
  /-- `shared_rides_max_seats_check`. -/
  maxSeats_pos : 1 ≤ maxSeats
deriving DecidableEq, Repr

structure PoolMember where
  poolId : PoolId
  passengerId : PassengerId
  origin : Point
  dest : Point
  /-- Legacy (pre-0017); no statement writes it. -/
  quotedFareCents : Option Int := none
  agreedFareCents : Option Int
  idempotencyKey : Option String
  active : Bool := true
  joinedAt : Time
  leftAt : Option Time := none
deriving DecidableEq, Repr

/-- `PRIMARY KEY (pool_id, passenger_id)`. -/
def PoolMember.pkey (m : PoolMember) : PoolId × PassengerId := (m.poolId, m.passengerId)

inductive StopType where
  | pickup | dropoff
deriving DecidableEq, Repr

structure RideStop where
  rideId : PoolId
  sequenceIndex : Nat
  passengerId : PassengerId
  type : StopType
  point : Point
  confirmedAt : Option Time := none
deriving DecidableEq, Repr

/-- `PRIMARY KEY (ride_id, sequence_index)`. -/
def RideStop.pkey (s : RideStop) : PoolId × Nat := (s.rideId, s.sequenceIndex)

/-! ## `dispatch_offer`, `driver_active_assignment` -/

inductive DispatchOfferState where
  | offered | accepted | declined | expired | revoked
deriving DecidableEq, Repr

/-- `trip_kind`, `ride_id` and `shared_ride_id` are one `TripRef`, which is what the
table's three trip checks say of them. -/
structure DispatchOffer where
  id : OfferId
  trip : TripRef
  driverId : DriverId
  dispatchGeneration : Nat
  waveNumber : Nat
  state : DispatchOfferState := .offered
  offeredAt : Time
  expiresAt : Time
  resolvedAt : Option Time := none
deriving DecidableEq, Repr

/-- The exclusivity guard; the primary key is the driver. -/
structure DriverActiveAssignment where
  driverId : DriverId
  trip : TripRef
  offerId : Option OfferId
  dispatchGeneration : Nat
  assignedAt : Time
deriving DecidableEq, Repr

/-! ## `outbox` -/

inductive OutboxTopic where
  | rideDispatchRequested | rideWakeSchedule | poolDispatchRequested | poolExpireSchedule
  /-- The column is text; the registry has the four above. -/
  | other (name : String)
deriving DecidableEq, Repr

inductive OutboxAggregateType where
  | ride | sharedRide
deriving DecidableEq, Repr

inductive OutboxPayload where
  | rideDispatchRequested (rideId : RideId)
  | rideWakeSchedule (scheduledFor : Time)
  | poolDispatchRequested (poolId : PoolId) (reason : PoolState)
  | poolExpireSchedule (expireAt : Time)
deriving DecidableEq, Repr

/-- `dedupe_key`: `<topic>:<aggregateId>:g<generation>`. -/
structure DedupeKey where
  topic : OutboxTopic
  aggregateId : Uuid
  generation : Nat
deriving DecidableEq, Repr

/-- An outbox row, identified by its unique `dedupe_key` (which its uuid `id`
determines and is determined by). -/
structure OutboxRow where
  dedupeKey : DedupeKey
  aggregateType : OutboxAggregateType
  payload : OutboxPayload
  availableAt : Time
  attempts : Nat := 0
  maxAttempts : Nat := 10
  lastError : Option String := none
  leaseToken : Option Uuid := none
  leasedUntil : Option Time := none
  processedAt : Option Time := none
  failedAt : Option Time := none
deriving DecidableEq, Repr

/-! ## `idempotency_record` -/

structure Money where
  amount : Int
  currency : String
deriving DecidableEq, Repr

/-- How a passenger came by a seat. -/
inductive SeatMode where
  | opened | slotted
deriving DecidableEq, Repr

/-- The body of a successful shared booking. -/
structure CreateRideResponse where
  sharedRideId : PoolId
  passengerId : PassengerId
  mode : SeatMode
  poolStatus : PoolState
  perSeatPrice : Money
  farePolicy : String
  seatMultiplier : Option ℚ
  detourFactor : Option ℚ
deriving DecidableEq, Repr

structure IdempotencyScope where
  principalId : PassengerId
  operation : IdempotencyOperation
  key : String
deriving DecidableEq, Repr

inductive IdempotencyState where
  | pending | completed
deriving DecidableEq, Repr

structure IdempotencyRecord where
  scope : IdempotencyScope
  requestFingerprint : String
  state : IdempotencyState
  resourceId : Option PoolId := none
  response : Option CreateRideResponse := none
  createdAt : Time
  completedAt : Option Time := none
deriving DecidableEq, Repr

/-! ## The database -/

/-- The tables the api's transactions read and write. -/
structure Db where
  rides : Table Ride.id
  sharedRides : Table SharedRide.rideId
  dispatchOffer : Table DispatchOffer.id
  driverActiveAssignment : Table DriverActiveAssignment.driverId
  poolMember : Table PoolMember.pkey
  rideStops : Table RideStop.pkey
  outbox : Table OutboxRow.dedupeKey
  idempotencyRecord : Table IdempotencyRecord.scope

/-- A database without rows. -/
def Db.empty : Db :=
  ⟨.empty, .empty, .empty, .empty, .empty, .empty, .empty, .empty⟩

/-! ## Failed statements -/

/-- The constraints whose violation a transaction can meet. -/
inductive Constraint where
  | ridesPkey | sharedRidesPkey | sharedRidesMaxSeats
  | assignmentDriverBusy | assignmentSoloTaken | assignmentSharedTaken | assignmentOfferId
  | assignmentGeneration
  | offerSoloAlreadyAccepted | offerSharedAlreadyAccepted | offerGeneration | offerWave
  | poolMemberDuplicate | poolMemberOneActivePool | poolMemberIdempotency
  | poolNotOpen | poolCapacity | poolMemberFareRange
  | rideStopsPkey
deriving DecidableEq, Repr

/-- What makes a transaction roll back. -/
inductive TxError where
  /-- A statement violated a constraint. -/
  | constraint (c : Constraint)
  /-- The code threw. -/
  | thrown (message : String)
deriving DecidableEq, Repr

/-- A transaction: the state it commits and what it returns, or the error it rolls
back with. -/
abbrev Tx (α : Type) := Except TxError (Db × α)

namespace Tx

variable {α β : Type}

/-- The next statements of the same transaction; an error skips them. -/
def andThen : Tx α → (Db → α → Tx β) → Tx β
  | .ok (db, a), f => f db a
  | .error e, _ => .error e

/-- The state after a transaction: unchanged when it rolled back. -/
def commit (db : Db) : Tx α → Db
  | .ok (db', _) => db'
  | .error _ => db

@[simp] theorem andThen_ok (db : Db) (a : α) (f : Db → α → Tx β) :
    Tx.andThen (.ok (db, a)) f = f db a := rfl

@[simp] theorem andThen_error (e : TxError) (f : Db → α → Tx β) :
    Tx.andThen (.error e) f = .error e := rfl

/-- A transaction that commits has committed each of its parts. -/
theorem andThen_eq_ok {x : Tx α} {f : Db → α → Tx β} {r : Db × β} :
    x.andThen f = .ok r ↔ ∃ db a, x = .ok (db, a) ∧ f db a = .ok r := by
  rcases x with e | ⟨db, a⟩
  · simp
  · simp

/-- What a transaction that is over returned. -/
theorem ok_inj {db db' : Db} {a b : α} (h : (.ok (db, a) : Tx α) = .ok (db', b)) :
    db = db' ∧ a = b := Prod.mk.inj (Except.ok.inj h)

@[simp] theorem commit_ok (db db' : Db) (a : α) : Tx.commit db (.ok (db', a)) = db' := rfl

@[simp] theorem commit_error (db : Db) (e : TxError) :
    Tx.commit db (.error e : Tx α) = db := rfl

/-- A relation that holds of every committed state, and of the state itself, holds of
the state after the transaction. -/
theorem commit_of {R : Db → Prop} {db : Db} {x : Tx α} (h : ∀ db' a, x = .ok (db', a) → R db')
    (hdb : R db) : R (x.commit db) := by
  rcases x with e | ⟨db', a⟩
  · exact hdb
  · exact h db' a rfl

/-- A transaction rolls back, or the state after it is the one it commits. -/
theorem commit_eq (x : Tx α) (db : Db) : x.commit db = db ∨ ∃ a, x = .ok (x.commit db, a) := by
  rcases x with e | ⟨db', a⟩
  · exact Or.inl rfl
  · exact Or.inr ⟨a, rfl⟩

end Tx

end Rcab
