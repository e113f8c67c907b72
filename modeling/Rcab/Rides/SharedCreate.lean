import Rcab.Matching.PoolLifecycle

/-!
# A keyed shared booking, statement by statement

`RidesController.createShared` with an `Idempotency-Key`, `findOrCreatePool` inlined.
`Phase` is where a request stands between two statements, `statement` one of them; what
the request finds outside the database is its `Env`.

Candidate discovery and scoring are advisory, so the candidates are any list of pools.
A statement can fail, with or without having committed, and the process can crash.
-/

universe u

namespace Rcab.Rides

open Matching

/-- The request's body and header, with the fingerprint of its intent. -/
structure SharedRequest where
  passengerId : PassengerId
  key : String
  fingerprint : String
  origin : Point
  dest : Point
  /-- `parseIdempotencyKey` takes the empty header for none. -/
  key_ne : key ≠ ""
deriving DecidableEq, Repr

def SharedRequest.scope (r : SharedRequest) : IdempotencyScope := ⟨r.passengerId, .shared, r.key⟩

inductive CreateSharedError where
  /-- 422 -/
  | idempotencyKeyConflict
  /-- 409 -/
  | idempotencyRequestInProgress
  | passengerHasActivePool
  | poolConflict
  /-- 500 -/
  | fareUnavailable
  /-- A statement, the routing service or a transaction threw. -/
  | unavailable
deriving DecidableEq, Repr

/-- `SHARED_FARE_POLICY`. -/
def sharedFarePolicy : String := "fixed_at_join"

/-- The response for a seat that exists already; none without a fare. -/
def seatResponse (passengerId : PassengerId) (seat : SeatLookup) : Option CreateRideResponse :=
  seat.agreedFareCents.map fun fare ↦
    { sharedRideId := seat.poolId
      passengerId
      mode := if seat.opened then .opened else .slotted
      poolStatus := seat.poolState
      perSeatPrice := ⟨fare, "INR"⟩
      farePolicy := sharedFarePolicy
      seatMultiplier := none
      detourFactor := none }

/-- The response for a seat this request produced. -/
def toResponse (passengerId : PassengerId) (m : SeatOutcome) : CreateRideResponse where
  sharedRideId := m.sharedRideId
  passengerId := passengerId
  mode := m.mode
  poolStatus := m.poolStatus
  perSeatPrice := m.quote.perSeatPrice
  farePolicy := m.quote.policy
  seatMultiplier := some m.quote.seatMultiplier
  detourFactor := some m.quote.detourFactor

def SharedRequest.idempotency (r : SharedRequest) : SeatIdempotency :=
  ⟨r.scope, toResponse r.passengerId⟩

/-- What `existingSharedSeat` answering `null` leads to. -/
inductive OnNull where
  /-- After a reclaim: allocate. -/
  | allocate
  /-- After a replayed seat insertion: the passenger's seat in that pool. -/
  | findSeat (poolId : PoolId)
deriving DecidableEq, Repr

inductive Phase where
  /-- `claim`: its three statements, outside the `try`. -/
  | insert | reclaim | read
  /-- `existingSharedSeat`: the record, the seat, `completeClaim` with the tries left. -/
  | lookup (onNull : OnNull)
  | lookupSeat (onNull : OnNull)
  | complete (response : CreateRideResponse) (tries : Nat)
  /-- `findOrCreatePool`. -/
  | candidates
  | join (candidates : List PoolId)
  | openPool
  /-- The seat in the pool a duplicate named. -/
  | findSeat (poolId : PoolId)
  /-- The `catch`. -/
  | release (error : CreateSharedError)
  | succeeded (response : CreateRideResponse)
  | failed (error : CreateSharedError)
  | crashed
deriving DecidableEq, Repr

/-- The request has been answered, or never will be. -/
def Phase.Finished : Phase → Prop
  | .succeeded _ | .failed _ | .crashed => True
  | _ => False

instance : DecidablePred Phase.Finished := fun phase ↦ by
  cases phase <;> unfold Phase.Finished <;> infer_instance

/-- What befalls a statement. -/
inductive Fault where
  | none
  /-- It throws, having committed or not. -/
  | failed (committed : Bool)
  /-- The process dies, the statement having committed or not. -/
  | crashed (committed : Bool)
deriving DecidableEq, Repr

/-- What a statement meets outside the database. -/
structure Env where
  t : TxClock
  dateNow : Time
  fault : Fault := .none
  /-- The qualified pools, in order; `none` when discovery or scoring throws. -/
  candidates : Option (List PoolId) := some []
  quoteFare : SeatFareQuoter := fun _ ↦ none
  /-- The bounded deadlock retry of a pool transaction was exhausted. -/
  conflict : Bool := false
  /-- `randomUUID()`. -/
  newPoolId : PoolId := 0
  maxSeats : Nat := 3
  detourBudgetM : Int := 800
  timeoutMs : Int := 60000

/-- What a statement did. -/
structure Effect where
  db : Db
  phase : Phase
  /-- The pool in which it seated the passenger, if it did. -/
  seat : Option PoolId := none

/-- `throw`, inside the `try`. -/
def throwing (db : Db) (error : CreateSharedError) : Effect := ⟨db, .release error, none⟩

/-- The record `claim` reads when both updates missed. -/
def readExisting (db : Db) (r : SharedRequest) : Effect :=
  match find db r.scope with
  -- Released in between: treated as still in flight.
  | none => ⟨db, .failed .idempotencyRequestInProgress, none⟩
  | some record =>
      if record.requestFingerprint ≠ r.fingerprint then ⟨db, .failed .idempotencyKeyConflict, none⟩
      else match record.state, record.response with
      | .completed, some response => ⟨db, .succeeded response, none⟩
      | _, _ => ⟨db, .failed .idempotencyRequestInProgress, none⟩

/-- First statement of `existingSharedSeat`: the completed record's own response. -/
def lookupRecord (db : Db) (r : SharedRequest) (onNull : OnNull) : Effect :=
  match find db r.scope with
  | some ⟨_, _, .completed, _, some response, _, _⟩ => ⟨db, .succeeded response, none⟩
  | _ => ⟨db, .lookupSeat onNull, none⟩

/-- Its second statement: a response rebuilt from the seat the key produced. -/
def lookupByKey (db : Db) (r : SharedRequest) (onNull : OnNull) : Effect :=
  match findByIdempotencyKey db r.passengerId r.key with
  | some seat =>
      match seatResponse r.passengerId seat with
      | some response => ⟨db, .complete response 3, none⟩
      | none => throwing db .fareUnavailable
  | none =>
      match onNull with
      | .allocate => ⟨db, .candidates, none⟩
      | .findSeat poolId => ⟨db, .findSeat poolId, none⟩

section Allocate

variable {D : Type u} [LinearOrder D] (dist : Point → Point → D)

/-- One turn of the loop over the candidates. -/
def tryJoin (env : Env) (db : Db) (r : SharedRequest) (poolId : PoolId) (rest : List PoolId) :
    Effect :=
  if env.conflict then ⟨db, .join rest, none⟩
  else match joinPool dist env.t db
      { poolId
        joiner := ⟨r.passengerId, r.origin, r.dest, env.dateNow⟩
        quoteFare := env.quoteFare
        idempotency := some r.idempotency
        dateNow := env.dateNow } with
  | .error _ => throwing db .unavailable
  | .ok (db, .joined closedFull seatCount quote) =>
      let outcome : SeatOutcome :=
        ⟨poolId, .slotted, if closedFull then .closedFull else .open_, seatCount, quote⟩
      ⟨db, .succeeded (toResponse r.passengerId outcome), some poolId⟩
  | .ok (db, .failed (.insert .alreadyMember) existing) =>
      ⟨db, .findSeat (existing.getD poolId), none⟩
  | .ok (db, .failed (.insert .idempotentReplay) existing) =>
      ⟨db, .lookup (.findSeat (existing.getD poolId)), none⟩
  | .ok (db, .failed (.insert .passengerHasActivePool) _) => throwing db .passengerHasActivePool
  -- `pool_full`, `pool_closed`, `not_found`: a stale candidate.
  | .ok (db, .failed _ _) => ⟨db, .join rest, none⟩

/-- No candidate accepted. -/
def tryOpen (env : Env) (db : Db) (r : SharedRequest) : Effect :=
  if env.conflict then throwing db .poolConflict
  else match openPool dist env.t db
      { poolId := env.newPoolId
        origin := r.origin
        dest := r.dest
        maxSeats := env.maxSeats
        detourBudgetM := env.detourBudgetM
        passengerId := r.passengerId
        timeoutMs := env.timeoutMs
        quoteFare := env.quoteFare
        idempotency := some r.idempotency
        dateNow := env.dateNow } with
  | .error _ => throwing db .unavailable
  | .ok (db, .opened outcome) =>
      ⟨db, .succeeded (toResponse r.passengerId outcome), some outcome.sharedRideId⟩
  | .ok (db, .rejected (.idempotentReplay (some poolId))) => ⟨db, .lookup (.findSeat poolId), none⟩
  | .ok (db, .rejected _) => throwing db .passengerHasActivePool

/-- The next statement of a request. -/
def statement (env : Env) (db : Db) (r : SharedRequest) : Phase → Effect
  | .insert =>
      match claimInsert env.t db r.scope r.fingerprint with
      | (db, true) => ⟨db, .candidates, none⟩
      | (db, false) => ⟨db, .reclaim, none⟩
  | .reclaim =>
      match reclaimStale env.t env.dateNow db r.scope r.fingerprint with
      | (db, true) => ⟨db, .lookup .allocate, none⟩
      | (db, false) => ⟨db, .read, none⟩
  | .read => readExisting db r
  | .lookup onNull => lookupRecord db r onNull
  | .lookupSeat onNull => lookupByKey db r onNull
  | .complete response _ =>
      ⟨completeIn env.dateNow db r.scope response.sharedRideId response, .succeeded response, none⟩
  | .candidates =>
      match env.candidates with
      | none => throwing db .unavailable
      | some pools => ⟨db, .join pools, none⟩
  | .join [] => ⟨db, .openPool, none⟩
  | .join (poolId :: rest) => tryJoin dist env db r poolId rest
  | .openPool => tryOpen dist env db r
  | .findSeat poolId =>
      match findSeat db poolId r.passengerId with
      | none => throwing db .poolConflict
      | some seat =>
          match seatResponse r.passengerId seat with
          | some response => ⟨db, .succeeded response, none⟩
          | none => throwing db .fareUnavailable
  | .release error => ⟨release db r.scope, .failed error, none⟩
  | phase => ⟨db, phase, none⟩

/-- Where a thrown statement leads. -/
def Phase.onThrow : Phase → Phase
  | .insert | .reclaim | .read => .failed .unavailable
  -- `completeClaim` tries again, and gives up without telling.
  | .complete response (tries + 2) => .complete response (tries + 1)
  | .complete response _ => .succeeded response
  -- A failed release is logged and the first error rethrown.
  | .release error => .failed error
  | .lookup _ | .lookupSeat _ | .candidates | .join _ | .openPool | .findSeat _ =>
      .release .unavailable
  | phase => phase

/-- The next statement of a request, and what befalls it. -/
def statementFaulty (env : Env) (db : Db) (r : SharedRequest) (phase : Phase) : Effect :=
  let effect := statement dist env db r phase
  match env.fault with
  | .none => effect
  | .failed true => { effect with phase := phase.onThrow }
  | .failed false => ⟨db, phase.onThrow, none⟩
  | .crashed true => { effect with phase := .crashed }
  | .crashed false => ⟨db, .crashed, none⟩

end Allocate

end Rcab.Rides
