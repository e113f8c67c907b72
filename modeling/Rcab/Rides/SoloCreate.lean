import Rcab.Rides.Repository
import Rcab.Rides.SharedCreate

/-!
# A solo or scheduled booking, statement by statement

`RidesController.createNormal` and `createScheduled`, with `replaySolo` and
`RidesRepository.create` inlined.  `SoloPhase` is where a request stands between two statements,
`soloStatement` one of them; what the request finds outside the database is its `SoloEnv`.

The insert is one transaction, and reading the row it conflicted with another statement.
-/

namespace Rcab.Rides

open Outbox (enqueueOutbox)

/-! ## The repository's create, in its two statements -/

/-- The transaction of `create`: the ride with its work intent, or nothing when the scope is
taken. -/
def insertRide (t : TxClock) (db : Db) (params : CreateRide) : Tx (Option Ride) :=
  if (findByIdempotencyScope db params.passengerId params.operation params.idempotencyKey).isSome then
    .ok (db, none)
  else if (db.rides.get params.newId).isSome then .error (.constraint .ridesPkey)
  else match params.intent with
  | .error e => .error e
  | .ok message =>
      .ok (enqueueOutbox t { db with rides := db.rides.insert params.row } message, some params.row)

/-- `create` is the transaction and, when it inserted nothing, the read of the scope. -/
theorem create_eq_insertRide (t : TxClock) (db : Db) (params : CreateRide) :
    create t db params = (insertRide t db params).andThen fun db inserted ↦
      match inserted with
      | some row => .ok (db, ⟨row, true, params.requestFingerprint⟩)
      | none =>
        match findByIdempotencyScope db params.passengerId params.operation params.idempotencyKey with
        | some existing => .ok (db, ⟨existing, false, existing.requestFingerprint⟩)
        | none => .error (.thrown "idempotency conflict without a matching ride") := by
  unfold create insertRide
  cases hf : findByIdempotencyScope db params.passengerId params.operation params.idempotencyKey with
  | some existing =>
      rw [if_pos (Option.isSome_some)]
      simp only [Tx.andThen, hf]
  | none =>
      have hfree : ¬ (none : Option Ride).isSome = true := by simp
      rw [if_neg hfree]
      dsimp only
      by_cases hid : (db.rides.get params.newId).isSome
      · rw [if_pos hid, if_pos hid]
        rfl
      · rw [if_neg hid, if_neg hid]
        cases params.intent <;> rfl

/-! ## The request -/

inductive CreateSoloError where
  /-- 400 -/
  | idempotencyKeyRequired | idempotencyKeyInvalid
  | invalidQuote | quoteExpired | quoteMismatch
  | scheduledForRequired | scheduledForOutOfWindow
  /-- 422 -/
  | idempotencyKeyConflict
  /-- 500: a statement, the transaction or the join of the room threw. -/
  | unavailable
deriving DecidableEq, Repr

/-- `KEY_PATTERN`: 1 to 128 visible ASCII characters. -/
def KeyPattern (raw : String) : Prop :=
  1 ≤ raw.length ∧ raw.length ≤ 128 ∧ ∀ c ∈ raw.toList, '!' ≤ c ∧ c ≤ '~'

instance : DecidablePred KeyPattern := fun _ ↦ inferInstanceAs (Decidable (_ ∧ _ ∧ _))

/-- `parseIdempotencyKey`, when the key is required. -/
def parseIdempotencyKey : Option String → Except CreateSoloError String
  | none => .error .idempotencyKeyRequired
  | some raw =>
      if raw = "" then .error .idempotencyKeyRequired
      else if ¬ KeyPattern raw then .error .idempotencyKeyInvalid
      else .ok raw

/-- The request's body and header, with the fingerprint of its intent. -/
structure SoloRequest where
  passengerId : PassengerId
  /-- The `Idempotency-Key` header. -/
  rawKey : Option String
  /-- Which of the two handlers takes it. -/
  operation : RideIdempotencyOperation
  fingerprint : String
  origin : Point
  dest : Point
  /-- There is a quote token. -/
  quoted : Bool
  /-- `scheduledFor`, as `new Date` reads it: nothing for an invalid date. -/
  scheduledFor : Option (Option Time)
deriving DecidableEq, Repr

/-- `SoloRideResponse`. -/
structure SoloRideResponse where
  rideId : RideId
  passengerId : PassengerId
  status : RideStatus
  fare : Money
deriving DecidableEq, Repr

def soloResponse (row : Ride) : SoloRideResponse where
  rideId := row.id
  passengerId := row.passengerId
  status := row.status
  fare := ⟨row.fareCents, "INR"⟩

/-- A row without a fingerprint is a legacy one, and replays for any. -/
def FingerprintMatches (stored : Option String) (incoming : String) : Prop :=
  stored = none ∨ stored = some incoming

instance {stored : Option String} {incoming : String} :
    Decidable (FingerprintMatches stored incoming) := inferInstanceAs (Decidable (_ ∨ _))

/-- `SCHEDULED_MIN_LEAD_MS`, `SCHEDULED_MAX_LEAD_MS`. -/
def scheduledMinLeadMs : Time := 15 * 60 * 1000

def scheduledMaxLeadMs : Time := 24 * 60 * 60 * 1000

inductive SoloPhase where
  /-- Before the first statement. -/
  | received
  /-- `replaySolo`. -/
  | lookup (key : String)
  /-- The window and the quote. -/
  | verify (key : String)
  /-- `create`: the transaction, and the row it conflicted with. -/
  | insert (key : String) (soloFareCents : Int)
  | read (key : String)
  | succeeded (response : SoloRideResponse)
  | failed (error : CreateSoloError)
  | crashed
deriving DecidableEq, Repr

/-- The request has been answered, or never will be. -/
def SoloPhase.Finished : SoloPhase → Prop
  | .succeeded _ | .failed _ | .crashed => True
  | _ => False

instance : DecidablePred SoloPhase.Finished := fun phase ↦ by
  cases phase <;> unfold SoloPhase.Finished <;> infer_instance

/-- Why `verifyQuote` refused the token. -/
inductive QuoteFailure where
  | invalid | expired | mismatch
deriving DecidableEq, Repr

def QuoteFailure.error : QuoteFailure → CreateSoloError
  | .invalid => .invalidQuote
  | .expired => .quoteExpired
  | .mismatch => .quoteMismatch

/-- What a statement meets outside the database. -/
structure SoloEnv where
  t : TxClock
  /-- `Date.now()`. -/
  dateNow : Time
  fault : Fault := .none
  /-- `verifyQuote`: the fare of the token's claims. -/
  quote : Except QuoteFailure Int := .error .invalid
  /-- `gen_random_uuid()`. -/
  newId : RideId := 0

/-- The values `create` is called with. -/
def SoloRequest.params (r : SoloRequest) (key : String) (soloFareCents : Int) (newId : RideId) :
    CreateRide where
  newId
  passengerId := r.passengerId
  origin := r.origin
  dest := r.dest
  fareCents := soloFareCents
  idempotencyKey := key
  type := match r.operation with
    | .solo => .normal
    | .scheduled => .scheduled
  scheduledFor := match r.operation with
    | .solo => none
    | .scheduled => r.scheduledFor.join
  idempotencyOperation := some r.operation
  requestFingerprint := some r.fingerprint

/-- The ride of the scope is replayed to the same intent only. -/
def replay (r : SoloRequest) (existing : Ride) : SoloPhase :=
  if FingerprintMatches existing.requestFingerprint r.fingerprint then
    .succeeded (soloResponse existing)
  else .failed .idempotencyKeyConflict

/-- What is checked before the first statement. -/
def receive (r : SoloRequest) : SoloPhase :=
  match parseIdempotencyKey r.rawKey with
  | .error e => .failed e
  | .ok key =>
      if r.quoted = false then .failed .invalidQuote
      else if r.operation = .scheduled ∧ r.scheduledFor = none then .failed .scheduledForRequired
      else .lookup key

/-- A pickup 15 minutes to 24 hours ahead. -/
def InWindow (dateNow : Time) : Option Time → Prop
  | none => False
  | some at_ => scheduledMinLeadMs ≤ at_ - dateNow ∧ at_ - dateNow ≤ scheduledMaxLeadMs

instance {dateNow : Time} : DecidablePred (InWindow dateNow)
  | none => inferInstanceAs (Decidable False)
  | some _ => inferInstanceAs (Decidable (_ ∧ _))

/-- What is checked of a new booking only. -/
def verify (env : SoloEnv) (r : SoloRequest) (key : String) : SoloPhase :=
  if r.operation = .scheduled ∧ ¬ InWindow env.dateNow r.scheduledFor.join then
    .failed .scheduledForOutOfWindow
  else match env.quote with
  | .error e => .failed e.error
  | .ok soloFareCents => .insert key soloFareCents

/-- The next statement of a request. -/
def soloStatement (env : SoloEnv) (db : Db) (r : SoloRequest) : SoloPhase → Db × SoloPhase
  | .received => (db, receive r)
  | .lookup key =>
      match findByIdempotencyScope db r.passengerId r.operation.operation key with
      | some existing => (db, replay r existing)
      | none => (db, .verify key)
  | .verify key => (db, verify env r key)
  | .insert key soloFareCents =>
      match insertRide env.t db (r.params key soloFareCents env.newId) with
      | .error _ => (db, .failed .unavailable)
      | .ok (db, some row) => (db, .succeeded (soloResponse row))
      | .ok (db, none) => (db, .read key)
  | .read key =>
      match findByIdempotencyScope db r.passengerId r.operation.operation key with
      | some existing => (db, replay r existing)
      | none => (db, .failed .unavailable)
  | phase => (db, phase)

/-- The next statement of a request, and what befalls it: a response can be lost, or the process,
after the statement committed. -/
def soloStatementFaulty (env : SoloEnv) (db : Db) (r : SoloRequest) (phase : SoloPhase) :
    Db × SoloPhase :=
  let (db', phase') := soloStatement env db r phase
  match env.fault with
  | .none => (db', phase')
  | .failed true => (db', .failed .unavailable)
  | .failed false => (db, .failed .unavailable)
  | .crashed true => (db', .crashed)
  | .crashed false => (db, .crashed)

end Rcab.Rides
