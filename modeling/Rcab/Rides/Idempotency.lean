import Rcab.Db.Schema

/-!
# The idempotency repository

`idempotency.repository.ts`, one definition for each statement.
-/

namespace Rcab.Rides

/-- `PENDING_RECLAIM_AFTER_MS`. -/
def pendingReclaimAfterMs : Time := 60000

/-- First statement of `claim`: true when the scope was free. -/
def claimInsert (t : TxClock) (db : Db) (scope : IdempotencyScope) (requestFingerprint : String) :
    Db × Bool :=
  match db.idempotencyRecord.get scope with
  | some _ => (db, false)
  | none =>
      ({ db with
        idempotencyRecord := db.idempotencyRecord.insert
          { scope, requestFingerprint, state := .pending, createdAt := t.now } }, true)

/-- The rows `reclaimStale` may take over: still pending, the same intent, older than
the bound. -/
def Stale (scope : IdempotencyScope) (fingerprint : String) (cutoff : Time)
    (r : IdempotencyRecord) : Prop :=
  r.scope = scope ∧ r.state = .pending ∧ r.requestFingerprint = fingerprint ∧ r.createdAt < cutoff

instance {scope : IdempotencyScope} {fingerprint : String} {cutoff : Time} :
    DecidablePred (Stale scope fingerprint cutoff) := fun r ↦
  inferInstanceAs (Decidable (r.scope = scope ∧ r.state = .pending ∧
    r.requestFingerprint = fingerprint ∧ r.createdAt < cutoff))

/-- Second statement: restamp an abandoned claim; true when there was one.  `dateNow`
is the clock of the process, not of the database. -/
def reclaimStale (t : TxClock) (dateNow : Time) (db : Db) (scope : IdempotencyScope)
    (fingerprint : String) : Db × Bool :=
  let stale := Stale scope fingerprint (dateNow - pendingReclaimAfterMs)
  ({ db with
    idempotencyRecord := db.idempotencyRecord.update stale fun r ↦ { r with createdAt := t.now } },
    (db.idempotencyRecord.Any stale : Bool))

/-- Third statement. -/
def find (db : Db) (scope : IdempotencyScope) : Option IdempotencyRecord :=
  db.idempotencyRecord.get scope

/-- Record the replayable result, whatever the state and fingerprint of the record;
`completed_at` is `new Date()`. -/
def completeIn (dateNow : Time) (db : Db) (scope : IdempotencyScope) (resourceId : PoolId)
    (response : CreateRideResponse) : Db :=
  { db with
    idempotencyRecord := db.idempotencyRecord.update (fun r ↦ r.scope = scope) fun r ↦
      { r with
        state := .completed
        resourceId := some resourceId
        response := some response
        completedAt := some dateNow } }

/-- Drop a still-pending claim. -/
def release (db : Db) (scope : IdempotencyScope) : Db :=
  { db with idempotencyRecord := db.idempotencyRecord.delete fun r ↦
      r.scope = scope ∧ r.state = .pending }

end Rcab.Rides
