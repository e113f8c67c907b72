import Rcab.Db.Schema

/-!
# Recording a work intent

`outbox.writer.ts`.
-/

namespace Rcab.Outbox

/-- `OutboxMessage`. -/
structure OutboxMessage where
  aggregateType : OutboxAggregateType
  aggregateId : Uuid
  generation : Nat
  payload : OutboxPayload
  /-- Earliest publish instant; `now()` by default. -/
  availableAt : Option Time
deriving DecidableEq, Repr

/-- The topic a payload belongs to. -/
def topicOf : OutboxPayload → OutboxTopic
  | .rideDispatchRequested _ => .rideDispatchRequested
  | .rideWakeSchedule _ => .rideWakeSchedule
  | .poolDispatchRequested _ _ => .poolDispatchRequested
  | .poolExpireSchedule _ => .poolExpireSchedule

/-- The pending row of a message. -/
def OutboxMessage.row (m : OutboxMessage) (now : Time) : OutboxRow where
  dedupeKey := ⟨topicOf m.payload, m.aggregateId, m.generation⟩
  aggregateType := m.aggregateType
  payload := m.payload
  availableAt := m.availableAt.getD now

/-- Record an intent with the mutation it belongs to; nothing when it exists
already (no caller reads the Boolean that tells which). -/
def enqueueOutbox (t : TxClock) (db : Db) (message : OutboxMessage) : Db :=
  { db with outbox := db.outbox.insert (message.row t.now) }

end Rcab.Outbox
