import Mathlib.Logic.Function.Basic
import Rcab.Lib.Run
import Rcab.Outbox.Repository

/-!
# The relays

`outbox.relay.ts`.  Any number of relays drain the outbox side by side.  A relay leases a
batch and takes its rows one after the other: it publishes a row and acks it, or records
that publishing failed.  Between any two of these it may stall for as long as it likes, and
it may crash at any point.  A statement may throw without having run; of the lease, the
answer may be lost although it ran (of the other two no answer is needed).  Meanwhile
writers record intents and the reconciler re-arms rows.

Timers, kicks and the sharing of one drain among its callers only decide when a relay
drains, and are left out; so is the queue, of which a relay sees whether `add` threw.
-/

namespace Rcab.Outbox

def BATCH : Nat := 50

def LEASE_MS : Int := 30000

/-- What a row becomes on the queues. -/
inductive Publication where
  | dispatchStart (trip : TripRef) (generation : Nat)
  | scheduleWake (rideId : RideId) (scheduledFor : Time) (generation : Nat)
  | poolExpire (rideId : PoolId) (expireAt : Time)
deriving DecidableEq, Repr

/-- `publish`, up to the queue: the error is the message of a `PermanentPublishError`. -/
def publication (row : LeasedOutboxRow) : Except String Publication :=
  match row.dedupeKey.topic with
  | .rideDispatchRequested =>
      .ok (.dispatchStart (.solo row.dedupeKey.aggregateId) row.dedupeKey.generation)
  | .poolDispatchRequested =>
      .ok (.dispatchStart (.shared row.dedupeKey.aggregateId) row.dedupeKey.generation)
  | .rideWakeSchedule =>
      match row.payload with
      | .rideWakeSchedule scheduledFor =>
          .ok (.scheduleWake row.dedupeKey.aggregateId scheduledFor row.dedupeKey.generation)
      | _ => .error "invalid_payload:scheduledFor"
  | .poolExpireSchedule =>
      match row.payload with
      | .poolExpireSchedule expireAt => .ok (.poolExpire row.dedupeKey.aggregateId expireAt)
      | _ => .error "invalid_payload:expireAt"
  | .other _ => .error "unknown_topic"

/-- What `drain` is about to do with a row. -/
inductive Stage where
  | publishing
  | acking
  /-- `recordFailure` -/
  | failing (message : String) (permanent : Bool)
deriving DecidableEq, Repr

/-- A `drain` under way, or at its end when no rows are left. -/
structure Drain where
  /-- The rows yet to be settled; the first is at its `stage`. -/
  rows : List LeasedOutboxRow := []
  stage : Stage := .publishing
  published : Nat := 0
  failed : Nat := 0
deriving DecidableEq, Repr

namespace Drain

/-- `thrown` is the queue's error, if it threw. -/
def publish (d : Drain) (row : LeasedOutboxRow) (thrown : Option String) : Drain :=
  match publication row, thrown with
  | .error message, _ => { d with stage := .failing message true, failed := d.failed + 1 }
  | .ok _, some message => { d with stage := .failing message false, failed := d.failed + 1 }
  | .ok _, none => { d with stage := .acking, published := d.published + 1 }

/-- On to the next row. -/
def advance (d : Drain) : Drain := { d with rows := d.rows.tail, stage := .publishing }

end Drain

structure World where
  outbox : OutboxTable
  relays : ℕ → Drain
  /-- The lease tokens generated so far. -/
  issued : List Uuid

inductive Event where
  /-- `lease`, picking these rows; when not `answered`, its caller sees an error. -/
  | lease (i : ℕ) (now : Time) (locked picked : List DedupeKey) (uuid : DedupeKey → Uuid)
      (answered : Bool)
  | publish (i : ℕ) (thrown : Option String)
  /-- `ack`; when not `executed`, it throws. -/
  | ack (i : ℕ) (now : Time) (executed : Bool)
  /-- `fail`; when not `executed`, it throws. -/
  | fail (i : ℕ) (now : Time) (executed : Bool)
  | crash (i : ℕ)
  /-- A transaction with an `enqueueOutbox` commits. -/
  | enqueue (message : OutboxMessage) (now : Time)
  | rearm (id : DedupeKey) (now : Time)

namespace World

variable (w : World) (i : ℕ)

def setRelay (d : Drain) : World := { w with relays := Function.update w.relays i d }

/-- The row relay `i` is at. -/
def current : Option LeasedOutboxRow := (w.relays i).rows.head?

def next : Event → World
  | .lease i now _ picked uuid answered =>
      let (outbox, rows) := Outbox.lease w.outbox now LEASE_MS picked uuid
      { w.setRelay i { rows := if answered then rows else [] } with
        outbox
        issued := picked.map uuid ++ w.issued }
  | .publish i thrown =>
      match w.current i with
      | none => w
      | some row => w.setRelay i ((w.relays i).publish row thrown)
  | .ack i now executed =>
      match w.current i with
      | none => w
      | some row =>
          { w.setRelay i (w.relays i).advance with
            outbox :=
              if executed then (Outbox.ack w.outbox now row.dedupeKey row.leaseToken).1
              else w.outbox }
  | .fail i now executed =>
      match w.current i, (w.relays i).stage with
      | some row, .failing message permanent =>
          { w.setRelay i (w.relays i).advance with
            outbox :=
              if executed then
                (Outbox.fail w.outbox now row.dedupeKey row.leaseToken message permanent).1
              else w.outbox }
      | _, _ => w
  | .crash i => w.setRelay i {}
  | .enqueue message now => { w with outbox := w.outbox.insert (message.row now) }
  | .rearm id now => { w with outbox := (Outbox.rearm w.outbox now id).1 }

/-- The rows are as their writers left them, and no relay has begun. -/
structure Initial : Prop where
  rows : ∀ r ∈ w.outbox, r.attempts = 0 ∧ 0 < r.maxAttempts ∧ r.leaseToken = none ∧
    r.processedAt = none ∧ r.failedAt = none
  relays : ∀ i, (w.relays i).rows = []

end World

/-- `recordFailure` is next. -/
def Stage.Failing : Stage → Prop
  | .failing _ _ => True
  | _ => False

instance : DecidablePred Stage.Failing := fun stage ↦ by
  cases stage <;> unfold Stage.Failing <;> infer_instance

/-- A drain goes through its rows in turn; lease tokens are generated fresh. -/
def Event.Allowed (w : World) : Event → Prop
  | .lease i now locked picked uuid _ => (w.relays i).rows = [] ∧
      Selected w.outbox now BATCH locked picked ∧
        (picked.map uuid).Nodup ∧ ∀ id ∈ picked, uuid id ∉ w.issued
  | .publish i _ => (w.relays i).rows ≠ [] ∧ (w.relays i).stage = .publishing
  | .ack i _ _ => (w.relays i).rows ≠ [] ∧ (w.relays i).stage = .acking
  | .fail i _ _ => (w.relays i).rows ≠ [] ∧ (w.relays i).stage.Failing
  | _ => True

instance {w : World} : DecidablePred (Event.Allowed w) := fun e ↦ by
  cases e <;> unfold Event.Allowed <;> infer_instance

/-- The system. -/
def step (w : World) (e : Event) (w' : World) : Prop := e.Allowed w ∧ w.next e = w'

/-! ## What an event does to one row -/

/-- The event makes the row available: its writer commits, or it is re-armed. -/
def Event.Arms (w : World) (id : DedupeKey) : Event → Prop
  | .enqueue message now => id = (message.row now).dedupeKey ∧ w.outbox.get id = none
  | .rearm id' _ => id = id' ∧ ∃ r ∈ w.outbox.get id, r.Settled
  | _ => False

/-- The event leases the row. -/
def Event.Leases (id : DedupeKey) : Event → Prop
  | .lease _ _ _ picked _ _ => id ∈ picked
  | _ => False

/-- An entry of a trace that makes the row available. -/
def Arming (id : DedupeKey) (p : World × Event) : Prop := p.2.Arms p.1 id

/-- An entry of a trace that leases the row. -/
def Leasing (id : DedupeKey) (p : World × Event) : Prop := p.2.Leases id

instance {w : World} {id : DedupeKey} : DecidablePred (Event.Arms w id) := fun e ↦ by
  cases e <;> unfold Event.Arms <;> infer_instance

instance {id : DedupeKey} : DecidablePred (Event.Leases id) := fun e ↦ by
  cases e <;> unfold Event.Leases <;> infer_instance

instance {id : DedupeKey} : DecidablePred (Arming id) := fun p ↦
  inferInstanceAs (Decidable (p.2.Arms p.1 id))

instance {id : DedupeKey} : DecidablePred (Leasing id) := fun p ↦
  inferInstanceAs (Decidable (p.2.Leases id))

open Lease (Action Step)

/-- The step of the row's item that an event performs. -/
inductive Performs (w : World) (id : DedupeKey) : Event → Action Uuid → Prop
  | arm {e : Event} (h : e.Arms w id) : Performs w id e .arm
  | grant {i now locked picked uuid answered} (h : id ∈ picked) (hfresh : uuid id ∉ w.issued) :
      Performs w id (.lease i now locked picked uuid answered) (.grant (uuid id))
  | finish {i now row} (hrow : w.current i = some row) (hst : (w.relays i).stage = .acking)
      (hid : id = row.dedupeKey) : Performs w id (.ack i now true) (.finish row.leaseToken)
  | release {i now row} (hrow : w.current i = some row) (hid : id = row.dedupeKey) :
      Performs w id (.fail i now true) (.release row.leaseToken)
  | bury {i now row} (hrow : w.current i = some row) (hid : id = row.dedupeKey) :
      Performs w id (.fail i now true) (.bury row.leaseToken)

variable {w w' : World} {e : Event} {i j : ℕ} {row : LeasedOutboxRow}

namespace Performs

variable {a : Action Uuid} {id : DedupeKey}

theorem arms_iff (h : Performs w id e a) : e.Arms w id ↔ a = .arm := by
  cases h with
  | arm h => exact iff_of_true h rfl
  | _ => exact iff_of_false not_false nofun

theorem leases_iff (h : Performs w id e a) : e.Leases id ↔ ∃ token, a = .grant token := by
  cases h with
  | grant h _ => exact iff_of_true h ⟨_, rfl⟩
  | arm h => cases e <;> first | exact h.elim | exact iff_of_false not_false nofun
  | _ => exact iff_of_false not_false nofun

end Performs

/-- **Refinement**: an event leaves a row alone or performs one step of its item. -/
theorem item_step (h : step w e w') (id : DedupeKey) :
    (w'.outbox.get id = w.outbox.get id ∧ ¬ e.Arms w id ∧ ¬ e.Leases id) ∨
      ∃ a, Performs w id e a ∧ Step (itemAt w.outbox id) a (itemAt w'.outbox id) := by
  obtain ⟨he, rfl⟩ := h
  cases e with
  | lease i now locked picked uuid answered =>
      obtain ⟨-, ⟨-, -, hdue, -⟩, -, hfresh⟩ := he
      rcases lease_step (fun id h ↦ (hdue id h).2) id with ⟨hmem, hget⟩ | ⟨hmem, hs⟩
      · exact Or.inl ⟨hget, not_false, hmem⟩
      · exact Or.inr ⟨_, .grant hmem (hfresh id hmem), hs⟩
  | publish i thrown =>
      refine Or.inl ⟨?_, not_false, not_false⟩
      simp only [World.next]
      split <;> rfl
  | ack i now executed =>
      simp only [World.next]
      split
      · exact Or.inl ⟨rfl, not_false, not_false⟩
      · rename_i row hrow
        cases executed with
        | false => exact Or.inl ⟨rfl, not_false, not_false⟩
        | true =>
            rcases ack_step id with hget | ⟨hid, hs⟩
            · exact Or.inl ⟨hget, not_false, not_false⟩
            · exact Or.inr ⟨_, .finish hrow he.2 hid, hid ▸ hs⟩
  | fail i now executed =>
      simp only [World.next]
      split
      · rename_i row message permanent hrow hst
        cases executed with
        | false => exact Or.inl ⟨rfl, not_false, not_false⟩
        | true =>
            rcases fail_step id with hget | ⟨hid, a, rfl | rfl, hs⟩
            · exact Or.inl ⟨hget, not_false, not_false⟩
            · exact Or.inr ⟨_, .release hrow hid, hid ▸ hs⟩
            · exact Or.inr ⟨_, .bury hrow hid, hid ▸ hs⟩
      · exact Or.inl ⟨rfl, not_false, not_false⟩
  | crash i => exact Or.inl ⟨rfl, not_false, not_false⟩
  | enqueue message now =>
      rcases insert_step id with ⟨hget, hne⟩ | ⟨hid, hnone, hs⟩
      · exact Or.inl ⟨hget, fun h ↦ hne h.1 h.2, not_false⟩
      · exact Or.inr ⟨_, .arm ⟨hid, hnone⟩, hs⟩
  | rearm id' now =>
      rcases rearm_step w.outbox now id' id with ⟨hget, hns⟩ | ⟨rfl, ⟨r, hr, hset⟩, hs⟩
      · refine Or.inl ⟨hget, ?_, not_false⟩
        rintro ⟨hid, r, hr, hset⟩
        exact hns hid r (hid ▸ hr) hset
      · exact Or.inr ⟨_, .arm ⟨rfl, r, hr, hset⟩, hs⟩

/-! ## What an event does to one relay -/

/-- The drain an event leaves relay `i` with. -/
inductive RelayMove (w : World) (i : ℕ) : Event → Drain → Prop
  | same {e : Event} : RelayMove w i e (w.relays i)
  | lease {now locked picked uuid answered} (hi : (w.relays i).rows = []) :
      RelayMove w i (.lease i now locked picked uuid answered)
        { rows := if answered then (Outbox.lease w.outbox now LEASE_MS picked uuid).2 else [] }
  | publish {thrown row} (hrow : w.current i = some row) :
      RelayMove w i (.publish i thrown) ((w.relays i).publish row thrown)
  | ack {now executed row} (hrow : w.current i = some row) :
      RelayMove w i (.ack i now executed) (w.relays i).advance
  | fail {now executed row} (hrow : w.current i = some row) :
      RelayMove w i (.fail i now executed) (w.relays i).advance
  | crash : RelayMove w i (.crash i) {}

namespace World

@[simp] theorem setRelay_self (w : World) (i : ℕ) (d : Drain) : (w.setRelay i d).relays i = d :=
  Function.update_self ..

theorem setRelay_of_ne (d : Drain) (h : i ≠ j) : (w.setRelay j d).relays i = w.relays i :=
  Function.update_of_ne h ..

end World

/-- An event of relay `j` leaves the others alone. -/
theorem relayMove_setRelay {d : Drain} (h : i = j → RelayMove w i e d) :
    RelayMove w i e ((w.setRelay j d).relays i) := by
  by_cases hij : i = j
  · subst hij
    rw [World.setRelay_self]
    exact h rfl
  · rw [World.setRelay_of_ne d hij]
    exact .same

theorem relay_step (h : step w e w') (i : ℕ) : RelayMove w i e (w'.relays i) := by
  obtain ⟨he, rfl⟩ := h
  cases e with
  | lease j now locked picked uuid answered =>
      exact relayMove_setRelay fun hij ↦ by subst hij; exact .lease he.1
  | publish j thrown =>
      simp only [World.next]
      split
      · exact .same
      · rename_i row hrow
        exact relayMove_setRelay fun hij ↦ by subst hij; exact .publish hrow
  | ack j now executed =>
      simp only [World.next]
      split
      · exact .same
      · rename_i row hrow
        exact relayMove_setRelay fun hij ↦ by subst hij; exact .ack hrow
  | fail j now executed =>
      simp only [World.next]
      split
      · rename_i row message permanent hrow hst
        exact relayMove_setRelay fun hij ↦ by subst hij; exact .fail hrow
      · exact .same
  | crash j => exact relayMove_setRelay fun hij ↦ by subst hij; exact .crash
  | enqueue message now => exact .same
  | rearm id now => exact .same

@[simp] theorem Drain.publish_rows (d : Drain) (row : LeasedOutboxRow) (thrown : Option String) :
    (d.publish row thrown).rows = d.rows := by
  unfold Drain.publish
  split <;> rfl

/-- A relay acks what it has published. -/
theorem Drain.publish_acking {d : Drain} {thrown : Option String}
    (h : (d.publish row thrown).stage = .acking) :
    thrown = none ∧ ∃ p, publication row = .ok p := by
  unfold Drain.publish at h
  split at h
  · cases h
  · cases h
  · rename_i p hp
    exact ⟨rfl, p, hp⟩

/-- A relay's rows come from its own leases. -/
theorem rows_of_step (h : step w e w') (hrow : row ∈ (w'.relays i).rows) :
    row ∈ (w.relays i).rows ∨ ∃ now locked picked uuid answered,
      e = .lease i now locked picked uuid answered ∧ row.dedupeKey ∈ picked ∧
        row.leaseToken = uuid row.dedupeKey := by
  have hm := relay_step h i
  generalize w'.relays i = d at hm hrow
  cases hm with
  | same => exact Or.inl hrow
  | publish => exact Or.inl (by simpa using hrow)
  | ack | fail => exact Or.inl (List.mem_of_mem_tail hrow)
  | crash => cases hrow
  | @lease now locked picked uuid answered =>
      cases answered with
      | false => cases hrow
      | true => exact Or.inr ⟨now, locked, picked, uuid, true, rfl, of_mem_lease hrow⟩

end Rcab.Outbox
