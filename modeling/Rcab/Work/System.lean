import Rcab.Outbox.Pass
import Rcab.Pools.Simulation
import Rcab.Rides.Simulation

/-!
# The backend as one system

The trips' transactions, the hard-fail workers, the relays and the reconcilers over one
database, one statement or transaction at a time and in any order.

What the relays have published stays published, since the queues deliver at least once: a wake
may run whenever a row for it was published before.  The reconcilers act on what their queries
answered, however long ago.
-/

universe u

namespace Rcab

/-- The publication makes a worker wake the ride at this generation. -/
def Outbox.Publication.Wakes (rideId : RideId) (generation : ℕ) : Outbox.Publication → Prop
  | .scheduleWake id _ g => id = rideId ∧ g = generation
  | _ => False

instance {rideId : RideId} {generation : ℕ} :
    DecidablePred (Outbox.Publication.Wakes rideId generation) := fun p ↦ by
  cases p <;> unfold Outbox.Publication.Wakes <;> infer_instance

namespace Work

open Dispatch (Notice handleHardFail)
open Outbox (Drain Publication Due Windows)

structure System where
  db : Db
  relays : ℕ → Drain
  /-- The lease tokens generated so far. -/
  issued : List Uuid
  /-- What the relays have put on the queues. -/
  published : List Publication
  /-- What the reconcilers have read. -/
  seen : List Due
  /-- What people have been told of hard-fails. -/
  sent : List Notice

inductive Event where
  | trip (e : Step)
  /-- A hard-fail job is delivered; when not `told`, its worker crashes after the commit. -/
  | hardFail (t : TxClock) (trip : TripRef) (generation : Option ℕ) (told : Bool)
  /-- A statement on the outbox, of a relay or of a reconciler. -/
  | outbox (e : Outbox.Event)
  /-- A query of a reconciler is answered. -/
  | query (answer : List Due)

namespace System

/-- The outbox and its relays. -/
def world (s : System) : Outbox.World := ⟨s.db.outbox, s.relays, s.issued⟩

def withWorld (s : System) (w : Outbox.World) : System :=
  { s with
    db := { s.db with outbox := w.outbox }
    relays := w.relays
    issued := w.issued }

/-- What an event of the outbox puts on the queues; `add` may throw although it ran. -/
def publishes (w : Outbox.World) : Outbox.Event → List Publication
  | .publish i _ =>
      match w.current i with
      | none => []
      | some row => (Outbox.publication row).toOption.toList
  | _ => []

/-- No trips and no work yet. -/
structure Initial (s : System) : Prop where
  noTrips : s.db.NoTrips
  noPools : s.db.NoPools
  outbox : ∀ r, r ∉ s.db.outbox
  relays : ∀ i, (s.relays i).rows = []
  published : s.published = []
  seen : s.seen = []
  sent : s.sent = []

end System

/-- Relays keep to their drains; a reconciler re-arms and records the intents of rows it read. -/
def Allowed (cfg : Windows) (s : System) : Event → Prop
  | .trip (.wakeScheduled rideId generation) => ∃ p ∈ s.published, p.Wakes rideId generation
  | .outbox (.enqueue message _) => ∃ i ∈ s.seen, i.intent cfg = some message
  | .outbox (.rearm id _) => ∃ i ∈ s.seen, ∃ m ∈ i.intent cfg, m.key = id
  | .outbox e => e.Allowed s.world
  | .query answer => ∀ i ∈ answer, i.Answers s.db
  | _ => True

instance {cfg : Windows} {s : System} : DecidablePred (Allowed cfg s)
  | .trip (.wakeScheduled rideId g) =>
      inferInstanceAs (Decidable (∃ p ∈ s.published, p.Wakes rideId g))
  | .trip (.createRide ..) | .trip (.createOffer ..) | .trip (.acceptInTx ..)
  | .trip (.decline ..) | .trip (.expireLapsed ..) | .trip (.claimSolo ..)
  | .trip (.transition ..) | .trip (.cancel ..) | .trip (.markNoDriver ..)
  | .trip (.rearmScheduledRide ..) | .trip (.openPool ..) | .trip (.joinPool ..)
  | .trip (.closeIfOpen ..) | .trip (.hardFailPool ..) | .trip (.confirmStop ..)
  | .hardFail .. | .outbox (.crash _) => inferInstanceAs (Decidable True)
  | .outbox (.enqueue m _) => inferInstanceAs (Decidable (∃ i ∈ s.seen, i.intent cfg = some m))
  | .outbox (.rearm id _) =>
      inferInstanceAs (Decidable (∃ i ∈ s.seen, ∃ m ∈ i.intent cfg, m.key = id))
  | .outbox (.lease i now locked picked uuid answered) =>
      inferInstanceAs (Decidable
        (Outbox.Event.Allowed s.world (.lease i now locked picked uuid answered)))
  | .outbox (.publish i thrown) =>
      inferInstanceAs (Decidable (Outbox.Event.Allowed s.world (.publish i thrown)))
  | .outbox (.ack i now executed) =>
      inferInstanceAs (Decidable (Outbox.Event.Allowed s.world (.ack i now executed)))
  | .outbox (.fail i now executed) =>
      inferInstanceAs (Decidable (Outbox.Event.Allowed s.world (.fail i now executed)))
  | .query answer => inferInstanceAs (Decidable (∀ i ∈ answer, i.Answers s.db))

section Exec

variable {D : Type u} [LinearOrder D] (dist : Point → Point → D)

/-- The system after an event. -/
def next (s : System) : Event → System
  | .trip e => { s with db := exec dist s.db e }
  | .hardFail t trip generation told =>
      let (db, notices) := handleHardFail t s.db trip generation
      { s with db, sent := if told then notices ++ s.sent else s.sent }
  | .outbox e =>
      { s.withWorld (s.world.next e) with
        published := System.publishes s.world e ++ s.published }
  | .query answer => { s with seen := answer ++ s.seen }

def step (cfg : Windows) (s : System) (e : Event) (s' : System) : Prop :=
  Allowed cfg s e ∧ next dist s e = s'

variable {dist} in
theorem step_next {cfg : Windows} (s : System) (e : Event) (h : Allowed cfg s e) :
    step dist cfg s e (next dist s e) := ⟨h, rfl⟩

/-- A hard-fail writes what one of the trips' transactions does, which wakes nothing. -/
theorem handleHardFail_exec (t : TxClock) (db : Db) (trip : TripRef) (generation : Option ℕ) :
    ∃ e : Step, e.WakesIn (fun _ ↦ False) ∧
      (handleHardFail t db trip generation).1 = exec dist db e := by
  cases trip with
  | solo rideId =>
      simp only [handleHardFail]
      split_ifs
      · refine ⟨.rearmScheduledRide t rideId generation, trivial, ?_⟩
        unfold Dispatch.retryScheduledRide
        simp only [exec]
        split <;> rename_i h <;> rw [h]
      · refine ⟨.markNoDriver t rideId generation, trivial, ?_⟩
        unfold Dispatch.failSolo
        simp only [exec]
        split <;> rename_i h <;> rw [h]
  | shared poolId =>
      refine ⟨.hardFailPool t poolId generation, trivial, ?_⟩
      simp only [handleHardFail, exec]
      split <;> rename_i h <;> rw [h]

/-! ## The reconciler's statements -/

variable {dist} {cfg : Windows} {s : System} {i : Due}

/-- Re-arming or recording an intent is one event. -/
theorem reachable_rearmOrEnqueue (hi : i ∈ s.seen) {m : Outbox.OutboxMessage}
    (hm : i.intent cfg = some m) (t : TxClock) :
    ∃ s', Reachable (step dist cfg) s s' ∧ s'.db = Outbox.rearmOrEnqueue t s.db m := by
  rcases Outbox.rearmOrEnqueue_cases t s.db m with ⟨r, -, heq⟩ | ⟨-, heq⟩
  · exact ⟨_, Reachable.refl.tail (e := .outbox (.rearm m.key t.now)) ⟨⟨i, hi, m, hm, rfl⟩, rfl⟩,
      heq.symm⟩
  · exact ⟨_, Reachable.refl.tail (e := .outbox (.enqueue m t.now)) ⟨⟨i, hi, hm⟩, rfl⟩, heq.symm⟩

/-- What a pass does with a dispatching trip. -/
theorem reachable_reconcileDispatching (hi : i ∈ s.seen) {c : Outbox.ReconcileClock}
    {b : Outbox.Backend} (hb : b.db = s.db) {trip : TripRef} {g : ℕ} {ctx : Outbox.DispatchContext}
    (hm : i.intent cfg = some (Outbox.dispatchIntent trip g)) :
    ∃ s', Reachable (step dist cfg) s s' ∧
      s'.db = (Outbox.reconcileDispatching cfg c b trip g ctx).db := by
  obtain ⟨db, queue⟩ := b
  obtain rfl : db = s.db := hb
  have hcases := Outbox.reconcileDispatching_reconciles cfg c ⟨s.db, queue⟩ trip g ctx
  generalize Outbox.reconcileDispatching cfg c ⟨s.db, queue⟩ trip g ctx = b' at hcases ⊢
  cases hcases with
  | running => exact ⟨s, .refl, rfl⟩
  | retried =>
      exact ⟨_, Reachable.refl.tail (e := .trip (.rearmScheduledRide c.tx trip.id (some g)))
        ⟨trivial, rfl⟩, rfl⟩
  | restarted => exact reachable_rearmOrEnqueue hi hm c.tx
  | closing => exact ⟨s, .refl, rfl⟩
  | restored => exact ⟨s, .refl, rfl⟩

/-- **Refinement**: what a pass of the reconciler does with a row it read is done by events of
the system. -/
theorem reachable_reconcile (hi : i ∈ s.seen) {c : Outbox.ReconcileClock} {w : Outbox.Store}
    (hw : w.backend.db = s.db) :
    ∃ s', Reachable (step dist cfg) s s' ∧ s'.db = (i.reconcile cfg c w).backend.db := by
  cases i with
  | unwokenScheduled r =>
      simp only [Due.reconcile, Outbox.reconcileUnwoken]
      split
      · exact ⟨s, .refl, hw.symm⟩
      rename_i scheduledFor hat
      split_ifs
      · exact ⟨s, .refl, hw.symm⟩
      · rw [hw]
        exact reachable_rearmOrEnqueue hi (by simp [Due.intent, hat]) c.tx
  | soloDispatch r updatedAt => exact reachable_reconcileDispatching hi hw rfl
  | openPool p poolOpenedAt =>
      simp only [Due.reconcile, Outbox.reconcileOpen]
      split_ifs
      · exact ⟨s, .refl, hw.symm⟩
      · rw [hw]
        exact reachable_rearmOrEnqueue hi rfl c.tx
  | closedPool p => exact reachable_reconcileDispatching hi hw rfl

end Exec

end Work

end Rcab
