import Rcab.Lib.Batch
import Rcab.Outbox.Timers

/-!
# The passes of the reconciler

`pass` of `dispatch-reconciler.service.ts`.  Each of the four queries answers with at most 500
of the matching rows, in no order, and the rows are reconciled one after the other.  Of the
columns no other statement reads, the queries read `updated_at` and `pool_opened_at`.

Passes follow one another at least `RECONCILE_EVERY_MS` apart, with Postgres and Redis
answering and nobody else writing.
-/

namespace Rcab.Outbox

open Dispatch

structure Store where
  backend : Backend
  updatedAt : TripRef → Time
  poolOpenedAt : PoolId → Time

inductive Query where
  | unwokenScheduled | soloDispatch | openPools | closedPools
deriving DecidableEq, Repr

/-- A row of an answer. -/
inductive Due where
  | unwokenScheduled (r : Ride)
  | soloDispatch (r : Ride) (updatedAt : Time)
  | openPool (s : SharedRide) (poolOpenedAt : Time)
  | closedPool (s : SharedRide)
deriving DecidableEq, Repr

namespace Due

def trip : Due → TripRef
  | .unwokenScheduled r => .solo r.id
  | .soloDispatch r _ => .solo r.id
  | .openPool s _ => .shared s.rideId
  | .closedPool s => .shared s.rideId

/-- What each query does with a row.  A ride that is re-armed has its `updated_at` set. -/
def reconcile (cfg : Windows) (c : ReconcileClock) (w : Store) : Due → Store
  | .unwokenScheduled r => { w with backend := reconcileUnwoken c w.backend r }
  | .soloDispatch r updatedAt =>
      let b := reconcileSolo cfg c w.backend r updatedAt
      { w with
        backend := b
        updatedAt :=
          if b.db.rides.get r.id = w.backend.db.rides.get r.id then w.updatedAt
          else Function.update w.updatedAt (.solo r.id) c.tx.now }
  | .openPool s poolOpenedAt =>
      { w with backend := reconcileOpen cfg c w.backend s poolOpenedAt }
  | .closedPool s => { w with backend := reconcileClosed cfg c w.backend s }

/-- The work of the trip is there: its job, a timer, or a pending intent. -/
def Covered (b : Backend) : Due → Prop
  | .unwokenScheduled r =>
      b.queue.LiveAt (.scheduledWake r.id 1) ∨ b.queue.LiveAt (.legacyWake r.id) ∨
        IntentPending b.db ⟨.rideWakeSchedule, r.id, 1⟩
  | .soloDispatch r _ =>
      HasWave2 b.queue (.solo r.id) r.dispatchGeneration ∨
        DurableWork b (.solo r.id) r.dispatchGeneration
  | .openPool s _ =>
      b.queue.LiveAt (.poolExpire s.rideId) ∨ b.queue.LiveAt (.legacyPoolExpire s.rideId) ∨
        IntentPending b.db ⟨.poolExpireSchedule, s.rideId, 0⟩
  | .closedPool s =>
      HasWave2 b.queue (.shared s.rideId) s.dispatchGeneration ∨
        DurableWork b (.shared s.rideId) s.dispatchGeneration

/-- The trip has yet to be dispatched; a ride that has a driver has not. -/
def Waiting : Due → Prop
  | .soloDispatch r _ => r.driverId = none
  | _ => True

/-- The trip lost its work. -/
def Lost (b : Backend) (i : Due) : Prop := i.Waiting ∧ ¬ i.Covered b

/-- A pass can restore the work; it skips a scheduled ride without an instant. -/
def Repairable : Due → Prop
  | .unwokenScheduled r => r.scheduledFor ≠ none
  | _ => True

instance : DecidablePred Repairable := fun i ↦ by
  cases i <;> unfold Repairable <;> infer_instance

/-- The row answers its query. -/
def Answers (db : Db) : Due → Prop
  | .unwokenScheduled r => db.rides.get r.id = some r ∧ UnwokenScheduled r
  | .soloDispatch r _ => db.rides.get r.id = some r ∧ SoloDispatching r
  | .openPool s _ => db.sharedRides.get s.rideId = some s ∧ s.poolState = .open_
  | .closedPool s => db.sharedRides.get s.rideId = some s ∧ PoolDispatching s

instance {db : Db} : DecidablePred (Answers db) := fun i ↦ by
  cases i <;> unfold Answers <;> infer_instance

/-- The intent the reconciler re-arms or records for the row. -/
def intent (cfg : Windows) : Due → Option OutboxMessage
  | .unwokenScheduled r =>
      r.scheduledFor.map fun scheduledFor ↦ ⟨.ride, r.id, 1, .rideWakeSchedule scheduledFor, none⟩
  | .soloDispatch r _ => some (dispatchIntent (.solo r.id) r.dispatchGeneration)
  | .openPool s poolOpenedAt =>
      some ⟨.sharedRide, s.rideId, 0,
        .poolExpireSchedule (s.poolClosedAt.getD (poolOpenedAt + cfg.poolTimeoutMs)), none⟩
  | .closedPool s => some (dispatchIntent (.shared s.rideId) s.dispatchGeneration)

end Due

namespace Store

/-- The rows a query matches, however lately touched. -/
def rows (w : Store) : Query → List Due
  | .unwokenScheduled => (w.backend.db.rides.filter UnwokenScheduled).map .unwokenScheduled
  | .soloDispatch =>
      (w.backend.db.rides.filter SoloDispatching).map fun r ↦
        .soloDispatch r (w.updatedAt (.solo r.id))
  | .openPools =>
      (w.backend.db.sharedRides.filter fun s ↦ s.poolState = .open_).map fun s ↦
        .openPool s (w.poolOpenedAt s.rideId)
  | .closedPools => (w.backend.db.sharedRides.filter PoolDispatching).map .closedPool

/-- `updated_at < now() - GRACE_MS`, which the first query does not ask for. -/
def Aged (w : Store) (now : Time) : Due → Prop
  | .unwokenScheduled _ => True
  | i => w.updatedAt i.trip < now - graceMs

instance {w : Store} {now : Time} : DecidablePred (w.Aged now) := fun i ↦ by
  cases i <;> unfold Aged <;> infer_instance

def due (w : Store) (now : Time) (q : Query) : List Due := (w.rows q).filter fun i ↦ w.Aged now i

/-- Every trip that is due has its work. -/
def AllCovered (w : Store) (now : Time) : Prop := ∀ q, ∀ i ∈ w.due now q, ¬ i.Lost w.backend

end Store

/-- One query and what is done with its answer. -/
def QueryStep (cfg : Windows) (start : Time) (q : Query) (w w' : Store) : Prop :=
  ∃ (now : Time) (picked : List Due) (clock : TripRef → ReconcileClock),
    start ≤ now ∧ Batch maxPerPass (w.due now q) picked ∧
    (∀ i ∈ picked, start ≤ (clock i.trip).tx.now) ∧
    w' = picked.foldl (fun w (i : Due) ↦ i.reconcile cfg (clock i.trip) w) w

/-- Queries one after the other. -/
def QuerySteps (cfg : Windows) (start : Time) : List Query → Store → Store → Prop
  | [], w, w' => w' = w
  | q :: qs, w, w' => ∃ w₁, QueryStep cfg start q w w₁ ∧ QuerySteps cfg start qs w₁ w'

/-- A pass begun at `start`. -/
def Pass (cfg : Windows) (start : Time) : Store → Store → Prop :=
  QuerySteps cfg start [.unwokenScheduled, .soloDispatch, .openPools, .closedPools]

/-- Passes one after the other: the `n`th begins at `start n` in `w n`. -/
structure Passes (cfg : Windows) (w₀ : Store) (start : ℕ → Time) (w : ℕ → Store) : Prop where
  init : w 0 = w₀
  pass : ∀ n, Pass cfg (start n) (w n) (w (n + 1))
  apart : ∀ n, start n + reconcileEveryMs ≤ start (n + 1)

/-! ## Rows -/

namespace Due

def query : Due → Query
  | .unwokenScheduled _ => .unwokenScheduled
  | .soloDispatch _ _ => .soloDispatch
  | .openPool _ _ => .openPools
  | .closedPool _ => .closedPools

/-- The row of the trip as it is. -/
def In (w : Store) : Due → Prop
  | .unwokenScheduled r => w.backend.db.rides.get r.id = some r ∧ UnwokenScheduled r
  | .soloDispatch r updatedAt =>
      w.backend.db.rides.get r.id = some r ∧ SoloDispatching r ∧ updatedAt = w.updatedAt (.solo r.id)
  | .openPool s poolOpenedAt =>
      w.backend.db.sharedRides.get s.rideId = some s ∧ s.poolState = .open_ ∧
        poolOpenedAt = w.poolOpenedAt s.rideId
  | .closedPool s => w.backend.db.sharedRides.get s.rideId = some s ∧ PoolDispatching s

variable {w : Store} {i j : Due} {q : Query}

theorem mem_rows : i ∈ w.rows q ↔ i.query = q ∧ i.In w := by
  cases q <;> simp only [Store.rows, List.mem_map, Table.mem_filter]
  all_goals
    constructor
    · rintro ⟨r, ⟨hr, hp⟩, rfl⟩
      exact ⟨rfl, by simp [In, Table.get_of_mem hr, hp]⟩
    · rintro ⟨hq, hi⟩
      cases i <;> cases hq
      exact ⟨_, ⟨Table.mem_of_get hi.1, by first | exact hi.2 | exact hi.2.1⟩,
        by first | rfl | rw [hi.2.2]⟩

/-- A trip has one row. -/
theorem In.unique (hi : i.In w) (hj : j.In w) (h : i.trip = j.trip) : i = j := by
  have hride : ∀ {r r' : Ride}, w.backend.db.rides.get r.id = some r →
      w.backend.db.rides.get r'.id = some r' → r.id = r'.id → r = r' := fun hr hr' hid ↦
    Option.some.inj (hr.symm.trans (hid ▸ hr'))
  have hpool : ∀ {s s' : SharedRide}, w.backend.db.sharedRides.get s.rideId = some s →
      w.backend.db.sharedRides.get s'.rideId = some s' → s.rideId = s'.rideId → s = s' :=
    fun hs hs' hid ↦ Option.some.inj (hs.symm.trans (hid ▸ hs'))
  -- A ride is woken or it is not, and a pool open or closed.
  have hwoken : ∀ {r : Ride}, UnwokenScheduled r → SoloDispatching r → False := fun hu hd ↦ by
    have := hd.2
    rw [hu.2.2] at this
    cases this
  have hopen : ∀ {s : SharedRide}, s.poolState = .open_ → PoolDispatching s → False :=
    fun ho hd ↦ by
      have := hd.1
      rw [ho] at this
      exact this
  cases i <;> cases j <;>
    simp only [trip, TripRef.solo.injEq, TripRef.shared.injEq, reduceCtorEq] at h
  · rw [hride hi.1 hj.1 h]
  · exact (hwoken hi.2 (hride hi.1 hj.1 h ▸ hj.2.1)).elim
  · exact (hwoken hj.2 (hride hi.1 hj.1 h ▸ hi.2.1)).elim
  · obtain rfl := hride hi.1 hj.1 h
    rw [hi.2.2, hj.2.2]
  · obtain rfl := hpool hi.1 hj.1 h
    rw [hi.2.2, hj.2.2]
  · exact (hopen hi.2.1 (hpool hi.1 hj.1 h ▸ hj.2)).elim
  · exact (hopen hj.2.1 (hpool hi.1 hj.1 h ▸ hi.2)).elim
  · rw [hpool hi.1 hj.1 h]

end Due

end Rcab.Outbox
