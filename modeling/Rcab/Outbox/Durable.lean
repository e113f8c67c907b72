import Rcab.Outbox.Reconciler

/-!
# What the reconciler restores

Work of a trip is durable when a job that will still run stands for it, or an intent the
relays have yet to publish.  `reconcileDispatching` leaves a dispatching trip with durable
work, or moves a scheduled ride on to the next generation, whose intent is then pending.
-/

namespace Rcab.Outbox

open Dispatch Scheduled

/-- An intent the relays have yet to publish. -/
def IntentPending (db : Db) (key : DedupeKey) : Prop :=
  ∃ r ∈ db.outbox.get key, ¬ r.Settled

/-- The key of the intent to dispatch the trip. -/
def dispatchKey (trip : TripRef) (generation : Nat) : DedupeKey :=
  (dispatchIntent trip generation).key

/-- A start or hard-fail job that will still run, or a pending intent. -/
def DurableWork (b : Backend) (trip : TripRef) (generation : Nat) : Prop :=
  b.queue.LiveAt (.dispatchStart trip generation) ∨
    (b.queue.LiveAt (.hardFail trip generation) ∨ b.queue.LiveAt (.legacyHardFail trip)) ∨
      IntentPending b.db (dispatchKey trip generation)

section Rearm

variable {t : TxClock} {db : Db} {m : OutboxMessage} {key : DedupeKey}

/-- Re-arming touches nothing but the outbox. -/
theorem rearmOrEnqueue_eq (t : TxClock) (db : Db) (m : OutboxMessage) :
    ∃ outbox, rearmOrEnqueue t db m = { db with outbox } := by
  unfold rearmOrEnqueue
  dsimp only
  split_ifs
  · exact ⟨_, rfl⟩
  · exact ⟨_, rfl⟩

/-- A row is re-armed where there is one, and else written. -/
theorem rearmOrEnqueue_cases (t : TxClock) (db : Db) (m : OutboxMessage) :
    (∃ r, db.outbox.get m.key = some r ∧
      rearmOrEnqueue t db m = { db with outbox := (rearm db.outbox t.now m.key).1 }) ∨
    db.outbox.get m.key = none ∧ rearmOrEnqueue t db m = enqueueOutbox t db m := by
  cases hg : db.outbox.get m.key with
  | none =>
      have hno : ∀ r ∈ db.outbox, ¬ (r.dedupeKey = m.key ∧ r.Settled) := fun r hr hk ↦
        Table.get_eq_none.mp hg r hr hk.1
      have hsame : (rearm db.outbox t.now m.key).1 = db.outbox := by
        rw [rearm, Table.update_eq_self hno]
      have hex : (rearm db.outbox t.now m.key).2 = false := by
        have : ¬ db.outbox.Any fun r ↦ r.dedupeKey = m.key ∧ r.Settled := by
          rintro ⟨r, hr, hk⟩
          exact hno r hr hk
        simp [rearm, hg, this]
      right
      simp only [rearmOrEnqueue, hex, hsame, Bool.false_eq_true, ↓reduceIte, true_and]
  | some r =>
      have hex : (rearm db.outbox t.now m.key).2 = true := by simp [rearm, hg]
      exact Or.inl ⟨r, rfl, by simp only [rearmOrEnqueue, hex, ↓reduceIte]⟩

/-- A new intent is pending, unless its key is that of a settled one. -/
theorem enqueueOutbox_pending (h : ∀ r ∈ db.outbox.get m.key, ¬ r.Settled) :
    IntentPending (enqueueOutbox t db m) m.key := by
  show ∃ r ∈ (db.outbox.insert (m.row t.now)).get m.key, ¬ r.Settled
  cases hg : db.outbox.get m.key with
  | none =>
      have hget := Table.get_insert (t := db.outbox) (k := m.key) (r := m.row t.now) hg
      rw [if_pos (by rfl)] at hget
      exact ⟨m.row t.now, hget, by simp [OutboxRow.Settled, OutboxMessage.row]⟩
  | some r =>
      have hkept := Table.insert_of_isSome (t := db.outbox) (r := m.row t.now)
        (Option.isSome_iff_exists.mpr ⟨r, hg⟩)
      rw [hkept]
      exact ⟨r, hg, h r hg⟩

/-- A re-armed row is pending, wherever it came from. -/
theorem rearmOrEnqueue_pending (t : TxClock) (db : Db) (m : OutboxMessage) :
    IntentPending (rearmOrEnqueue t db m) m.key := by
  rcases rearmOrEnqueue_cases t db m with ⟨r, hg, heq⟩ | ⟨hg, heq⟩
  · rw [heq]
    have hk : r.dedupeKey = m.key := Table.key_of_get hg
    by_cases hset : r.Settled
    · refine ⟨r.rearmed t.now, ?_, by simp [OutboxRow.Settled, OutboxRow.rearmed]⟩
      simp [rearm, hg, hk, hset]
    · exact ⟨r, by simp [rearm, hg, hset], hset⟩
  · rw [heq]
    exact enqueueOutbox_pending (by simp [hg])

/-- A new intent leaves those of other keys as they are. -/
theorem get_enqueueOutbox_ne (h : key ≠ m.key) :
    (enqueueOutbox t db m).outbox.get key = db.outbox.get key := by
  show (db.outbox.insert (m.row t.now)).get key = _
  cases hg : db.outbox.get m.key with
  | none => exact (Table.get_insert (t := db.outbox) (r := m.row t.now) hg).trans (if_neg h)
  | some r =>
      have hkept := Table.insert_of_isSome (t := db.outbox) (r := m.row t.now)
        (Option.isSome_iff_exists.mpr ⟨r, hg⟩)
      rw [hkept]

/-- The intents of other keys stay as they are. -/
theorem get_rearmOrEnqueue_ne (h : key ≠ m.key) :
    (rearmOrEnqueue t db m).outbox.get key = db.outbox.get key := by
  rcases rearmOrEnqueue_cases t db m with ⟨r, hg, heq⟩ | ⟨hg, heq⟩
  · rw [heq]
    exact Table.get_update_key (OutboxRow.rearmed_dedupeKey · t.now) (fun _ hr ↦ hr.1) h
  · rw [heq]
    exact get_enqueueOutbox_ne h

/-- What was pending stays pending. -/
theorem IntentPending.rearmOrEnqueue (h : IntentPending db key) :
    IntentPending (rearmOrEnqueue t db m) key := by
  by_cases hk : key = m.key
  · exact hk ▸ rearmOrEnqueue_pending t db m
  · unfold IntentPending
    rwa [get_rearmOrEnqueue_ne hk]

/-- The keys of the outbox stay, or the missing one is added: none gets a second row. -/
def KeysKept (key : DedupeKey) (db db' : Db) : Prop :=
  db'.outbox.rows.map OutboxRow.dedupeKey = db.outbox.rows.map OutboxRow.dedupeKey ∨
    db.outbox.get key = none ∧ db'.outbox.rows.map OutboxRow.dedupeKey =
      db.outbox.rows.map OutboxRow.dedupeKey ++ [key]

theorem keysKept_enqueueOutbox (t : TxClock) (db : Db) (m : OutboxMessage) :
    KeysKept m.key db (enqueueOutbox t db m) := by
  cases hg : db.outbox.get m.key with
  | none =>
      refine Or.inr ⟨hg, ?_⟩
      have := Table.rows_insert (t := db.outbox) (r := m.row t.now) hg
      show (db.outbox.insert (m.row t.now)).rows.map OutboxRow.dedupeKey = _
      rw [this, List.map_append]
      rfl
  | some r =>
      have := Table.insert_of_isSome (t := db.outbox) (r := m.row t.now)
        (Option.isSome_iff_exists.mpr ⟨r, hg⟩)
      left
      show (db.outbox.insert (m.row t.now)).rows.map OutboxRow.dedupeKey = _
      rw [this]

theorem keysKept_rearmOrEnqueue (t : TxClock) (db : Db) (m : OutboxMessage) :
    KeysKept m.key db (rearmOrEnqueue t db m) := by
  rcases rearmOrEnqueue_cases t db m with ⟨r, hg, heq⟩ | ⟨hg, heq⟩
  · rw [heq]
    exact Or.inl (Table.map_key_update fun r ↦ r.rearmed_dedupeKey t.now)
  · rw [heq]
    exact keysKept_enqueueOutbox t db m

end Rearm

/-! ## Timers -/

section Timers

variable {cfg : Windows} {now : Time} {q : Queue} {trip : TripRef} {g : ℕ}
  {scheduled hasHardFail : Bool} {base : Time} {id : JobId}

/-- Taking a finished job away and adding its successor stops no other. -/
theorem Queue.LiveAt.renew {id' : JobId} {data : JobData} {delay : Int} (h : q.LiveAt id) :
    ((q.removeFinished id').add id' data delay).LiveAt id :=
  (Queue.liveAt_removeFinished.mpr h).add

/-- What was not running runs again. -/
theorem Queue.liveAt_renew {data : JobData} {delay : Int} (h : ¬ q.LiveAt id) :
    ((q.removeFinished id).add id data delay).LiveAt id :=
  Queue.liveAt_add_self (Queue.removeFinished_self h)

/-- Restoring timers stops no job. -/
theorem Queue.LiveAt.restoreTimers (h : q.LiveAt id) :
    (restoreTimers cfg now q trip g scheduled hasHardFail base).LiveAt id := by
  unfold Outbox.restoreTimers
  dsimp only
  split_ifs
  · exact h.renew
  · exact h
  · exact h.renew.renew
  · exact h.renew

/-- A hard-fail job of the trip will still run. -/
def HasHardFail (q : Queue) (trip : TripRef) (g : ℕ) : Prop :=
  q.LiveAt (.hardFail trip g) ∨ q.LiveAt (.legacyHardFail trip)

instance : Decidable (HasHardFail q trip g) := inferInstanceAs (Decidable (_ ∨ _))

theorem hasLiveJob_hardFail :
    q.hasLiveJob [.hardFail trip g, .legacyHardFail trip] = true ↔ HasHardFail q trip g := by
  rw [Queue.hasLiveJob_iff]
  simp [HasHardFail]

/-- The hard-fail of the trip stands after its timers were restored. -/
theorem hardFail_restoreTimers
    (hq : hasHardFail = q.hasLiveJob [.hardFail trip g, .legacyHardFail trip]) :
    HasHardFail (restoreTimers cfg now q trip g scheduled hasHardFail base) trip g := by
  cases hasHardFail with
  | true => exact (hasLiveJob_hardFail.mp hq.symm).imp (·.restoreTimers) (·.restoreTimers)
  | false =>
      left
      have hno : ¬ q.LiveAt (.hardFail trip g) := fun hl ↦ by
        have := hasLiveJob_hardFail.mpr (Or.inl hl : HasHardFail q trip g)
        rw [← hq] at this
        cases this
      simp only [restoreTimers, Bool.false_eq_true, ↓reduceIte]
      split_ifs
      · exact (Queue.liveAt_renew hno).renew
      · exact Queue.liveAt_renew hno

end Timers

/-! ## One trip -/

section Trip

variable {cfg : Windows} {c : ReconcileClock} {b : Backend} {trip : TripRef} {g : ℕ}
  {ctx : DispatchContext}

/-- What reconciling one trip can do. -/
inductive Reconciles (cfg : Windows) (c : ReconcileClock) (b : Backend) (trip : TripRef) (g : ℕ)
    (ctx : DispatchContext) : Backend → Prop
  /-- The start job is there. -/
  | running (hl : b.queue.LiveAt (.dispatchStart trip g)) : Reconciles cfg c b trip g ctx b
  /-- The window of a scheduled ride is over. -/
  | retried (hl : ¬ b.queue.LiveAt (.dispatchStart trip g)) (hno : ¬ HasHardFail b.queue trip g)
      (hs : ctx.scheduled = true)
      (hlate : (offerSummary b.db trip g).firstOfferedAt.getD ctx.idleSince +
        cfg.hardFailFor ctx.scheduled ≤ c.windowNow) :
      Reconciles cfg c b trip g ctx
        { b with db := (rearmScheduledRide c.tx b.db trip.id (some g)).1 }
  /-- Wave 1 is started again. -/
  | restarted (hl : ¬ b.queue.LiveAt (.dispatchStart trip g)) (hno : ¬ HasHardFail b.queue trip g)
      (hw : ¬ (ctx.scheduled = true ∧ (offerSummary b.db trip g).firstOfferedAt.getD ctx.idleSince +
        cfg.hardFailFor ctx.scheduled ≤ c.windowNow))
      (hc : (offerSummary b.db trip g).firstOfferedAt = none) :
      Reconciles cfg c b trip g ctx
        ⟨rearmOrEnqueue c.tx b.db (dispatchIntent trip g),
          (b.queue.removeFinished (.dispatchStart trip g)).removeFinished (.hardFail trip g)⟩
  /-- Nothing was offered, but the hard-fail is there. -/
  | closing (hh : HasHardFail b.queue trip g)
      (hc : (offerSummary b.db trip g).firstOfferedAt = none) : Reconciles cfg c b trip g ctx b
  /-- The timers are restored. -/
  | restored (base : Time) (hbase : (offerSummary b.db trip g).firstOfferedAt = some base) :
      Reconciles cfg c b trip g ctx
        { b with
          queue := restoreTimers cfg c.timerNow b.queue trip g ctx.scheduled
            (b.queue.hasLiveJob [.hardFail trip g, .legacyHardFail trip]) base }

/-- Nothing was offered just when there is no first offer. -/
theorem offerSummary_count (db : Db) (trip : TripRef) (g : ℕ) :
    (offerSummary db trip g).count = 0 ↔ (offerSummary db trip g).firstOfferedAt = none := by
  simp [offerSummary, List.min?_eq_none_iff]

theorem reconcileDispatching_reconciles (cfg : Windows) (c : ReconcileClock) (b : Backend)
    (trip : TripRef) (g : ℕ) (ctx : DispatchContext) :
    Reconciles cfg c b trip g ctx (reconcileDispatching cfg c b trip g ctx) := by
  unfold reconcileDispatching
  by_cases hl : b.queue.LiveAt (.dispatchStart trip g)
  · have : b.queue.hasLiveJob [.dispatchStart trip g] = true := by simp [Queue.hasLiveJob, hl]
    rw [if_pos this]
    exact .running hl
  have : ¬ b.queue.hasLiveJob [.dispatchStart trip g] = true := by simp [Queue.hasLiveJob, hl]
  rw [if_neg this]
  dsimp only
  split_ifs with hw hr
  · exact .retried hl (fun hh ↦ hw.2.1 (hasLiveJob_hardFail.mpr hh)) hw.1 hw.2.2
  · refine .restarted hl (fun hh ↦ hr.1 (hasLiveJob_hardFail.mpr hh)) ?_
      ((offerSummary_count b.db trip g).mp hr.2)
    exact fun hlate ↦ hw ⟨hlate.1, hr.1, hlate.2⟩
  · split
    · rename_i hnone
      refine .closing ?_ hnone
      by_contra hno
      exact hr ⟨fun h ↦ hno (hasLiveJob_hardFail.mp h), (offerSummary_count b.db trip g).mpr hnone⟩
    · rename_i base hbase
      exact .restored base hbase

end Trip

end Rcab.Outbox
