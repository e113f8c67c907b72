import Rcab.Lib.Lease
import Rcab.Outbox.Writer

/-!
# Leasing and settling outbox rows

`outbox.repository.ts`.  Each method is one `UPDATE`, and so takes effect at once; which of
the due rows a lease picks is settled by `Selected`.  `stats` only reads and is left out.

A row is a work item under a fenced lease (`OutboxRow.item`), and each `UPDATE` is a step of
that item.
-/

namespace Rcab

namespace OutboxRow

/-- The row is published or given up. -/
def Settled (r : OutboxRow) : Prop := r.processedAt.isSome ∨ r.failedAt.isSome

instance {r : OutboxRow} : Decidable r.Settled := inferInstanceAs (Decidable (_ ∨ _))

/-- `lease`: the row can be leased. -/
def Due (r : OutboxRow) (now : Time) : Prop :=
  r.processedAt = none ∧ r.failedAt = none ∧ r.availableAt ≤ now ∧ ∀ u ∈ r.leasedUntil, u < now

instance {r : OutboxRow} {now : Time} : Decidable (r.Due now) :=
  inferInstanceAs (Decidable (_ ∧ _))

/-- `ack` and `fail`: the row is leased under the token. -/
def LeasedAs (r : OutboxRow) (id : DedupeKey) (leaseToken : Uuid) : Prop :=
  r.dedupeKey = id ∧ r.leaseToken = some leaseToken ∧ r.processedAt = none ∧ r.failedAt = none

instance {id : DedupeKey} {leaseToken : Uuid} : DecidablePred fun r : OutboxRow ↦
    r.LeasedAs id leaseToken := fun _ ↦ inferInstanceAs (Decidable (_ ∧ _))

def leased (r : OutboxRow) (now : Time) (leaseMs : Int) (leaseToken : Uuid) : OutboxRow :=
  { r with
    leaseToken := some leaseToken
    leasedUntil := some (now + leaseMs)
    attempts := r.attempts + 1 }

def acked (r : OutboxRow) (now : Time) : OutboxRow :=
  { r with
    processedAt := some now
    leaseToken := none
    leasedUntil := none
    lastError := none }

/-- Backs off `2^attempts` seconds, at most 300, until the attempts are used up. -/
def failed (r : OutboxRow) (now : Time) (error : String) (permanent : Bool) : OutboxRow :=
  { r with
    lastError := some (String.ofList (error.toList.take 2000))
    availableAt := now + min (2 ^ r.attempts) 300 * 1000
    failedAt := if permanent ∨ r.attempts ≥ r.maxAttempts then some now else none
    leaseToken := none
    leasedUntil := none }

def rearmed (r : OutboxRow) (now : Time) : OutboxRow :=
  { r with
    processedAt := none
    failedAt := none
    attempts := 0
    availableAt := now
    leaseToken := none
    leasedUntil := none }

variable (r : OutboxRow) (now : Time)

@[simp] theorem leased_dedupeKey (leaseMs : Int) (leaseToken : Uuid) :
    (r.leased now leaseMs leaseToken).dedupeKey = r.dedupeKey := rfl

@[simp] theorem acked_dedupeKey : (r.acked now).dedupeKey = r.dedupeKey := rfl

@[simp] theorem failed_dedupeKey (error : String) (permanent : Bool) :
    (r.failed now error permanent).dedupeKey = r.dedupeKey := rfl

@[simp] theorem rearmed_dedupeKey : (r.rearmed now).dedupeKey = r.dedupeKey := rfl

end OutboxRow

namespace Outbox

/-- `RETURNING` of `lease`. -/
structure LeasedOutboxRow where
  dedupeKey : DedupeKey
  aggregateType : OutboxAggregateType
  payload : OutboxPayload
  /-- Includes this lease. -/
  attempts : Nat
  maxAttempts : Nat
  leaseToken : Uuid
deriving DecidableEq, Repr

inductive FailOutcome where
  | retry | exhausted | lostLease
deriving DecidableEq, Repr

abbrev OutboxTable := Table OutboxRow.dedupeKey

variable (t : OutboxTable) (now : Time)

/-- `SELECT … ORDER BY available_at LIMIT … FOR UPDATE SKIP LOCKED`: the `picked` rows are
due, and no due row was passed over for a later one, or below the limit, except those
`locked` by another statement or committed after the snapshot. -/
def Selected (limit : Nat) (locked picked : List DedupeKey) : Prop :=
  picked.Nodup ∧ picked.length ≤ limit ∧
  (∀ id ∈ picked, id ∉ locked ∧ ∃ r ∈ t.get id, r.Due now) ∧
  ∀ r ∈ t.rows, r.Due now → r.dedupeKey ∉ locked → r.dedupeKey ∉ picked →
    picked.length = limit ∧ ∀ id ∈ picked, ∀ s ∈ t.get id, s.availableAt ≤ r.availableAt

instance {limit : Nat} {locked picked : List DedupeKey} :
    Decidable (Selected t now limit locked picked) := inferInstanceAs (Decidable (_ ∧ _))

/-- Lease the picked rows for `leaseMs`, each under a token of its own. -/
def lease (leaseMs : Int) (picked : List DedupeKey) (uuid : DedupeKey → Uuid) :
    OutboxTable × List LeasedOutboxRow :=
  let t := t.update (fun r ↦ r.dedupeKey ∈ picked)
    (fun r ↦ r.leased now leaseMs (uuid r.dedupeKey)) fun r ↦ r.leased_dedupeKey now leaseMs _
  (t, picked.filterMap fun id ↦ (t.get id).map fun r ↦
    ⟨id, r.aggregateType, r.payload, r.attempts, r.maxAttempts, uuid id⟩)

/-- Record publication; `false` when the lease was lost. -/
def ack (id : DedupeKey) (leaseToken : Uuid) : OutboxTable × Bool :=
  (t.update (fun r ↦ r.LeasedAs id leaseToken) (fun r ↦ r.acked now) fun r ↦ r.acked_dedupeKey now,
    t.Any fun r ↦ r.LeasedAs id leaseToken)

/-- Publication failed. -/
def fail (id : DedupeKey) (leaseToken : Uuid) (error : String) (permanent : Bool) :
    OutboxTable × FailOutcome :=
  (t.update (fun r ↦ r.LeasedAs id leaseToken) (fun r ↦ r.failed now error permanent)
      fun r ↦ r.failed_dedupeKey now error permanent,
    match (t.filter fun r ↦ r.LeasedAs id leaseToken).map fun r ↦ r.failed now error permanent with
    | [] => .lostLease
    | r :: _ => if r.failedAt.isSome then .exhausted else .retry)

/-- Make a settled row publishable again; `false` when there is no row. -/
def rearm (id : DedupeKey) : OutboxTable × Bool :=
  (t.update (fun r ↦ r.dedupeKey = id ∧ r.Settled) (fun r ↦ r.rearmed now)
      fun r ↦ r.rearmed_dedupeKey now,
    t.Any (fun r ↦ r.dedupeKey = id ∧ r.Settled) || (t.get id).isSome)

end Outbox

/-! ## Rows as work items -/

namespace OutboxRow

open Lease

def status (r : OutboxRow) : Status Uuid :=
  if r.processedAt.isSome then .done
  else if r.failedAt.isSome then .dead
  else match r.leaseToken with
    | none => .waiting
    | some token => .held token

def item (r : OutboxRow) : Item Uuid := ⟨r.status, r.attempts, r.maxAttempts⟩

variable {r : OutboxRow} {id : DedupeKey} {token : Uuid} {now : Time} {leaseMs : Int}

theorem status_eq_done : r.status = .done ↔ r.processedAt.isSome := by
  unfold status
  split_ifs with hp
  · exact iff_of_true rfl hp
  · exact iff_of_false nofun hp
  · split <;> exact iff_of_false nofun hp

theorem status_eq_held : r.status = .held token ↔
    r.leaseToken = some token ∧ r.processedAt = none ∧ r.failedAt = none := by
  unfold status
  cases hp : r.processedAt <;> cases hf : r.failedAt <;> cases ht : r.leaseToken <;> simp

/-- An unsettled row waits or is held. -/
theorem pending_iff : r.status.Pending ↔ r.processedAt = none ∧ r.failedAt = none := by
  unfold status
  cases hp : r.processedAt <;> cases hf : r.failedAt <;> cases ht : r.leaseToken <;>
    simp [Status.Pending]

theorem settled_iff : r.status.Settled ↔ r.Settled := by
  unfold status Settled
  cases hp : r.processedAt <;> cases hf : r.failedAt <;> cases ht : r.leaseToken <;>
    simp [Status.Settled]

/-- A due row is granted, whether it waits or its lease has run out. -/
theorem Due.step (h : r.Due now) : Step r.item (.grant token) (r.leased now leaseMs token).item := by
  have hstatus : (r.leased now leaseMs token).status = .held token :=
    status_eq_held.mpr ⟨rfl, h.1, h.2.1⟩
  have hgrant : Step r.item (.grant token) ⟨.held token, r.attempts + 1, r.maxAttempts⟩ :=
    .grant (pending_iff.mpr ⟨h.1, h.2.1⟩)
  rwa [← hstatus] at hgrant

theorem LeasedAs.step_acked (h : r.LeasedAs id token) :
    Step r.item (.finish token) (r.acked now).item :=
  .finish (status_eq_held.mpr h.2)

/-- A failure buries the row if it is permanent or the attempts are used up. -/
theorem LeasedAs.step_failed {error : String} {permanent : Bool} (h : r.LeasedAs id token) :
    ∃ a, (a = .release token ∨ a = .bury token) ∧
      Step r.item a (r.failed now error permanent).item := by
  have hheld : r.item.status = .held token := status_eq_held.mpr h.2
  have hp : r.processedAt = none := h.2.2.1
  by_cases hover : permanent ∨ r.attempts ≥ r.maxAttempts
  · have hstatus : (r.failed now error permanent).status = .dead := by
      simp [status, failed, hp, hover]
    refine ⟨_, Or.inr rfl, ?_⟩
    have := Step.bury hheld
    rwa [← hstatus] at this
  · have hstatus : (r.failed now error permanent).status = .waiting := by
      simp [status, failed, hp, hover]
    refine ⟨_, Or.inl rfl, ?_⟩
    have := Step.release hheld (Nat.lt_of_not_ge fun hge ↦ hover (Or.inr hge))
    rwa [← hstatus] at this

theorem Settled.step (h : r.Settled) : Step r.item .arm (r.rearmed now).item :=
  .reopen (settled_iff.mpr h)

/-- A settled row is under no lease. -/
theorem LeasedAs.not_settled (h : r.LeasedAs id token) : ¬ r.Settled := by
  simp [Settled, h.2.2.1, h.2.2.2]

theorem Due.not_settled (h : r.Due now) : ¬ r.Settled := by
  simp [Settled, h.1, h.2.1]

end OutboxRow

namespace Outbox

open Lease

/-- The item of a row, which may not be there. -/
def itemAt (t : OutboxTable) (id : DedupeKey) : Item Uuid :=
  match t.get id with
  | none => ⟨.absent, 0, 0⟩
  | some r => r.item

variable {t : OutboxTable} {id id' : DedupeKey} {r : OutboxRow} {token : Uuid} {now : Time}

theorem itemAt_of_get (h : t.get id = some r) : itemAt t id = r.item := by
  simp [itemAt, h]

theorem itemAt_congr {t' : OutboxTable} (h : t'.get id = t.get id) : itemAt t' id = itemAt t id := by
  simp [itemAt, h]

/-- A held item is a row under that lease. -/
theorem itemAt_held : (itemAt t id).status = .held token ↔ ∃ r, t.get id = some r ∧
    r.LeasedAs id token := by
  cases hr : t.get id with
  | none => simp [itemAt, hr]
  | some r =>
      have hkey := Table.key_of_get hr
      simp [itemAt, hr, OutboxRow.item, OutboxRow.status_eq_held, OutboxRow.LeasedAs, hkey]

/-- A picked row is leased under its token. -/
theorem get_lease {leaseMs : Int} {picked : List DedupeKey} {uuid : DedupeKey → Uuid}
    (hid : id ∈ picked) (hr : t.get id = some r) :
    (lease t now leaseMs picked uuid).1.get id = some (r.leased now leaseMs (uuid id)) := by
  simp [lease, hr, Table.key_of_get hr, hid]

theorem lease_step {leaseMs : Int} {picked : List DedupeKey} {uuid : DedupeKey → Uuid}
    (hdue : ∀ id ∈ picked, ∃ r ∈ t.get id, r.Due now) (id : DedupeKey) :
    id ∉ picked ∧ (lease t now leaseMs picked uuid).1.get id = t.get id ∨
      id ∈ picked ∧ Step (itemAt t id) (.grant (uuid id))
        (itemAt (lease t now leaseMs picked uuid).1 id) := by
  by_cases hmem : id ∈ picked
  · obtain ⟨r, hr, hd⟩ := hdue id hmem
    have hr : t.get id = some r := hr
    rw [itemAt_of_get hr, itemAt_of_get (get_lease hmem hr)]
    exact Or.inr ⟨hmem, hd.step⟩
  · refine Or.inl ⟨hmem, ?_⟩
    rw [lease, Table.get_update]
    cases hr : t.get id with
    | none => rfl
    | some r => simp [Table.key_of_get hr, hmem]

/-- A settling statement that finds its lease changes that row; else it changes none. -/
theorem update_leasedAs (t : OutboxTable) (id : DedupeKey) (token : Uuid)
    {f : OutboxRow → OutboxRow} {hf : ∀ r, (f r).dedupeKey = r.dedupeKey} (id' : DedupeKey) :
    (t.update (fun r ↦ r.LeasedAs id token) f hf).get id' = t.get id' ∨
      id' = id ∧ ∃ r, t.get id = some r ∧ r.LeasedAs id token ∧
        (t.update (fun r ↦ r.LeasedAs id token) f hf).get id = some (f r) := by
  rw [Table.get_update]
  cases hr : t.get id' with
  | none => exact Or.inl rfl
  | some r =>
      by_cases hl : r.LeasedAs id token
      · obtain rfl : id' = id := (Table.key_of_get hr).symm.trans hl.1
        exact Or.inr ⟨rfl, r, hr, hl, by simp [hr, hl]⟩
      · exact Or.inl (by simp [hl])

theorem ack_step (id' : DedupeKey) :
    (ack t now id token).1.get id' = t.get id' ∨
      id' = id ∧ Step (itemAt t id) (.finish token) (itemAt (ack t now id token).1 id) := by
  rcases update_leasedAs t id token id' with h | ⟨he, r, hr, hl, hget⟩
  · exact Or.inl h
  · rw [itemAt_of_get hr, ack, itemAt_of_get hget]
    exact Or.inr ⟨he, hl.step_acked⟩

theorem fail_step {error : String} {permanent : Bool} (id' : DedupeKey) :
    (fail t now id token error permanent).1.get id' = t.get id' ∨
      id' = id ∧ ∃ a, (a = .release token ∨ a = .bury token) ∧
        Step (itemAt t id) a (itemAt (fail t now id token error permanent).1 id) := by
  rcases update_leasedAs t id token id' with h | ⟨he, r, hr, hl, hget⟩
  · exact Or.inl h
  · rw [itemAt_of_get hr, fail, itemAt_of_get hget]
    exact Or.inr ⟨he, hl.step_failed⟩

/-- Once a statement has settled a lease, the row is no longer held under it. -/
theorem not_held_of_update {f : OutboxRow → OutboxRow} (hf : ∀ r, (f r).dedupeKey = r.dedupeKey)
    (h : ∀ r, ¬ (f r).LeasedAs id token) :
    (itemAt (t.update (fun r ↦ r.LeasedAs id token) f hf) id).status ≠ .held token := by
  intro hheld
  obtain ⟨r, hr, hl⟩ := itemAt_held.mp hheld
  rw [Table.get_update] at hr
  obtain ⟨s, hs, rfl⟩ := Option.map_eq_some_iff.mp hr
  split_ifs at hl with hls
  · exact h s hl
  · exact hls hl

theorem ack_not_held : (itemAt (ack t now id token).1 id).status ≠ .held token :=
  not_held_of_update (fun r ↦ r.acked_dedupeKey now) fun _ hl ↦ nomatch hl.2.1

theorem fail_not_held {error : String} {permanent : Bool} :
    (itemAt (fail t now id token error permanent).1 id).status ≠ .held token :=
  not_held_of_update (fun r ↦ r.failed_dedupeKey now error permanent) fun _ hl ↦ nomatch hl.2.1

theorem rearm_step (t : OutboxTable) (now : Time) (id id' : DedupeKey) :
    (rearm t now id).1.get id' = t.get id' ∧ (id' = id → ∀ r, t.get id = some r → ¬ r.Settled) ∨
      id' = id ∧ (∃ r, t.get id = some r ∧ r.Settled) ∧
        Step (itemAt t id) .arm (itemAt (rearm t now id).1 id) := by
  by_cases hs : id' = id ∧ ∃ r, t.get id = some r ∧ r.Settled
  · obtain ⟨rfl, r, hr, hset⟩ := hs
    have hget : (rearm t now id').1.get id' = some (r.rearmed now) := by
      simp [rearm, hr, Table.key_of_get hr, hset]
    rw [itemAt_of_get hr, itemAt_of_get hget]
    exact Or.inr ⟨rfl, ⟨r, hr, hset⟩, hset.step⟩
  · rw [not_and] at hs
    refine Or.inl ⟨?_, fun he r hr hset ↦ hs he ⟨r, hr, hset⟩⟩
    rw [rearm, Table.get_update]
    cases hr : t.get id' with
    | none => rfl
    | some r =>
        have : ¬ (r.dedupeKey = id ∧ r.Settled) := by
          rintro ⟨rfl, hset⟩
          have hkey := Table.key_of_get hr
          exact hs hkey.symm ⟨r, hkey ▸ hr, hset⟩
        simp [this]

theorem insert_step {m : OutboxMessage} (id' : DedupeKey) :
    (t.insert (m.row now)).get id' = t.get id' ∧
        (id' = (m.row now).dedupeKey → t.get id' ≠ none) ∨
      id' = (m.row now).dedupeKey ∧ t.get id' = none ∧
        Step (itemAt t id') .arm (itemAt (t.insert (m.row now)) id') := by
  cases hr : t.get (m.row now).dedupeKey with
  | some r =>
      rw [Table.insert_of_isSome (by simp [hr])]
      exact Or.inl ⟨rfl, fun he ↦ by simp [he, hr]⟩
  | none =>
      by_cases he : id' = (m.row now).dedupeKey
      · subst he
        have hget : (t.insert (m.row now)).get (m.row now).dedupeKey = some (m.row now) := by
          rw [Table.get_insert hr, if_pos rfl]
        refine Or.inr ⟨rfl, hr, ?_⟩
        rw [itemAt_of_get hget]
        exact .create (by simp [itemAt, hr]) (Nat.succ_pos 9)
      · rw [Table.get_insert hr, if_neg he]
        exact Or.inl ⟨rfl, fun h ↦ absurd h he⟩

/-! ## What a lease returns -/

section Lease

variable {leaseMs : Int} {picked : List DedupeKey} {uuid : DedupeKey → Uuid}
  {row : LeasedOutboxRow}

/-- A returned row is one of those picked, under its token. -/
theorem of_mem_lease (h : row ∈ (lease t now leaseMs picked uuid).2) :
    row.dedupeKey ∈ picked ∧ row.leaseToken = uuid row.dedupeKey := by
  obtain ⟨id, hid, hrow⟩ := List.mem_filterMap.mp h
  obtain ⟨r, -, rfl⟩ := Option.map_eq_some_iff.mp hrow
  exact ⟨hid, rfl⟩

/-- Each picked row is returned. -/
theorem exists_mem_lease (hid : id ∈ picked) (hr : t.get id = some r) :
    ∃ row ∈ (lease t now leaseMs picked uuid).2, row.dedupeKey = id ∧ row.leaseToken = uuid id := by
  refine ⟨⟨id, r.aggregateType, r.payload, r.attempts + 1, r.maxAttempts, uuid id⟩,
    List.mem_filterMap.mpr ⟨id, hid, ?_⟩, rfl, rfl⟩
  exact congrArg (Option.map _) (get_lease hid hr)

end Lease

/-! ## Lost leases -/

theorem not_leasedAs (h : ∀ r ∈ t, r.dedupeKey = id → r.leaseToken ≠ some token) :
    ∀ r ∈ t, ¬ r.LeasedAs id token := fun r hr hl ↦ h r hr hl.1 hl.2.1

theorem ack_lost (h : ∀ r ∈ t, r.dedupeKey = id → r.leaseToken ≠ some token) :
    ack t now id token = (t, false) := by
  have hnot := not_leasedAs h
  have hany : ¬ t.Any fun r ↦ r.LeasedAs id token := fun ⟨r, hr, hl⟩ ↦ hnot r hr hl
  simp [ack, Table.update_eq_self hnot, hany]

theorem fail_lost {error : String} {permanent : Bool}
    (h : ∀ r ∈ t, r.dedupeKey = id → r.leaseToken ≠ some token) :
    fail t now id token error permanent = (t, .lostLease) := by
  have hnot := not_leasedAs h
  have hnil : (t.filter fun r ↦ r.LeasedAs id token) = [] :=
    List.filter_eq_nil_iff.mpr fun r hr ↦ by simpa using hnot r hr
  simp [fail, Table.update_eq_self hnot, hnil]

/-- Re-arming leaves every other row alone, and those that are pending or leased. -/
theorem mem_rearm (hr : r ∈ t) (h : r.dedupeKey ≠ id ∨ ¬ r.Settled) : r ∈ (rearm t now id).1 := by
  rw [rearm]
  exact Table.mem_update_of_not (fun r ↦ r.rearmed_dedupeKey now) hr fun hp ↦
    h.elim (fun hne ↦ hne hp.1) fun hns ↦ hns hp.2

end Outbox

end Rcab
