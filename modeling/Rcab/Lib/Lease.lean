import Mathlib.Data.Nat.Notation

/-!
# Work items under fenced leases

An item of a work queue waits for a worker, is held by one under a token, or is settled:
done, or given up.  A grant hands the item to a worker under a new token, also when another
worker's lease has run out; whoever finishes, releases or buries the item must present the
token it is held under.  Arming makes a new item, or a settled one, available (`Step`).

Grants are counted against a budget.  A worker that releases an item whose budget is used
up buries it instead, so the budget holds as long as no grant takes over a lease that has
used it up (`InBudget.step`).
-/

universe u

namespace Rcab.Lease

inductive Status (τ : Type u) where
  | absent
  | waiting
  | held (token : τ)
  | done
  | dead

structure Item (τ : Type u) where
  status : Status τ
  /-- The grants since the item was last armed. -/
  attempts : ℕ
  budget : ℕ

inductive Action (τ : Type u) where
  | arm
  | grant (token : τ)
  | finish (token : τ)
  | release (token : τ)
  | bury (token : τ)

variable {τ : Type u}

namespace Status

/-- The item waits for no worker and has none. -/
def Settled : Status τ → Prop
  | done | dead => True
  | _ => False

/-- The item waits for a worker or has one. -/
def Pending : Status τ → Prop
  | waiting | held _ => True
  | _ => False

end Status

/-- What can happen to an item. -/
inductive Step (i : Item τ) : Action τ → Item τ → Prop
  | create {budget : ℕ} (h : i.status = .absent) (hb : 0 < budget) :
      Step i .arm ⟨.waiting, 0, budget⟩
  | reopen (h : i.status.Settled) : Step i .arm ⟨.waiting, 0, i.budget⟩
  | grant {token : τ} (h : i.status.Pending) :
      Step i (.grant token) ⟨.held token, i.attempts + 1, i.budget⟩
  | finish {token : τ} (h : i.status = .held token) :
      Step i (.finish token) ⟨.done, i.attempts, i.budget⟩
  | release {token : τ} (h : i.status = .held token) (hb : i.attempts < i.budget) :
      Step i (.release token) ⟨.waiting, i.attempts, i.budget⟩
  | bury {token : τ} (h : i.status = .held token) :
      Step i (.bury token) ⟨.dead, i.attempts, i.budget⟩

variable {i i' : Item τ} {a : Action τ} {token : τ}

namespace Step

/-- An item is done through the worker that holds it. -/
theorem done (h : Step i a i') (hd : i'.status = .done) :
    ∃ token, a = .finish token ∧ i.status = .held token := by
  cases h with
  | finish h => exact ⟨_, rfl, h⟩
  | _ => cases hd

/-- An item comes to be held through a grant. -/
theorem held (h : Step i a i') (hh : i'.status = .held token) : a = .grant token := by
  cases h with
  | grant h => cases hh; rfl
  | _ => cases hh

/-- A settled item can only be armed. -/
theorem settled (h : Step i a i') (hs : i.status.Settled) : a = .arm := by
  cases h with
  | create | reopen => rfl
  | grant h => cases hi : i.status <;> rw [hi] at h hs <;> first | exact h.elim | exact hs.elim
  | finish h | release h | bury h => rw [h] at hs; exact hs.elim

theorem attempts_arm (h : Step i .arm i') : i'.attempts = 0 := by cases h <;> rfl

theorem attempts_grant (h : Step i (.grant token) i') : i'.attempts = i.attempts + 1 := by
  cases h; rfl

theorem budget_grant (h : Step i (.grant token) i') : i'.budget = i.budget := by
  cases h; rfl

/-- Settling an item counts for nothing. -/
theorem attempts_of_ne (h : Step i a i') (harm : a ≠ .arm) (hgrant : ∀ token, a ≠ .grant token) :
    i'.attempts = i.attempts := by
  cases h with
  | create | reopen => exact absurd rfl harm
  | grant => exact absurd rfl (hgrant _)
  | _ => rfl

end Step

/-! ## The budget -/

/-- The budget is kept, with an attempt to spare while the item waits. -/
structure InBudget (i : Item τ) : Prop where
  pos : i.status ≠ .absent → 0 < i.budget
  le : i.attempts ≤ i.budget
  lt : i.status = .waiting → i.attempts < i.budget

/-- Only a grant that takes over a used up lease exceeds the budget. -/
theorem InBudget.step (hi : InBudget i) (h : Step i a i')
    (hover : ∀ token token', a = .grant token → i.status = .held token' → i.attempts < i.budget) :
    InBudget i' := by
  cases h with
  | create _ hb => exact ⟨fun _ ↦ hb, Nat.zero_le _, fun _ ↦ hb⟩
  | reopen h =>
      have hpos : 0 < i.budget := hi.pos fun habs ↦ by rw [habs] at h; exact h.elim
      exact ⟨fun _ ↦ hpos, Nat.zero_le _, fun _ ↦ hpos⟩
  | @grant token h =>
      have hlt : i.attempts < i.budget := by
        cases hs : i.status with
        | waiting => exact hi.lt hs
        | held token' => exact hover _ _ rfl hs
        | _ => rw [hs] at h; exact h.elim
      exact ⟨fun _ ↦ Nat.zero_lt_of_lt hlt, hlt, nofun⟩
  | finish h => exact ⟨fun _ ↦ hi.pos (by simp [h]), hi.le, nofun⟩
  | release h hb => exact ⟨fun _ ↦ Nat.zero_lt_of_lt hb, hi.le, fun _ ↦ hb⟩
  | bury h => exact ⟨fun _ ↦ hi.pos (by simp [h]), hi.le, nofun⟩

end Rcab.Lease
