import Mathlib.Data.List.Induction
import Mathlib.Data.List.MinMax

/-!
# Version gates

A receiver of versioned messages that come late, twice or in another order hands on only some
of them: an authoritative message unless a newer one went through before it, any other only when
it is newer than all that did.

What it has let through at the end does not depend on the order: the gate stands at the highest
version it heard (`hearAll_applied`), and a message of that version was handed on last
(`getLast?_handed`).  In between, versions never decrease (`handed_sorted`).
-/

universe u v

namespace Rcab.Gate

/-- A receiver: where its gate stands, and what it has handed on, in order. -/
structure Log (α : Type u) (M : Type v) where
  applied : WithBot α
  handed : List M

variable {M : Type v} {α : Type u} [LinearOrder α] (version : M → α) (authoritative : M → Prop)
  [DecidablePred authoritative]

/-- The message goes through a gate that stands at `applied`. -/
def Passes (applied : WithBot α) (m : M) : Prop :=
  if authoritative m then applied ≤ version m else applied < version m

instance {applied : WithBot α} : DecidablePred (Passes version authoritative applied) :=
  fun m ↦ inferInstanceAs (Decidable (if authoritative m then _ else _))

def hear (l : Log α M) (m : M) : Log α M :=
  if Passes version authoritative l.applied m then ⟨version m, l.handed ++ [m]⟩ else l

/-- A receiver that has heard `ms`, in that order. -/
def hearAll (ms : List M) : Log α M := ms.foldl (hear version authoritative) ⟨⊥, []⟩

variable {version authoritative} {applied : WithBot α} {l : Log α M} {ms : List M} {m : M}

theorem hearAll_concat :
    hearAll version authoritative (ms ++ [m]) =
      hear version authoritative (hearAll version authoritative ms) m := by
  rw [hearAll, List.foldl_concat]
  rfl

theorem Passes.le (h : Passes version authoritative applied m) : applied ≤ version m := by
  unfold Passes at h
  split_ifs at h
  · exact h
  · exact h.le

/-- What is kept back is not newer. -/
theorem le_of_not_passes (h : ¬ Passes version authoritative applied m) :
    (version m : WithBot α) ≤ applied := by
  unfold Passes at h
  split_ifs at h
  · exact (not_le.mp h).le
  · exact not_lt.mp h

/-- Hearing a message moves the gate up to it. -/
theorem hear_applied : (hear version authoritative l m).applied = max l.applied (version m) := by
  unfold hear
  split_ifs with h
  · exact (max_eq_right h.le).symm
  · exact (max_eq_left (le_of_not_passes h)).symm

variable (authoritative) in
/-- The gate stands at the highest version heard. -/
theorem hearAll_applied :
    (hearAll version authoritative ms).applied = (ms.map version).maximum := by
  induction ms using List.reverseRecOn with
  | nil => rfl
  | append_singleton ms m ih =>
      rw [hearAll_concat, hear_applied, ih, List.map_append, List.map_singleton,
        List.maximum_concat]

/-- Nothing else is handed on than what was heard. -/
theorem handed_subset : (hearAll version authoritative ms).handed ⊆ ms := by
  induction ms using List.reverseRecOn with
  | nil => exact List.Subset.refl _
  | append_singleton ms m ih =>
      have hms := List.Subset.trans ih (List.subset_append_left ms [m])
      rw [hearAll_concat]
      unfold hear
      split_ifs
      · exact List.append_subset.mpr ⟨hms, List.subset_append_right ms [m]⟩
      · exact hms

/-- **Versions never decrease** in what is handed on. -/
theorem handed_sorted (ms : List M) :
    (hearAll version authoritative ms).handed.Pairwise fun m m' ↦ version m ≤ version m' := by
  induction ms using List.reverseRecOn with
  | nil => exact .nil
  | append_singleton ms m ih =>
      rw [hearAll_concat]
      unfold hear
      split_ifs with h
      · refine List.pairwise_append.mpr ⟨ih, List.pairwise_singleton _ _, ?_⟩
        intro m' hm' m'' hm''
        obtain rfl := List.mem_singleton.mp hm''
        have hle : (version m' : WithBot α) ≤ (ms.map version).maximum :=
          List.le_maximum_of_mem' (List.mem_map_of_mem (handed_subset hm'))
        rw [← hearAll_applied authoritative] at hle
        exact WithBot.coe_le_coe.mp (hle.trans h.le)
      · exact ih

variable (version authoritative) in
/-- **The newest message wins**: one of the highest version heard was handed on last. -/
theorem getLast?_handed (h : ms ≠ []) :
    ∃ m ∈ ms, (hearAll version authoritative ms).handed.getLast? = some m ∧
      ∀ m' ∈ ms, version m' ≤ version m := by
  -- The message handed on last is the one the gate stands at.
  have hlast : ∀ ms : List M, ms ≠ [] →
      ∃ m, (hearAll version authoritative ms).handed.getLast? = some m ∧
        (hearAll version authoritative ms).applied = version m := by
    intro ms hne
    induction ms using List.reverseRecOn with
    | nil => exact absurd rfl hne
    | append_singleton ms m ih =>
        rw [hearAll_concat]
        unfold hear
        split_ifs with hp
        · exact ⟨m, List.getLast?_concat, rfl⟩
        · refine ih fun hnil ↦ hp ?_
          subst hnil
          unfold Passes hearAll
          split_ifs
          · exact bot_le
          · exact WithBot.bot_lt_coe _
  obtain ⟨m, hm, happ⟩ := hlast ms h
  refine ⟨m, handed_subset (List.mem_of_getLast? hm), hm, fun m' hm' ↦ ?_⟩
  have hle := List.le_maximum_of_mem' (List.mem_map_of_mem (f := version) hm')
  rw [← hearAll_applied authoritative, happ] at hle
  exact WithBot.coe_le_coe.mp hle

end Rcab.Gate
