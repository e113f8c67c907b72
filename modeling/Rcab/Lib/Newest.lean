import Mathlib.Data.List.Induction
import Mathlib.Data.List.MinMax

/-!
# The newest of several versions

A cell that takes a value only over an older one.  Where a version has one value, the cell ends with
the newest of what it was given, in whatever order and however often it came (`newest_mem`,
`eq_newest`).
-/

universe u v

namespace Rcab

variable {α : Type u} {β : Type v} [LinearOrder β] (version : α → β)

/-- The newer of the two; the one that is there if they are as new. -/
def keepNewer (current : Option α) (a : α) : Option α :=
  match current with
  | none => some a
  | some c => if version a ≤ version c then some c else some a

/-- What is kept of a list. -/
def newest (l : List α) : Option α := l.foldl (keepNewer version) none

variable {version} {l : List α} {a c m : α}

@[simp] theorem newest_nil : newest version [] = none := rfl

theorem newest_snoc : newest version (l ++ [a]) = keepNewer version (newest version l) a := by
  rw [newest, List.foldl_append]
  rfl

variable (version) in
theorem keepNewer_eq (current : Option α) (a : α) :
    keepNewer version current a = some a ∨
      ∃ c, current = some c ∧ version a ≤ version c ∧ keepNewer version current a = some c := by
  cases current with
  | none => exact Or.inl rfl
  | some c =>
    by_cases h : version a ≤ version c
    · exact Or.inr ⟨c, rfl, h, if_pos h⟩
    · exact Or.inl (if_neg h)

/-- What is kept is no older than either. -/
theorem le_keepNewer (hm : keepNewer version (some c) a = some m) :
    version c ≤ version m ∧ version a ≤ version m := by
  rw [keepNewer] at hm
  split_ifs at hm with h
  · exact Option.some.inj hm ▸ ⟨le_refl _, h⟩
  · exact Option.some.inj hm ▸ ⟨le_of_not_ge h, le_refl _⟩

variable (version) in
theorem newest_isSome (h : l ≠ []) : ∃ m, newest version l = some m := by
  cases l using List.reverseRecOn with
  | nil => exact absurd rfl h
  | append_singleton l a =>
    rw [newest_snoc]
    rcases keepNewer_eq version (newest version l) a with ha | ⟨c, _, _, hc⟩
    · exact ⟨a, ha⟩
    · exact ⟨c, hc⟩

theorem newest_eq_none : newest version l = none ↔ l = [] := by
  refine ⟨fun h ↦ ?_, fun h ↦ h ▸ rfl⟩
  by_contra hne
  obtain ⟨m, hm⟩ := newest_isSome version hne
  rw [h] at hm
  cases hm

/-- What is kept is one of them, and none is newer. -/
theorem newest_mem : newest version l = some m → m ∈ l ∧ ∀ a ∈ l, version a ≤ version m := by
  induction l using List.reverseRecOn generalizing m with
  | nil =>
    intro h
    cases h
  | append_singleton l a ih =>
    intro h
    rw [newest_snoc] at h
    simp only [List.mem_append, List.mem_singleton]
    cases hc : newest version l with
    | none =>
      rw [hc] at h
      obtain rfl := newest_eq_none.mp hc
      obtain rfl := Option.some.inj h
      exact ⟨Or.inr rfl, by simp⟩
    | some c =>
      obtain ⟨hmem, hle⟩ := ih hc
      rw [hc] at h
      obtain ⟨hcm, ham⟩ := le_keepNewer h
      refine ⟨?_, ?_⟩
      · rcases keepNewer_eq version (some c) a with ha | ⟨c', hc', -, hkept⟩
        · exact Or.inr (Option.some.inj (h.symm.trans ha))
        · obtain rfl := Option.some.inj hc'
          exact Or.inl (Option.some.inj (h.symm.trans hkept) ▸ hmem)
      · rintro b (hb | rfl)
        · exact le_trans (hle b hb) hcm
        · exact ham

/-- The order and the repetitions do not matter. -/
theorem eq_newest (hinj : ∀ a ∈ l, ∀ b ∈ l, version a = version b → a = b) (hm : m ∈ l)
    (hle : ∀ a ∈ l, version a ≤ version m) : newest version l = some m := by
  obtain ⟨m', hm'⟩ := newest_isSome version (List.ne_nil_of_mem hm)
  obtain ⟨hmem, hle'⟩ := newest_mem hm'
  rw [hm', hinj m' hmem m hm (le_antisymm (hle m' hmem) (hle' m hm))]

end Rcab
