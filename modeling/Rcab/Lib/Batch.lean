import Mathlib.Data.List.Nodup
import Mathlib.Data.List.Perm.Subperm
import Mathlib.Data.Nat.Init
import Mathlib.Order.Basic

/-!
# Batches

A query with a limit and no order answers with some of the matching rows, as many as the
limit allows, and with none in particular.  Where at most as many rows match, the batch has
them all; where more match, a row may be passed over in every round.

The rows of a batch are served one after the other, each by a step that leaves what belongs
to the others alone (`Isolated`).
-/

universe u v w

namespace Rcab

/-- An answer of the query. -/
structure Batch {α : Type u} (limit : ℕ) (rows picked : List α) : Prop where
  subperm : picked.Subperm rows
  length : picked.length = min limit rows.length

namespace Batch

variable {α : Type u} {limit : ℕ} {rows picked : List α} {a : α}

theorem mem (h : Batch limit rows picked) (ha : a ∈ picked) : a ∈ rows := h.subperm.subset ha

/-- A batch has no row twice. -/
theorem nodup_map {β : Type v} {f : α → β} (h : Batch limit rows picked)
    (hf : (rows.map f).Nodup) : (picked.map f).Nodup := by
  obtain ⟨l, hperm, hsub⟩ := h.subperm
  exact (hperm.map f).nodup_iff.mp ((hsub.map f).nodup hf)

/-- A batch below the limit has every row. -/
theorem mem_of_length_le (h : Batch limit rows picked) (hle : rows.length ≤ limit)
    (ha : a ∈ rows) : a ∈ picked := by
  have hperm : picked.Perm rows := h.subperm.perm_of_length_le (by rw [h.length]; omega)
  exact hperm.mem_iff.mpr ha

/-- Where enough rows satisfy `p`, a batch may have these alone. -/
theorem exists_of_filter (p : α → Prop) [DecidablePred p]
    (h : min limit rows.length ≤ (rows.filter fun a ↦ p a).length) :
    ∃ picked, Batch limit rows picked ∧ ∀ a ∈ picked, p a := by
  refine ⟨(rows.filter fun a ↦ p a).take (min limit rows.length), ⟨?_, ?_⟩, fun a ha ↦ ?_⟩
  · exact ((List.take_sublist _ _).trans List.filter_sublist).subperm
  · rw [List.length_take]
    omega
  · have := List.mem_filter.mp (List.mem_of_mem_take ha)
    simpa using this.2

/-- Above the limit, there are rows enough without any one of them. -/
theorem length_filter_ne {β : Type v} [DecidableEq β] {f : α → β} (hf : (rows.map f).Nodup)
    (h : limit < rows.length) (b : β) :
    min limit rows.length ≤ (rows.filter fun a ↦ f a ≠ b).length := by
  have hone : rows.countP (fun a ↦ f a = b) ≤ 1 := by
    have hcount := List.nodup_iff_count_le_one.mp hf b
    rw [List.count, List.countP_map] at hcount
    exact hcount
  have hsum := List.length_eq_countP_add_countP (fun a ↦ decide (f a = b)) (l := rows)
  rw [← List.countP_eq_length_filter]
  have hnot : rows.countP (fun a ↦ decide (f a ≠ b)) =
      rows.countP (fun a ↦ ¬ decide (f a = b) = true) :=
    List.countP_congr fun a _ ↦ by simp
  rw [hnot]
  omega

end Batch

/-! ## Serving a batch -/

section Serve

variable {ι : Type u} {κ : Type v} {σ : Type w} {key : ι → κ} {Same : κ → σ → σ → Prop}
  {step : σ → ι → σ}

/-- A preorder that every step keeps to, serving a batch keeps to. -/
theorem foldl_rel {R : σ → σ → Prop} (hrefl : ∀ s, R s s)
    (htrans : ∀ s s' s'', R s s' → R s' s'' → R s s'') {l : List ι}
    (hl : ∀ i ∈ l, ∀ s, R s (step s i)) (s : σ) : R s (l.foldl step s) := by
  induction l generalizing s with
  | nil => exact hrefl s
  | cons i l ih =>
      exact htrans _ _ _ (hl i List.mem_cons_self s)
        (ih (fun j hj ↦ hl j (List.mem_cons_of_mem i hj)) (step s i))

/-- The step of an item changes nothing of another key's; `Same k` says that nothing of `k`'s
changed. -/
structure Isolated (key : ι → κ) (Same : κ → σ → σ → Prop) (step : σ → ι → σ) : Prop where
  refl : ∀ k s, Same k s s
  trans : ∀ k s s' s'', Same k s s' → Same k s' s'' → Same k s s''
  off : ∀ k s i, key i ≠ k → Same k s (step s i)

namespace Isolated

variable (h : Isolated key Same step)

include h

/-- Steps that leave a key alone leave it alone one after the other. -/
theorem foldl_same {k : κ} {l : List ι} (hl : ∀ i ∈ l, ∀ s, Same k s (step s i)) (s : σ) :
    Same k s (l.foldl step s) :=
  foldl_rel (h.refl k) (h.trans k) hl s

/-- A key is served once, or not at all. -/
theorem foldl_cases {l : List ι} (hl : (l.map key).Nodup) (k : κ) (s : σ) :
    ((∀ i ∈ l, key i ≠ k) ∧ Same k s (l.foldl step s)) ∨
      ∃ i ∈ l, key i = k ∧ ∃ s', Same k s s' ∧ Same k (step s' i) (l.foldl step s) := by
  induction l generalizing s with
  | nil => exact Or.inl ⟨fun i hi ↦ absurd hi List.not_mem_nil, h.refl k s⟩
  | cons i l ih =>
      rw [List.map_cons, List.nodup_cons] at hl
      by_cases hk : key i = k
      · -- It is served now, and by none of the others.
        subst hk
        refine Or.inr ⟨i, List.mem_cons_self, rfl, s, h.refl _ s, ?_⟩
        refine h.foldl_same (fun j hj s' ↦ h.off _ s' j fun hji ↦ hl.1 ?_) (step s i)
        exact List.mem_map.mpr ⟨j, hj, hji⟩
      · have hoff := h.off k s i hk
        rcases ih hl.2 (step s i) with ⟨hne, hs⟩ | ⟨j, hj, hjk, s', hs, hs'⟩
        · refine Or.inl ⟨fun j hj ↦ ?_, h.trans _ _ _ _ hoff hs⟩
          rcases List.mem_cons.mp hj with rfl | hj
          · exact hk
          · exact hne j hj
        · exact Or.inr ⟨j, List.mem_cons_of_mem i hj, hjk, s', h.trans _ _ _ _ hoff hs, hs'⟩

end Isolated

end Serve

/-! ## Rounds -/

/-- What a round can keep, some sequence of rounds keeps. -/
theorem exists_rounds {σ : Type w} {P : ℕ → σ → Prop} {R : ℕ → σ → σ → Prop} {s : σ} (h₀ : P 0 s)
    (h : ∀ n s, P n s → ∃ s', R n s s' ∧ P (n + 1) s') :
    ∃ f : ℕ → σ, f 0 = s ∧ ∀ n, P n (f n) ∧ R n (f n) (f (n + 1)) := by
  choose next hnext using h
  let f : ∀ n, { s // P n s } := fun n ↦
    n.rec ⟨s, h₀⟩ fun n s ↦ ⟨next n s.1 s.2, (hnext n s.1 s.2).2⟩
  exact ⟨fun n ↦ (f n).1, rfl, fun n ↦ ⟨(f n).2, (hnext n (f n).1 (f n).2).1⟩⟩

end Rcab
