import Mathlib.Algebra.BigOperators.Group.List.Basic
import Mathlib.Algebra.Order.BigOperators.Group.List
import Mathlib.Algebra.Order.Field.Basic
import Mathlib.Algebra.Module.Defs
import Mathlib.Tactic.Linarith

/-!
# Polylines

A polyline is a list of points, and `len` measures the segment between two of them: any function
into an ordered field that is nowhere negative.  `arcLength` is how far along the polyline a vertex
is, `At` the points that are a given length along it, and `FirstAt` the first of them.
-/

universe u v

namespace Polyline

variable {𝕜 : Type u} {E : Type v} {len : E → E → 𝕜} {ps : List E} {i j : ℕ} {a b : E}

/-- The lengths of the segments, from the first. -/
def segments (len : E → E → 𝕜) (ps : List E) : List 𝕜 := ps.zipWith len ps.tail

theorem length_segments : (segments len ps).length = ps.length - 1 := by
  simp [segments]

variable (len) in
theorem getElem?_segments (ha : ps[j]? = some a) (hb : ps[j + 1]? = some b) :
    (segments len ps)[j]? = some (len a b) := by
  simp [segments, List.getElem?_zipWith, ha, hb]

variable [Field 𝕜]

/-- The length up to the vertex `j`. -/
def arcLength (len : E → E → 𝕜) (ps : List E) (j : ℕ) : 𝕜 := ((segments len ps).take j).sum

def totalLength (len : E → E → 𝕜) (ps : List E) : 𝕜 := (segments len ps).sum

@[simp] theorem arcLength_zero : arcLength len ps 0 = 0 := rfl

variable (len) in
theorem arcLength_succ (ha : ps[j]? = some a) (hb : ps[j + 1]? = some b) :
    arcLength len ps (j + 1) = arcLength len ps j + len a b := by
  obtain ⟨hj, hl⟩ := List.getElem?_eq_some_iff.mp (getElem?_segments len ha hb)
  rw [arcLength, arcLength, List.sum_take_succ _ _ hj, hl]

/-- The last vertex. -/
theorem arcLength_of_length_le (h : ps.length ≤ j + 1) :
    arcLength len ps j = totalLength len ps := by
  rw [arcLength, List.take_of_length_le]
  · rfl
  · rw [length_segments]
    omega

section Order

variable [LinearOrder 𝕜]

theorem segments_nonneg (hlen : ∀ a b, 0 ≤ len a b) : ∀ l ∈ segments len ps, 0 ≤ l := by
  intro l hl
  obtain ⟨j, hj, rfl⟩ := List.mem_iff_getElem.mp hl
  simp [segments, hlen]

variable [IsStrictOrderedRing 𝕜]

theorem arcLength_mono (hlen : ∀ a b, 0 ≤ len a b) : Monotone (arcLength len ps) := by
  intro i j h
  refine List.Sublist.sum_le_sum (List.take_sublist_take_left h) fun l hl ↦ ?_
  exact segments_nonneg hlen l (List.mem_of_mem_take hl)

theorem arcLength_nonneg (hlen : ∀ a b, 0 ≤ len a b) : 0 ≤ arcLength len ps j :=
  arcLength_mono hlen (Nat.zero_le j)

theorem arcLength_le_totalLength (hlen : ∀ a b, 0 ≤ len a b) :
    arcLength len ps j ≤ totalLength len ps :=
  List.Sublist.sum_le_sum (List.take_sublist j _) (segments_nonneg hlen)

/-- Where only equal points are no distance apart, vertices equally far along are equal. -/
theorem getElem?_eq_of_arcLength_eq (hlen : ∀ a b, 0 ≤ len a b)
    (hsep : ∀ a b, len a b = 0 → a = b) (hij : i ≤ j) (hj : j < ps.length)
    (h : arcLength len ps i = arcLength len ps j) : ps[i]? = ps[j]? := by
  induction j, hij using Nat.le_induction with
  | base => rfl
  | succ j hij ih =>
    have ha : ps[j]? = some ps[j] := List.getElem?_eq_getElem (by omega)
    have hb : ps[j + 1]? = some ps[j + 1] := List.getElem?_eq_getElem hj
    have hsucc := arcLength_succ len ha hb
    have hle : arcLength len ps i ≤ arcLength len ps j := arcLength_mono hlen hij
    have hpos := hlen ps[j] ps[j + 1]
    have hzero : len ps[j] ps[j + 1] = 0 := by linarith
    rw [ih (by omega) (by linarith), ha, hb, hsep _ _ hzero]

end Order

/-! ## Points -/

section Points

variable [LinearOrder 𝕜] [AddCommGroup E] [Module 𝕜 E] {ℓ t : 𝕜} {p : E}

/-- On the segment from the vertex `j`, at the weight `t`, and `ℓ` along the polyline. -/
structure OnSegment (len : E → E → 𝕜) (ps : List E) (ℓ : 𝕜) (p : E) (j : ℕ) (a b : E) (t : 𝕜) :
    Prop where
  left : ps[j]? = some a
  right : ps[j + 1]? = some b
  nonneg : 0 ≤ t
  le_one : t ≤ 1
  arc : arcLength len ps j + t * len a b = ℓ
  point : p = a + t • (b - a)

/-- The points `ℓ` along the polyline. -/
def At (len : E → E → 𝕜) (ps : List E) (ℓ : 𝕜) (p : E) : Prop :=
  ∃ j a b t, OnSegment len ps ℓ p j a b t

/-- The first of them: on the first segment that reaches `ℓ`, and where it starts if it has no
length. -/
def FirstAt (len : E → E → 𝕜) (ps : List E) (ℓ : 𝕜) (p : E) : Prop :=
  ∃ j a b t, OnSegment len ps ℓ p j a b t ∧ (j = 0 ∨ arcLength len ps j < ℓ) ∧
    (len a b = 0 → t = 0)

theorem FirstAt.at (h : FirstAt len ps ℓ p) : At len ps ℓ p := by
  obtain ⟨j, a, b, t, h, -, -⟩ := h
  exact ⟨j, a, b, t, h⟩

variable [IsStrictOrderedRing 𝕜]

/-- The segment that reaches `ℓ` has a point there; its weight is not asked for when the segment has
no length. -/
theorem onSegment_of_le (hlen : ∀ a b, 0 ≤ len a b) (ha : ps[j]? = some a)
    (hb : ps[j + 1]? = some b) (hl : arcLength len ps j ≤ ℓ) (hr : ℓ ≤ arcLength len ps (j + 1))
    (ht : t = if len a b = 0 then 0 else (ℓ - arcLength len ps j) / len a b) :
    OnSegment len ps ℓ (a + t • (b - a)) j a b t := by
  rw [arcLength_succ len ha hb] at hr
  by_cases h : len a b = 0
  · rw [if_pos h] at ht
    subst ht
    refine ⟨ha, hb, le_refl _, zero_le_one, ?_, rfl⟩
    rw [h] at hr
    linarith
  · rw [if_neg h] at ht
    have hpos : 0 < len a b := lt_of_le_of_ne (hlen a b) (Ne.symm h)
    refine ⟨ha, hb, ?_, ?_, ?_, rfl⟩
    · rw [ht]
      exact div_nonneg (by linarith) hpos.le
    · rw [ht, div_le_one hpos]
      linarith
    · rw [ht, div_mul_cancel₀ _ h, add_sub_cancel]

theorem firstAt_head (ha : ps[0]? = some a) (hb : ps[1]? = some b) : FirstAt len ps 0 a := by
  refine ⟨0, a, b, 0, ⟨ha, hb, le_refl _, zero_le_one, ?_, ?_⟩, Or.inl rfl, fun _ ↦ rfl⟩
  · rw [arcLength_zero, zero_mul, add_zero]
  · rw [zero_smul, add_zero]

/-- At no length it is the first vertex. -/
theorem FirstAt.eq_head (h : FirstAt len ps 0 p) (hlen : ∀ a b, 0 ≤ len a b) :
    ps.head? = some p := by
  obtain ⟨j, a, b, t, h, hfirst, ht⟩ := h
  obtain rfl : j = 0 := hfirst.resolve_right (not_lt.mpr (arcLength_nonneg hlen))
  have harc := h.arc
  rw [arcLength_zero, zero_add] at harc
  obtain rfl : t = 0 := (mul_eq_zero.mp harc).elim id ht
  rw [h.point, zero_smul, add_zero, List.head?_eq_getElem?]
  exact h.left

/-- At the full length it is a vertex. -/
theorem FirstAt.vertex (h : FirstAt len ps (totalLength len ps) p) (hlen : ∀ a b, 0 ≤ len a b) :
    ∃ k, ps[k]? = some p ∧ arcLength len ps k = totalLength len ps := by
  obtain ⟨j, a, b, t, h, -, ht⟩ := h
  have harc := h.arc
  by_cases hzero : len a b = 0
  · refine ⟨j, ?_, ?_⟩
    · rw [h.point, ht hzero, zero_smul, add_zero]
      exact h.left
    · rwa [hzero, mul_zero, add_zero] at harc
  · have hpos : 0 < len a b := lt_of_le_of_ne (hlen a b) (Ne.symm hzero)
    have hsucc := arcLength_succ len h.left h.right
    have hle : arcLength len ps (j + 1) ≤ totalLength len ps := arcLength_le_totalLength hlen
    -- All of the segment is needed.
    have hge : 1 * len a b ≤ t * len a b := by linarith
    obtain rfl : t = 1 := le_antisymm h.le_one (le_of_mul_le_mul_right hge hpos)
    refine ⟨j + 1, ?_, ?_⟩
    · rw [h.point, one_smul, add_sub_cancel]
      exact h.right
    · linarith

end Points

end Polyline
