import Mathlib.Algebra.Module.Prod
import Mathlib.Analysis.SpecialFunctions.Trigonometric.Inverse
import Rcab.Lib.Polyline

/-!
# Route similarity

`route-similarity.service.ts`.  Two routes are compared by points spread evenly along their
polylines.  The source computes on doubles and measures with the haversine formula; here the
numbers are those of an ordered field, computed exactly, and `haversineM` is a parameter, which the
formula over the reals is put for in the end.  A number that is none, because of a division by zero
or a read past the end of an array, is an `Option`'s `none`.
-/

universe u

namespace Rcab.Matching

open Polyline

/-- `[lng, lat]`, as OSRM has them. -/
abbrev Coord (𝕜 : Type u) := 𝕜 × 𝕜

section Resample

variable {𝕜 : Type u} {haversineM : Coord 𝕜 → Coord 𝕜 → 𝕜} {coords : List (Coord 𝕜)}

/-- `Array(n).fill(coords[0])`. -/
def fillFirst (coords : List (Coord 𝕜)) (n : ℕ) : Option (List (Coord 𝕜)) :=
  (List.replicate n coords[0]?).allSome

theorem fillFirst_eq (h : coords ≠ []) (n : ℕ) :
    fillFirst coords n = some (List.replicate n (coords.head h)) := by
  rw [fillFirst, ← List.head?_eq_getElem?, List.head?_eq_some_head h, List.allSome]
  induction n with
  | zero => rfl
  | succ n ih => rw [List.replicate_succ, List.mapM_cons, ih]; rfl

variable [Field 𝕜]

/-! ## The cumulative lengths -/

/-- `dists`: from 0 on, each the one before and the next segment. -/
def cumulative (haversineM : Coord 𝕜 → Coord 𝕜 → 𝕜) (coords : List (Coord 𝕜)) : List 𝕜 :=
  (coords.zipWith haversineM coords.tail).scanl (· + ·) 0

theorem length_cumulative (h : coords ≠ []) :
    (cumulative haversineM coords).length = coords.length := by
  have hpos : 0 < coords.length := List.length_pos_iff.mpr h
  rw [cumulative, List.length_scanl, ← segments, length_segments]
  omega

/-- `dists[j]` is how far along the polyline the vertex `j` is. -/
theorem getElem?_cumulative {j : ℕ} (hj : j < coords.length) :
    (cumulative haversineM coords)[j]? = some (arcLength haversineM coords j) := by
  have hj' : j < (cumulative haversineM coords).length := by
    rwa [length_cumulative (List.ne_nil_of_length_pos (by omega))]
  rw [List.getElem?_eq_getElem hj', Option.some.injEq]
  exact (List.getElem_scanl hj').trans List.sum_eq_foldl.symm

theorem getLast?_cumulative :
    (cumulative haversineM coords).getLast? = some (totalLength haversineM coords) :=
  List.getLast?_scanl.trans (congrArg some List.sum_eq_foldl.symm)

/-! ## The samples -/

variable [LinearOrder 𝕜]

/-- `x / y`. -/
def quotient (x y : 𝕜) : Option 𝕜 := if y = 0 then none else some (x / y)

theorem quotient_eq {x y : 𝕜} (h : y ≠ 0) : quotient x y = some (x / y) := if_neg h

/-- `segLen === 0 ? 0 : (target - dists[seg]) / segLen`. -/
def weight (target start segLen : 𝕜) : Option 𝕜 :=
  if segLen = 0 then some 0 else quotient (target - start) segLen

/-- It divides by no zero. -/
theorem weight_eq (target start segLen : 𝕜) : weight target start segLen =
    some (if segLen = 0 then 0 else (target - start) / segLen) := by
  unfold weight
  split_ifs with h
  · rfl
  · exact quotient_eq h

/-- `while (seg < dists.length - 2 && dists[seg + 1] < target) seg++`, with
`left = dists.length - 2 - seg`. -/
def seekSeg (dists : List 𝕜) (target : 𝕜) : (left seg : ℕ) → ℕ
  | 0, seg => seg
  | left + 1, seg =>
      if dists[seg + 1]?.any (· < target) then seekSeg dists target left (seg + 1) else seg

/-- One turn of the loop: the point that is pushed. -/
def sample (coords : List (Coord 𝕜)) (dists : List 𝕜) (total : 𝕜) (n s : ℕ) :
    Option (Coord 𝕜) := do
  let target := (← quotient (s : 𝕜) (n - 1)) * total
  let seg := seekSeg dists target (dists.length - 2) 0
  let start ← dists[seg]?
  let segLen := (← dists[seg + 1]?) - start
  let t ← weight target start segLen
  let p ← coords[seg]?
  let q ← coords[seg + 1]?
  some (p.1 + t * (q.1 - p.1), p.2 + t * (q.2 - p.2))

def resample (haversineM : Coord 𝕜 → Coord 𝕜 → 𝕜) (coords : List (Coord 𝕜)) (n : ℕ) :
    Option (List (Coord 𝕜)) :=
  if coords.length = 1 then fillFirst coords n
  else do
    let dists := cumulative haversineM coords
    let total ← dists.getLast?
    if total = 0 then fillFirst coords n
    else (List.range n).mapM (sample coords dists total n)

omit [Field 𝕜] in
/-- The loop stops at the first segment that reaches the target, or at the last. -/
theorem seekSeg_spec {dists : List 𝕜} (target : 𝕜) {d : ℕ → 𝕜} {left seg : ℕ}
    (hd : ∀ i ≤ seg + left, dists[i]? = some (d i)) :
    seekSeg dists target left seg ≤ seg + left ∧
      (seekSeg dists target left seg = seg ∨ d (seekSeg dists target left seg) < target) ∧
      (seekSeg dists target left seg = seg + left ∨
        target ≤ d (seekSeg dists target left seg + 1)) := by
  induction left generalizing seg with
  | zero => exact ⟨le_refl _, Or.inl rfl, Or.inl rfl⟩
  | succ left ih =>
    simp only [seekSeg, hd (seg + 1) (by omega), Option.any_some, decide_eq_true_eq]
    split_ifs with hlt
    · have hnext : ∀ i ≤ seg + 1 + left, dists[i]? = some (d i) := fun i hi ↦ hd i (by omega)
      obtain ⟨hle, hbefore, hafter⟩ := ih hnext
      refine ⟨by omega, Or.inr ?_, ?_⟩
      · rcases hbefore with h | h
        · rwa [h]
        · exact h
      · rwa [show seg + (left + 1) = seg + 1 + left by omega]
    · exact ⟨by omega, Or.inl rfl, Or.inr (not_lt.mp hlt)⟩

/-- Among the lengths of a polyline it finds the segment that holds the target. -/
theorem seekSeg_brackets (h2 : 2 ≤ coords.length) {ℓ : 𝕜}
    (hlow : 0 ≤ ℓ) (hhigh : ℓ ≤ totalLength haversineM coords) :
    ∃ j, seekSeg (cumulative haversineM coords) ℓ (coords.length - 2) 0 = j ∧
      j + 1 < coords.length ∧ arcLength haversineM coords j ≤ ℓ ∧
      ℓ ≤ arcLength haversineM coords (j + 1) ∧ (j = 0 ∨ arcLength haversineM coords j < ℓ) := by
  have hread : ∀ i ≤ 0 + (coords.length - 2), (cumulative haversineM coords)[i]? =
      some (arcLength haversineM coords i) := fun i hi ↦ getElem?_cumulative (by omega)
  obtain ⟨hle, hbefore, hafter⟩ := seekSeg_spec ℓ hread
  refine ⟨_, rfl, by omega, ?_, ?_, hbefore⟩
  · rcases hbefore with hzero | hlt
    · rw [hzero]
      exact hlow
    · exact hlt.le
  · rcases hafter with hlast | hle
    · rw [arcLength_of_length_le (by omega)]
      exact hhigh
    · exact hle

variable [IsStrictOrderedRing 𝕜]

/-- The targets are spread from the start of the polyline to its end. -/
theorem target_mem {n s : ℕ} (hn : 2 ≤ n) (hs : s < n) {total : 𝕜} (htotal : 0 ≤ total) :
    (n : 𝕜) - 1 ≠ 0 ∧ 0 ≤ (s : 𝕜) / (n - 1) * total ∧ (s : 𝕜) / (n - 1) * total ≤ total := by
  have hden : (0 : 𝕜) < n - 1 := sub_pos.mpr (Nat.one_lt_cast.mpr hn)
  have hle : (s : 𝕜) ≤ n - 1 := by
    rw [le_sub_iff_add_le]
    exact_mod_cast hs
  refine ⟨hden.ne', mul_nonneg (div_nonneg s.cast_nonneg hden.le) htotal, ?_⟩
  exact mul_le_of_le_one_left htotal ((div_le_one hden).mpr hle)

/-- Each turn of the loop pushes the first point at its target. -/
theorem exists_sample (hlen : ∀ p q, 0 ≤ haversineM p q) (h2 : 2 ≤ coords.length) {n s : ℕ}
    (hn : 2 ≤ n) (hs : s < n) :
    ∃ p, sample coords (cumulative haversineM coords) (totalLength haversineM coords) n s = some p ∧
      FirstAt haversineM coords (s / (n - 1) * totalLength haversineM coords) p := by
  have hne : coords ≠ [] := List.ne_nil_of_length_pos (by omega)
  have htotal : 0 ≤ totalLength haversineM coords := arcLength_zero.symm.trans_le
    (arcLength_le_totalLength hlen)
  obtain ⟨hden, hlow, hhigh⟩ := target_mem hn hs htotal
  obtain ⟨j, hseek, hj, hl, hr, hfirst⟩ := seekSeg_brackets h2 hlow hhigh
  have hp : coords[j]? = some coords[j] := List.getElem?_eq_getElem (by omega)
  have hq : coords[j + 1]? = some coords[j + 1] := List.getElem?_eq_getElem hj
  have hsegLen := arcLength_succ haversineM hp hq
  have hon := onSegment_of_le hlen hp hq hl hr rfl
  refine ⟨_, ?_, j, _, _, _, hon, hfirst, fun h ↦ if_pos h⟩
  simp only [sample, quotient_eq hden, Option.bind_eq_bind, Option.bind_some, length_cumulative hne,
    hseek, getElem?_cumulative hj, getElem?_cumulative (Nat.lt_of_succ_lt hj),
    sub_eq_of_eq_add' hsegLen, weight_eq, hp, hq]
  rfl

/-- All turns together. -/
theorem exists_mapM_eq_some {α β : Type*} {f : α → Option β} {P : α → β → Prop} {l : List α}
    (h : ∀ a ∈ l, ∃ b, f a = some b ∧ P a b) :
    ∃ out, l.mapM f = some out ∧ List.Forall₂ P l out := by
  induction l with
  | nil => exact ⟨[], rfl, .nil⟩
  | cons a l ih =>
    obtain ⟨b, hb, hp⟩ := h a List.mem_cons_self
    obtain ⟨out, hout, hall⟩ := ih fun a ha ↦ h a (List.mem_cons_of_mem _ ha)
    refine ⟨b :: out, ?_, .cons hp hall⟩
    rw [List.mapM_cons, hb, hout]
    rfl

theorem exists_resample (hlen : ∀ p q, 0 ≤ haversineM p q) (hne : coords ≠ []) {n : ℕ}
    (hn : 2 ≤ n) :
    ∃ out, resample haversineM coords n = some out ∧ out.length = n ∧
      (coords.length = 1 ∨ totalLength haversineM coords = 0 →
        out = List.replicate n (coords.head hne)) ∧
      (2 ≤ coords.length → ∀ s (hs : s < out.length),
        FirstAt haversineM coords (s / (n - 1) * totalLength haversineM coords) out[s]) := by
  have hpos : 0 < coords.length := List.length_pos_iff.mpr hne
  unfold resample
  by_cases h1 : coords.length = 1
  · rw [if_pos h1]
    refine ⟨_, fillFirst_eq hne n, List.length_replicate, fun _ ↦ rfl, fun h2 ↦ ?_⟩
    omega
  have h2 : 2 ≤ coords.length := by omega
  simp only [if_neg h1, getLast?_cumulative, Option.bind_eq_bind, Option.bind_some]
  by_cases h0 : totalLength haversineM coords = 0
  · rw [if_pos h0]
    refine ⟨_, fillFirst_eq hne n, List.length_replicate, fun _ ↦ rfl, fun _ s hs ↦ ?_⟩
    rw [List.getElem_replicate, h0, mul_zero]
    refine firstAt_head ?_ (List.getElem?_eq_getElem h2)
    rw [← List.head?_eq_getElem?, List.head?_eq_some_head hne]
  · rw [if_neg h0]
    obtain ⟨out, hout, hall⟩ := exists_mapM_eq_some
      fun s hs ↦ exists_sample hlen h2 hn (List.mem_range.mp hs)
    have hlength : out.length = n := hall.length_eq.symm.trans List.length_range
    refine ⟨out, hout, hlength, ?_, fun _ s hs ↦ ?_⟩
    · rintro (h | h)
      · exact absurd h h1
      · exact absurd h h0
    · have hs' : s < (List.range n).length := by rwa [List.length_range, ← hlength]
      have hsample := hall.get hs' hs
      rwa [List.get_eq_getElem, List.getElem_range] at hsample

/-- The first sample is the first vertex, and the last a vertex that is as far along. -/
theorem resample_ends (hlen : ∀ p q, 0 ≤ haversineM p q) (hne : coords ≠ []) {n : ℕ} (hn : 2 ≤ n)
    {out : List (Coord 𝕜)} (h : resample haversineM coords n = some out) :
    out.head? = coords.head? ∧ ∃ k p, coords[k]? = some p ∧ out.getLast? = some p ∧
      arcLength haversineM coords k = totalLength haversineM coords := by
  obtain ⟨out', hout, rfl, hfill, hsamples⟩ := exists_resample hlen hne hn
  obtain rfl := Option.some.inj (h.symm.trans hout)
  by_cases h2 : 2 ≤ coords.length
  · have hfirst := hsamples h2 0 (by omega)
    rw [Nat.cast_zero, zero_div, zero_mul] at hfirst
    have hlast := hsamples h2 (out.length - 1) (by omega)
    have hden : (out.length : 𝕜) - 1 ≠ 0 := (sub_pos.mpr (Nat.one_lt_cast.mpr hn)).ne'
    rw [Nat.cast_pred (by omega), div_self hden, one_mul] at hlast
    obtain ⟨k, hk, harc⟩ := hlast.vertex hlen
    refine ⟨?_, k, _, hk, ?_, harc⟩
    · rw [hfirst.eq_head hlen, List.head?_eq_getElem?, List.getElem?_eq_getElem]
    · rw [List.getLast?_eq_getElem?, List.getElem?_eq_getElem]
  · have h1 : coords.length = 1 := by
      have hpos : 0 < coords.length := List.length_pos_iff.mpr hne
      omega
    have hhead : coords[0]? = some (coords.head hne) := by
      rw [← List.head?_eq_getElem?, List.head?_eq_some_head hne]
    have hn0 : out.length ≠ 0 := by omega
    rw [hfill (Or.inl h1)]
    refine ⟨?_, 0, coords.head hne, hhead, ?_, arcLength_of_length_le h1.le⟩
    · rw [List.head?_replicate, if_neg hn0, List.head?_eq_some_head hne]
    · rw [List.getLast?_replicate, if_neg hn0]

/-- It is the last vertex where only equal points are no distance apart. -/
theorem resample_getLast? (hlen : ∀ p q, 0 ≤ haversineM p q)
    (hsep : ∀ p q, haversineM p q = 0 → p = q) (hne : coords ≠ []) {n : ℕ} (hn : 2 ≤ n)
    {out : List (Coord 𝕜)} (h : resample haversineM coords n = some out) :
    out.getLast? = coords.getLast? := by
  obtain ⟨-, k, p, hk, hlast, harc⟩ := resample_ends hlen hne hn h
  obtain ⟨hlt, -⟩ := List.getElem?_eq_some_iff.mp hk
  have hend : arcLength haversineM coords (coords.length - 1) = totalLength haversineM coords :=
    arcLength_of_length_le (by omega)
  rw [hlast, ← hk, List.getLast?_eq_getElem?]
  exact getElem?_eq_of_arcLength_eq hlen hsep (by omega) (by omega) (harc.trans hend.symm)

/-- **The samples of a polyline**, for any length of a segment.

There are `n`, each on a segment, and as far along the polyline as its share of the whole; where
the polyline has no length they all are its first vertex.  The first of them is where it starts, the
last where it ends.  Nothing is divided by zero. -/
theorem resample_samples (hlen : ∀ p q, 0 ≤ haversineM p q) (hne : coords ≠ []) {n : ℕ}
    (hn : 2 ≤ n) :
    ∃ out, resample haversineM coords n = some out ∧ out.length = n ∧
      (coords.length = 1 ∨ totalLength haversineM coords = 0 →
        out = List.replicate n (coords.head hne)) ∧
      (2 ≤ coords.length → ∀ s (hs : s < out.length),
        At haversineM coords (s / (n - 1) * totalLength haversineM coords) out[s]) ∧
      out.head? = coords.head? ∧
      ∃ k p, coords[k]? = some p ∧ out.getLast? = some p ∧
        arcLength haversineM coords k = totalLength haversineM coords := by
  obtain ⟨out, hout, hlength, hfill, hsamples⟩ := exists_resample hlen hne hn
  exact ⟨out, hout, hlength, hfill, fun h2 s hs ↦ (hsamples h2 s hs).at,
    resample_ends hlen hne hn hout⟩

end Resample

/-- Along the axes. -/
def taxicab (p q : Coord ℚ) : ℚ := |q.1 - p.1| + |q.2 - p.2|

/-- Its first vertex is there twice. -/
def sampleCoords : List (Coord ℚ) := [(0, 0), (0, 0), (3, 0), (3, 4)]

example : resample taxicab sampleCoords 8 = some
    [(0, 0), (1, 0), (2, 0), (3, 0), (3, 1), (3, 2), (3, 3), (3, 4)] := by decide +kernel

theorem sampleCoords_samples :
    ∃ out, resample taxicab sampleCoords 25 = some out ∧ out.length = 25 ∧
      out.head? = some (0, 0) ∧ ∀ s (hs : s < out.length),
        At taxicab sampleCoords (s / ((25 : ℕ) - 1) * totalLength taxicab sampleCoords) out[s] := by
  have hlen : ∀ p q, 0 ≤ taxicab p q := fun p q ↦ add_nonneg (abs_nonneg _) (abs_nonneg _)
  obtain ⟨out, hout, hlength, -, hat, hhead, -⟩ :=
    resample_samples hlen (List.cons_ne_nil _ _ : sampleCoords ≠ []) (Nat.le_add_left 2 23)
  exact ⟨out, hout, hlength, hhead, hat (Nat.le_add_left 2 2)⟩

/-! ## The score -/

section Score

variable {𝕜 : Type u} [Field 𝕜] [LinearOrder 𝕜]

/-- How far the points of `from_` are from the nearest of `to_`, on average. -/
def meanNearestNeighbour (haversineM : Coord 𝕜 → Coord 𝕜 → 𝕜) (from_ to_ : List (Coord 𝕜)) :
    Option 𝕜 := do
  let mins ← from_.mapM fun p ↦ (to_.map (haversineM p)).min?
  quotient mins.sum from_.length

/-- `RESAMPLE_N`. -/
def resampleN : ℕ := 25

/-- `scoreRoutes`, of the two polylines. -/
def scoreRoutes (haversineM : Coord 𝕜 → Coord 𝕜 → 𝕜) (saturation : 𝕜)
    (p₁ p₂ : List (Coord 𝕜)) : Option 𝕜 := do
  let r₁ ← resample haversineM p₁ resampleN
  let r₂ ← resample haversineM p₂ resampleN
  let d₁ ← meanNearestNeighbour haversineM r₁ r₂
  let d₂ ← meanNearestNeighbour haversineM r₂ r₁
  let ratio ← quotient ((d₁ + d₂) / 2) saturation
  some (max 0 (1 - ratio))

variable [IsStrictOrderedRing 𝕜] {haversineM : Coord 𝕜 → Coord 𝕜 → 𝕜}

theorem exists_meanNearestNeighbour (hlen : ∀ p q, 0 ≤ haversineM p q)
    {from_ to_ : List (Coord 𝕜)} (hfrom : from_ ≠ []) (hto : to_ ≠ []) :
    ∃ d, meanNearestNeighbour haversineM from_ to_ = some d ∧ 0 ≤ d ∧
      ((∀ p, haversineM p p = 0) → from_ ⊆ to_ → d = 0) := by
  have hmin : ∀ p ∈ from_, ∃ m, (to_.map (haversineM p)).min? = some m ∧
      0 ≤ m ∧ ((∀ p, haversineM p p = 0) → p ∈ to_ → m = 0) := by
    intro p _
    have hne : to_.map (haversineM p) ≠ [] := List.map_eq_nil_iff.not.mpr hto
    obtain ⟨m, hm⟩ := Option.isSome_iff_exists.mp (List.isSome_min?_of_ne_nil hne)
    obtain ⟨hmem, hle⟩ := List.min?_eq_some_iff.mp hm
    obtain ⟨q, -, rfl⟩ := List.mem_map.mp hmem
    refine ⟨_, hm, hlen p q, fun hself hp ↦ le_antisymm ?_ (hlen p q)⟩
    exact hself p ▸ hle _ (List.mem_map_of_mem hp)
  obtain ⟨mins, hmins, hall⟩ := exists_mapM_eq_some hmin
  have hlength : (from_.length : 𝕜) ≠ 0 :=
    Nat.cast_ne_zero.mpr (List.length_pos_iff.mpr hfrom).ne'
  refine ⟨mins.sum / from_.length, ?_, ?_, fun hself hsub ↦ ?_⟩
  · rw [meanNearestNeighbour, hmins]
    exact quotient_eq hlength
  · refine div_nonneg (List.sum_nonneg fun m hm ↦ ?_) (Nat.cast_nonneg _)
    obtain ⟨j, hj, rfl⟩ := List.mem_iff_getElem.mp hm
    exact (hall.get (by rwa [hall.length_eq]) hj).1
  · have hzero : mins.sum = 0 := by
      refine List.sum_eq_zero fun m hm ↦ ?_
      obtain ⟨j, hj, rfl⟩ := List.mem_iff_getElem.mp hm
      exact (hall.get (by rwa [hall.length_eq]) hj).2 hself (hsub (List.getElem_mem _))
    rw [hzero, zero_div]

/-- Two routes score between 0 and 1, and a route scores 1 against itself. -/
theorem scoreRoutes_mem (hlen : ∀ p q, 0 ≤ haversineM p q) {saturation : 𝕜}
    (hsat : 0 < saturation) {p₁ p₂ : List (Coord 𝕜)} (h₁ : p₁ ≠ []) (h₂ : p₂ ≠ []) :
    ∃ score, scoreRoutes haversineM saturation p₁ p₂ = some score ∧ 0 ≤ score ∧ score ≤ 1 ∧
      ((∀ p, haversineM p p = 0) → p₁ = p₂ → score = 1) := by
  have hn : 2 ≤ resampleN := by decide
  obtain ⟨r₁, hr₁, hl₁, -, -⟩ := exists_resample hlen h₁ hn
  obtain ⟨r₂, hr₂, hl₂, -, -⟩ := exists_resample hlen h₂ hn
  have hne₁ : r₁ ≠ [] := List.ne_nil_of_length_pos (by omega)
  have hne₂ : r₂ ≠ [] := List.ne_nil_of_length_pos (by omega)
  obtain ⟨d₁, hd₁, hpos₁, hself₁⟩ := exists_meanNearestNeighbour hlen hne₁ hne₂
  obtain ⟨d₂, hd₂, hpos₂, hself₂⟩ := exists_meanNearestNeighbour hlen hne₂ hne₁
  have hratio : 0 ≤ (d₁ + d₂) / 2 / saturation :=
    div_nonneg (div_nonneg (add_nonneg hpos₁ hpos₂) zero_le_two) hsat.le
  refine ⟨max 0 (1 - (d₁ + d₂) / 2 / saturation), ?_, le_max_left _ _, ?_, fun hself he ↦ ?_⟩
  · simp only [scoreRoutes, hr₁, hr₂, hd₁, hd₂, quotient_eq hsat.ne', Option.bind_eq_bind,
      Option.bind_some]
  · exact max_le zero_le_one (sub_le_self 1 hratio)
  · subst he
    obtain rfl := Option.some.inj (hr₁.symm.trans hr₂)
    rw [hself₁ hself (List.Subset.refl _), hself₂ hself (List.Subset.refl _), add_zero, zero_div,
      zero_div, sub_zero, max_eq_right zero_le_one]

omit [IsStrictOrderedRing 𝕜] in
/-- The order of the routes does not matter. -/
theorem scoreRoutes_comm (saturation : 𝕜) (p₁ p₂ : List (Coord 𝕜)) :
    scoreRoutes haversineM saturation p₁ p₂ = scoreRoutes haversineM saturation p₂ p₁ := by
  unfold scoreRoutes
  cases resample haversineM p₁ resampleN with
  | none => cases resample haversineM p₂ resampleN <;> rfl
  | some r₁ =>
    cases resample haversineM p₂ resampleN with
    | none => rfl
    | some r₂ =>
      simp only [Option.bind_eq_bind, Option.bind_some]
      cases meanNearestNeighbour haversineM r₁ r₂ with
      | none => cases meanNearestNeighbour haversineM r₂ r₁ <;> rfl
      | some d₁ =>
        cases meanNearestNeighbour haversineM r₂ r₁ with
        | none => rfl
        | some d₂ => rw [Option.bind_some, Option.bind_some, Option.bind_some, Option.bind_some,
            add_comm]

end Score

/-! ## The haversine formula -/

section Haversine

open Real

/-- What the source takes the root of. -/
noncomputable def haversine (p q : Coord ℝ) : ℝ :=
  let dPhi := (q.2 - p.2) * π / 180
  let dLam := (q.1 - p.1) * π / 180
  let phi₁ := p.2 * π / 180
  let phi₂ := q.2 * π / 180
  sin (dPhi / 2) ^ 2 + cos phi₁ * cos phi₂ * sin (dLam / 2) ^ 2

/-- `haversineM`, in metres. -/
noncomputable def haversineM (p q : Coord ℝ) : ℝ := 2 * 6371000 * arcsin √(haversine p q)

/-- It comes from the cosine of the angle between the points, seen from the centre. -/
theorem haversine_eq (p q : Coord ℝ) : haversine p q =
    (1 - (sin (p.2 * π / 180) * sin (q.2 * π / 180) +
      cos (p.2 * π / 180) * (cos (q.2 * π / 180) * cos ((q.1 - p.1) * π / 180)))) / 2 := by
  have hhalf : ∀ x : ℝ, sin (x / 2) ^ 2 = (1 - cos x) / 2 := by
    intro x
    rw [sin_sq_eq_half_sub, mul_div_cancel₀ x two_ne_zero]
    ring
  have hsub : (q.2 - p.2) * π / 180 = q.2 * π / 180 - p.2 * π / 180 := by ring
  unfold haversine
  dsimp only
  rw [hhalf, hhalf, hsub, cos_sub]
  ring

/-- That angle has a cosine, whatever the latitudes and longitudes are. -/
theorem abs_sin_mul_sin_add_le_one (a b c : ℝ) :
    |sin a * sin b + cos a * (cos b * cos c)| ≤ 1 := by
  have ha := sin_sq_add_cos_sq a
  have hb := sin_sq_add_cos_sq b
  have hbc : sin b ^ 2 + (cos b * cos c) ^ 2 ≤ 1 := by
    have hle := mul_le_of_le_one_right (sq_nonneg (cos b)) (cos_sq_le_one c)
    rw [mul_pow]
    linarith
  -- Lagrange's identity
  have hsq : (sin a * sin b + cos a * (cos b * cos c)) ^ 2 +
      (sin a * (cos b * cos c) - cos a * sin b) ^ 2 =
      (sin a ^ 2 + cos a ^ 2) * (sin b ^ 2 + (cos b * cos c) ^ 2) := by ring
  rw [ha, one_mul] at hsq
  rw [← sq_le_one_iff_abs_le_one]
  linarith [sq_nonneg (sin a * (cos b * cos c) - cos a * sin b)]

/-- Neither the root nor the arcsine leaves its domain. -/
theorem haversine_mem (p q : Coord ℝ) : 0 ≤ haversine p q ∧ haversine p q ≤ 1 := by
  obtain ⟨hl, hr⟩ := abs_le.mp (abs_sin_mul_sin_add_le_one (p.2 * π / 180) (q.2 * π / 180)
    ((q.1 - p.1) * π / 180))
  rw [haversine_eq]
  constructor <;> linarith

theorem haversineM_nonneg (p q : Coord ℝ) : 0 ≤ haversineM p q :=
  mul_nonneg (by norm_num) (arcsin_nonneg.mpr (sqrt_nonneg _))

theorem haversineM_self (p : Coord ℝ) : haversineM p p = 0 := by
  simp [haversineM, haversine]

/-- Two routes score between 0 and 1, and the same road scores 1. -/
theorem scoreRoutes_haversineM {saturation : ℝ} (hsat : 0 < saturation)
    {p₁ p₂ : List (Coord ℝ)} (h₁ : p₁ ≠ []) (h₂ : p₂ ≠ []) :
    ∃ score, scoreRoutes haversineM saturation p₁ p₂ = some score ∧ 0 ≤ score ∧ score ≤ 1 ∧
      (p₁ = p₂ → score = 1) := by
  obtain ⟨score, hscore, hlow, hhigh, hself⟩ := scoreRoutes_mem haversineM_nonneg hsat h₁ h₂
  exact ⟨score, hscore, hlow, hhigh, hself haversineM_self⟩

end Haversine

end Rcab.Matching
