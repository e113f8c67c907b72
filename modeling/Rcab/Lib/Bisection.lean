import Mathlib.Algebra.Order.Floor.Ring
import Mathlib.Algebra.Order.Field.Basic
import Mathlib.Data.List.Induction
import Mathlib.Tactic.FieldSimp
import Mathlib.Tactic.Linarith
import Mathlib.Tactic.Ring

/-!
# Bisecting an interval

`digits lo hi x n` says in which half `x` lies, `n` times over, which is to say in which of `2 ^ n`
equal cells (`digits_eq_iff`), and points of one cell are near each other (`abs_sub_le`).  Two such
codes are merged digit by digit (`merge`), and digits make a number (`number`); neither loses
anything.
-/

universe u v

namespace Rcab.Bisection

section Digits

variable {𝕜 : Type u} [Field 𝕜] [LinearOrder 𝕜]

/-- The middle belongs to the upper half. -/
def digits (lo hi x : 𝕜) : ℕ → List Bool
  | 0 => []
  | n + 1 =>
      if (lo + hi) / (2 : ℕ) ≤ x then true :: digits ((lo + hi) / (2 : ℕ)) hi x n
      else false :: digits lo ((lo + hi) / (2 : ℕ)) x n

theorem digits_succ (lo hi x : 𝕜) (n : ℕ) : digits lo hi x (n + 1) =
    if (lo + hi) / 2 ≤ x then true :: digits ((lo + hi) / 2) hi x n
    else false :: digits lo ((lo + hi) / 2) x n := by
  rw [digits, Nat.cast_ofNat]

@[simp] theorem length_digits (lo hi x : 𝕜) (n : ℕ) : (digits lo hi x n).length = n := by
  induction n generalizing lo hi with
  | zero => rfl
  | succ n ih =>
    rw [digits_succ]
    split_ifs <;> rw [List.length_cons, ih]

variable [FloorRing 𝕜]

/-- Which of `2 ^ n` equal cells a point is in, the outermost ones reaching further out. -/
def cell (lo hi x : 𝕜) (n : ℕ) : ℤ :=
  max 0 (min (2 ^ n - 1) ⌊(x - lo) / (hi - lo) * (2 ^ n : ℕ)⌋)

theorem cell_eq (lo hi x : 𝕜) (n : ℕ) :
    cell lo hi x n = max 0 (min (2 ^ n - 1) ⌊(x - lo) / (hi - lo) * 2 ^ n⌋) := by
  rw [cell, Nat.cast_pow, Nat.cast_ofNat]

theorem cell_zero (lo hi x : 𝕜) : cell lo hi x 0 = 0 := by
  rw [cell_eq, pow_zero, sub_self]
  exact max_eq_left (min_le_left _ _)

theorem cell_nonneg (lo hi x : 𝕜) (n : ℕ) : 0 ≤ cell lo hi x n := le_max_left _ _

theorem cell_lt (lo hi x : 𝕜) (n : ℕ) : cell lo hi x n < 2 ^ n := by
  have hpow : (0 : ℤ) < 2 ^ n := by positivity
  exact max_lt hpow ((min_le_left _ _).trans_lt (sub_one_lt _))

variable [IsStrictOrderedRing 𝕜] {lo hi x y : 𝕜}

/-- The cells of the lower half come first. -/
theorem cell_lower (h : lo < hi) (hx : x < (lo + hi) / 2) (n : ℕ) :
    cell lo hi x (n + 1) = cell lo ((lo + hi) / 2) x n := by
  have hw : 0 < hi - lo := sub_pos.mpr h
  have hfloor : (x - lo) / (hi - lo) * 2 ^ (n + 1) =
      (x - lo) / ((lo + hi) / 2 - lo) * 2 ^ n := by
    rw [show (lo + hi) / 2 - lo = (hi - lo) / 2 by ring]
    field_simp
    ring
  have hlt : ⌊(x - lo) / ((lo + hi) / 2 - lo) * 2 ^ n⌋ < 2 ^ n := by
    refine Int.floor_lt.mpr ?_
    push_cast
    refine mul_lt_of_lt_one_left (by positivity) ((div_lt_one ?_).mpr ?_) <;> linarith
  have hpow : (0 : ℤ) < 2 ^ n := by positivity
  rw [cell_eq, cell_eq, hfloor, min_eq_right (by rw [pow_succ]; omega), min_eq_right (by omega)]

/-- The cells of the upper half follow. -/
theorem cell_upper (h : lo < hi) (hx : (lo + hi) / 2 ≤ x) (n : ℕ) :
    cell lo hi x (n + 1) = cell ((lo + hi) / 2) hi x n + 2 ^ n := by
  have hw : 0 < hi - lo := sub_pos.mpr h
  have hfloor : ⌊(x - lo) / (hi - lo) * 2 ^ (n + 1)⌋ =
      ⌊(x - (lo + hi) / 2) / (hi - (lo + hi) / 2) * 2 ^ n⌋ + 2 ^ n := by
    rw [show ((2 : ℤ) ^ n) = ((2 ^ n : ℕ) : ℤ) by push_cast; rfl, ← Int.floor_add_natCast]
    congr 1
    rw [show hi - (lo + hi) / 2 = (hi - lo) / 2 by ring]
    push_cast
    field_simp
    ring
  have hpos : 0 ≤ ⌊(x - (lo + hi) / 2) / (hi - (lo + hi) / 2) * 2 ^ n⌋ :=
    Int.floor_nonneg.mpr (mul_nonneg (div_nonneg (by linarith) (by linarith)) (by positivity))
  have hpow : (0 : ℤ) < 2 ^ n := by positivity
  rw [cell_eq, cell_eq, hfloor, pow_succ]
  omega

/-- The digits tell the cell, and the cell the digits. -/
theorem digits_eq_iff (h : lo < hi) (n : ℕ) :
    digits lo hi x n = digits lo hi y n ↔ cell lo hi x n = cell lo hi y n := by
  induction n generalizing lo hi with
  | zero => simp [digits, cell_zero]
  | succ n ih =>
    have hupp := cell_nonneg ((lo + hi) / 2) hi
    have hlow := cell_lt lo ((lo + hi) / 2)
    rw [digits_succ, digits_succ]
    split_ifs with hx hy hy
    · rw [cell_upper h hx, cell_upper h hy, List.cons.injEq, ih (by linarith)]
      simp
    · rw [cell_upper h hx, cell_lower h (not_le.mp hy)]
      have := hupp x n
      have := hlow y n
      simp only [List.cons.injEq, reduceCtorEq, false_and, false_iff]
      omega
    · rw [cell_lower h (not_le.mp hx), cell_upper h hy]
      have := hlow x n
      have := hupp y n
      simp only [List.cons.injEq, reduceCtorEq, false_and, false_iff]
      omega
    · rw [cell_lower h (not_le.mp hx), cell_lower h (not_le.mp hy), List.cons.injEq,
        ih (by linarith)]
      simp

/-- Where a point of the interval lies in its cell, in widths of a cell. -/
theorem mem_cell (hlo : lo ≤ x) (hhi : x ≤ hi) (h : lo < hi) (n : ℕ) :
    (cell lo hi x n : 𝕜) ≤ (x - lo) / (hi - lo) * 2 ^ n ∧
      (x - lo) / (hi - lo) * 2 ^ n ≤ cell lo hi x n + 1 := by
  have hw : 0 < hi - lo := sub_pos.mpr h
  have hpow : (0 : 𝕜) < 2 ^ n := by positivity
  have hnonneg : 0 ≤ ⌊(x - lo) / (hi - lo) * 2 ^ n⌋ :=
    Int.floor_nonneg.mpr (mul_nonneg (div_nonneg (by linarith) hw.le) hpow.le)
  have hle : (x - lo) / (hi - lo) * 2 ^ n ≤ 2 ^ n :=
    mul_le_of_le_one_left hpow.le ((div_le_one hw).mpr (by linarith))
  have hfloor := Int.floor_le ((x - lo) / (hi - lo) * 2 ^ n)
  rcases le_or_gt ⌊(x - lo) / (hi - lo) * 2 ^ n⌋ (2 ^ n - 1) with hin | hend
  · rw [cell_eq, min_eq_right hin, max_eq_right hnonneg]
    exact ⟨hfloor, (Int.lt_floor_add_one _).le⟩
  · -- The upper end.
    have hpow' : (0 : ℤ) < 2 ^ n := by positivity
    rw [cell_eq, min_eq_left hend.le, max_eq_right (by omega)]
    push_cast
    refine ⟨le_trans ?_ hfloor, by linarith⟩
    exact_mod_cast hend.le

/-- Points of one cell are no more than its width apart. -/
theorem abs_sub_le (hx : lo ≤ x ∧ x ≤ hi) (hy : lo ≤ y ∧ y ≤ hi) (h : lo < hi) {n : ℕ}
    (hcell : cell lo hi x n = cell lo hi y n) : |x - y| ≤ (hi - lo) / 2 ^ n := by
  have hw : 0 < hi - lo := sub_pos.mpr h
  have hpow : (0 : 𝕜) < 2 ^ n := by positivity
  obtain ⟨hx₁, hx₂⟩ := mem_cell hx.1 hx.2 h n
  obtain ⟨hy₁, hy₂⟩ := mem_cell hy.1 hy.2 h n
  rw [hcell] at hx₁ hx₂
  have hdiff : |(x - lo) / (hi - lo) * 2 ^ n - (y - lo) / (hi - lo) * 2 ^ n| ≤ 1 :=
    abs_le.mpr ⟨by linarith, by linarith⟩
  rw [← sub_mul, ← sub_div, sub_sub_sub_cancel_right, abs_mul, abs_div, abs_of_pos hw,
    abs_of_pos hpow] at hdiff
  rw [le_div_iff₀ hpow]
  have hmul := mul_le_mul_of_nonneg_right hdiff hw.le
  rwa [one_mul, mul_right_comm, div_mul_cancel₀ _ hw.ne'] at hmul

end Digits

section Merge

variable {α : Type v}

/-- One from each, by turns. -/
def merge : List α → List α → List α
  | [], bs => bs
  | a :: as, [] => a :: as
  | a :: as, b :: bs => a :: b :: merge as bs

@[simp] theorem merge_nil (bs : List α) : merge [] bs = bs := rfl

/-- After one list's turn it is the other's. -/
theorem merge_cons (a : α) (as bs : List α) : merge (a :: as) bs = a :: merge bs as := by
  induction as generalizing a bs with
  | nil => cases bs <;> rfl
  | cons a' as ih =>
    cases bs with
    | nil => rfl
    | cons b bs => rw [merge, merge, ih]

@[simp] theorem length_merge (as bs : List α) :
    (merge as bs).length = as.length + bs.length := by
  induction as generalizing bs with
  | nil => simp
  | cons a as ih =>
    cases bs with
    | nil => rfl
    | cons b bs =>
      simp only [merge, List.length_cons, ih]
      omega

theorem merge_inj {as bs as' bs' : List α} (has : as.length = as'.length)
    (hbs : bs.length = bs'.length) : merge as bs = merge as' bs' ↔ as = as' ∧ bs = bs' := by
  induction as generalizing bs as' bs' with
  | nil =>
    obtain rfl := List.length_eq_zero_iff.mp has.symm
    simp
  | cons a as ih =>
    obtain ⟨a', as', rfl⟩ := List.exists_cons_of_length_eq_add_one has.symm
    cases bs with
    | nil =>
      obtain rfl := List.length_eq_zero_iff.mp hbs.symm
      simp [merge]
    | cons b bs =>
      obtain ⟨b', bs', rfl⟩ := List.exists_cons_of_length_eq_add_one hbs.symm
      simp only [merge, List.cons.injEq, ih (Nat.succ.inj has) (Nat.succ.inj hbs)]
      tauto

end Merge

section Number

/-- The number with these binary digits. -/
def number (bs : List Bool) : ℕ := bs.foldl (fun n b ↦ 2 * n + b.toNat) 0

@[simp] theorem number_nil : number [] = 0 := rfl

theorem number_concat (bs : List Bool) (b : Bool) : number (bs ++ [b]) = 2 * number bs + b.toNat := by
  simp [number]

theorem number_lt (bs : List Bool) : number bs < 2 ^ bs.length := by
  induction bs using List.reverseRecOn with
  | nil => simp
  | append_singleton bs b ih =>
    have hb := b.toNat_le
    rw [number_concat, List.length_append, List.length_singleton, pow_succ]
    omega

theorem number_inj {bs bs' : List Bool} (h : bs.length = bs'.length) :
    number bs = number bs' ↔ bs = bs' := by
  induction bs using List.reverseRecOn generalizing bs' with
  | nil =>
    obtain rfl := List.length_eq_zero_iff.mp h.symm
    simp
  | append_singleton bs b ih =>
    obtain rfl | ⟨bs', b', rfl⟩ := List.eq_nil_or_concat bs'
    · simp at h
    · have hlen : bs.length = bs'.length := by simpa using h
      rw [List.concat_eq_append, number_concat, number_concat, List.append_singleton_inj, ← ih hlen]
      cases b <;> cases b' <;> simp <;> omega

end Number

end Rcab.Bisection
