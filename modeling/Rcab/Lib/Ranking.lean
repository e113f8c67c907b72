import Mathlib.Data.List.Dedup
import Mathlib.Data.List.MinMax
import Mathlib.Data.List.Sort

/-!
# Partitions of a query

What `GROUP BY`, `DISTINCT ON` and `row_number() OVER (PARTITION BY … ORDER BY …)` make of the rows
of a query.  `key` is the partition a row falls in and `sort` what its rows are ordered by.

The rows a window query singles out are those no row of their partition sorts before
(`rowNumber_eq_one`).  Every partition has one (`exists_mem_distinctOn`), and only one when `sort`
tells its rows apart (`sort_eq_of_mem_distinctOn`).
-/

universe u v w

namespace Rcab

variable {ρ : Type u} {κ : Type v} {σ : Type w} [DecidableEq κ] [LinearOrder σ]

/-! ## Groups -/

section Groups

variable (key : ρ → κ) (rows : List ρ)

/-- The rows of one group. -/
def group (k : κ) : List ρ := rows.filter fun r ↦ key r = k

/-- `GROUP BY key HAVING count(*) > 1`. -/
def repeated : List κ := (rows.map key).dedup.filter fun k ↦ 1 < (group key rows k).length

variable {key rows} {k : κ} {r s : ρ}

@[simp] theorem mem_group : r ∈ group key rows k ↔ r ∈ rows ∧ key r = k := by
  simp [group]

theorem mem_repeated : k ∈ repeated key rows ↔ 1 < (group key rows k).length := by
  rw [repeated, List.mem_filter, List.mem_dedup, decide_eq_true_iff]
  refine ⟨And.right, fun h ↦ ⟨?_, h⟩⟩
  obtain ⟨r, hr⟩ := List.exists_mem_of_length_pos (by omega : 0 < (group key rows k).length)
  obtain ⟨hr, hk⟩ := mem_group.mp hr
  exact List.mem_map.mpr ⟨r, hr, hk⟩

/-- Two rows of one group. -/
theorem mem_repeated_of_ne (hr : r ∈ rows) (hs : s ∈ rows) (hk : key r = key s) (hne : r ≠ s) :
    key s ∈ repeated key rows := by
  rw [mem_repeated]
  have hr' : r ∈ group key rows (key s) := mem_group.mpr ⟨hr, hk⟩
  have hs' : s ∈ group key rows (key s) := mem_group.mpr ⟨hs, rfl⟩
  match h : group key rows (key s) with
  | [] =>
      rw [h] at hr'
      exact absurd hr' List.not_mem_nil
  | [t] =>
      rw [h, List.mem_singleton] at hr' hs'
      exact absurd (hr'.trans hs'.symm) hne
  | _ :: _ :: l => simp

end Groups

/-! ## Windows -/

section Windows

variable (key : ρ → κ) (sort : ρ → σ) (rows : List ρ)

/-- `row_number() OVER (PARTITION BY key ORDER BY sort)`. -/
def rowNumber (r : ρ) : ℕ := ((group key rows (key r)).filter fun s ↦ sort s < sort r).length + 1

/-- `DISTINCT ON (key) … ORDER BY key, sort`. -/
def distinctOn : List ρ := rows.filter fun r ↦ rowNumber key sort rows r = 1

variable {key sort rows} {r s : ρ}

theorem rowNumber_eq_one :
    rowNumber key sort rows r = 1 ↔ ∀ s ∈ rows, key s = key r → sort r ≤ sort s := by
  rw [rowNumber, Nat.add_eq_right, List.length_eq_zero_iff, List.filter_eq_nil_iff]
  constructor
  · intro h s hs hk
    simpa using h s (mem_group.mpr ⟨hs, hk⟩)
  · intro h s hs
    obtain ⟨hs, hk⟩ := mem_group.mp hs
    simpa using h s hs hk

@[simp] theorem mem_distinctOn : r ∈ distinctOn key sort rows ↔
    r ∈ rows ∧ ∀ s ∈ rows, key s = key r → sort r ≤ sort s := by
  rw [distinctOn, List.mem_filter, decide_eq_true_iff, rowNumber_eq_one]

/-- Every partition has a first row. -/
theorem exists_mem_distinctOn (hr : r ∈ rows) : ∃ s ∈ distinctOn key sort rows, key s = key r := by
  have hmem : r ∈ group key rows (key r) := mem_group.mpr ⟨hr, rfl⟩
  obtain ⟨s, hs⟩ : ∃ s, s ∈ (group key rows (key r)).argmin sort :=
    Option.ne_none_iff_exists'.mp fun h ↦ by simp [List.argmin_eq_none.mp h] at hmem
  obtain ⟨hsr, hk⟩ := mem_group.mp (List.argmin_mem hs)
  refine ⟨s, mem_distinctOn.mpr ⟨hsr, fun t ht hkt ↦ ?_⟩, hk⟩
  exact List.le_of_mem_argmin (mem_group.mpr ⟨ht, hkt.trans hk⟩) hs

/-- The first rows of one partition sort alike. -/
theorem sort_eq_of_mem_distinctOn (hr : r ∈ distinctOn key sort rows)
    (hs : s ∈ distinctOn key sort rows) (hk : key r = key s) : sort r = sort s := by
  obtain ⟨hr, hfirst⟩ := mem_distinctOn.mp hr
  obtain ⟨hs, hfirst'⟩ := mem_distinctOn.mp hs
  exact (hfirst s hs hk.symm).antisymm (hfirst' r hr hk)

end Windows

end Rcab
