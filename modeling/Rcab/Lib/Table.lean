import Mathlib.Data.List.Basic
import Mathlib.Data.List.Nodup
import Mathlib.Logic.Function.Basic

/-!
# Keyed tables

A relational table as a finite list of rows no two of which agree on the primary
key.  The key's uniqueness is a *field* of `Table`, so a table with two rows of
one key cannot be built, and a row is determined by its key (`Table.unique`).

The operations are the four statements a program issues against such a table:
`get` (a lookup by key), `insert`, `update` (`UPDATE … SET f WHERE p`) and
`delete` (`DELETE … WHERE p`).  Each comes with the two lemmas later proofs use:
what a lookup sees afterwards and what the rows are afterwards.

`insert` leaves the table alone when the key is taken.  Whether that is an error
or a silent skip is the statement's business, not the table's: a caller that must
fail checks the key first.

Secondary uniqueness (`UNIQUE (…) WHERE …`) is the predicate `UniqueOn`, which
says that among the rows satisfying `p` the value `f` determines the row.
-/

universe u v w

namespace Rcab

/-- A finite set of rows with pairwise distinct keys. -/
structure Table {ρ : Type u} {κ : Type v} (key : ρ → κ) where
  /-- The rows, in insertion order. -/
  rows : List ρ
  /-- No two rows share a key. -/
  nodup : (rows.map key).Nodup

namespace Table

variable {ρ : Type u} {κ : Type v} {key : ρ → κ}

instance : Membership ρ (Table key) := ⟨fun t r ↦ r ∈ t.rows⟩

theorem mem_def {t : Table key} {r : ρ} : r ∈ t ↔ r ∈ t.rows := Iff.rfl

/-- A row is determined by its key. -/
theorem unique {t : Table key} {r s : ρ} (hr : r ∈ t) (hs : s ∈ t) (h : key r = key s) :
    r = s :=
  List.inj_on_of_nodup_map t.nodup hr hs h

/-- The table without rows. -/
def empty : Table key := ⟨[], List.nodup_nil⟩

@[simp] theorem notMem_empty (r : ρ) : r ∉ (empty : Table key) := List.not_mem_nil

section Update

/-- `UPDATE … SET f WHERE p`, for an `f` that leaves the key alone. -/
def update (t : Table key) (p : ρ → Prop) [DecidablePred p] (f : ρ → ρ)
    (hf : ∀ r, key (f r) = key r := by intro; rfl) : Table key where
  rows := t.rows.map fun r ↦ if p r then f r else r
  nodup := by
    have h : (t.rows.map fun r ↦ if p r then f r else r).map key = t.rows.map key := by
      rw [List.map_map]
      refine List.map_congr_left fun r _ ↦ ?_
      by_cases hp : p r
      · simp [hp, hf]
      · simp [hp]
    rw [h]
    exact t.nodup

/-- `DELETE … WHERE p`. -/
def delete (t : Table key) (p : ρ → Prop) [DecidablePred p] : Table key where
  rows := t.rows.filter fun r ↦ ¬ p r
  nodup := t.nodup.sublist (List.filter_sublist.map key)

variable {t : Table key} {p : ρ → Prop} [DecidablePred p]

/-- The rows after an update: the matching ones rewritten, the others as they were. -/
theorem mem_update {f : ρ → ρ} {hf : ∀ r, key (f r) = key r} {r : ρ} :
    r ∈ t.update p f hf ↔ ∃ s ∈ t, (if p s then f s else s) = r :=
  List.mem_map

@[simp] theorem mem_delete {r : ρ} : r ∈ t.delete p ↔ r ∈ t ∧ ¬ p r := by
  simp [mem_def, delete]

/-- An update that matches no row does nothing. -/
theorem update_eq_self {f : ρ → ρ} {hf : ∀ r, key (f r) = key r} (h : ∀ r ∈ t, ¬ p r) :
    t.update p f hf = t := by
  have : (t.rows.map fun r ↦ if p r then f r else r) = t.rows := by
    conv_rhs => rw [← List.map_id t.rows]
    exact List.map_congr_left fun r hr ↦ if_neg (h r hr)
  cases t
  simp only [update, mk.injEq]
  exact this

/-- An update leaves the keys alone, and in their order. -/
theorem map_key_update {f : ρ → ρ} (hf : ∀ r, key (f r) = key r) :
    (t.update p f hf).rows.map key = t.rows.map key := by
  rw [update, List.map_map]
  refine List.map_congr_left fun r _ ↦ ?_
  simp only [Function.comp_apply]
  split_ifs
  · exact hf r
  · rfl

/-- A row the update does not match stays. -/
theorem mem_update_of_not {f : ρ → ρ} (hf : ∀ r, key (f r) = key r) {r : ρ} (hr : r ∈ t)
    (hp : ¬ p r) : r ∈ t.update p f hf :=
  mem_update.mpr ⟨r, hr, if_neg hp⟩

/-- What the rewritten rows and the others satisfy holds after the update. -/
theorem forall_mem_update {P : ρ → Prop} {f : ρ → ρ} (hf : ∀ r, key (f r) = key r)
    (h : ∀ r ∈ t, P r) (hp : ∀ r ∈ t, p r → P (f r)) : ∀ r ∈ t.update p f hf, P r := by
  intro r hr
  obtain ⟨s, hs, rfl⟩ := mem_update.mp hr
  split_ifs with h'
  · exact hp s hs h'
  · exact h s hs

end Update

section Get

variable [DecidableEq κ]

/-- The row with a given key. -/
def get (t : Table key) (k : κ) : Option ρ := t.rows.find? fun r ↦ key r = k

/-- `INSERT`: appends the row, unless its key is taken. -/
def insert (t : Table key) (r : ρ) : Table key :=
  if h : key r ∈ t.rows.map key then t
  else ⟨t.rows ++ [r], by
    rw [List.map_append, List.map_singleton, List.nodup_append]
    refine ⟨t.nodup, List.nodup_singleton _, fun a ha b hb ↦ ?_⟩
    rw [List.mem_singleton] at hb
    exact fun hab ↦ h (hb ▸ hab ▸ ha)⟩

variable {t : Table key} {k : κ} {r : ρ}

/-- A lookup finds exactly the row with that key. -/
theorem get_eq_some : t.get k = some r ↔ r ∈ t ∧ key r = k := by
  constructor
  · intro h
    exact ⟨List.mem_of_find?_eq_some h, by simpa using List.find?_some h⟩
  · rintro ⟨hr, rfl⟩
    cases hg : t.get (key r) with
    | none =>
        have := List.find?_eq_none.mp hg r hr
        simp at this
    | some s =>
        have hs : s ∈ t := List.mem_of_find?_eq_some hg
        have hk : key s = key r := by simpa using List.find?_some hg
        rw [unique hs hr hk]

theorem get_eq_none : t.get k = none ↔ ∀ r ∈ t, key r ≠ k := by
  simp [get, List.find?_eq_none, mem_def]

theorem mem_of_get (h : t.get k = some r) : r ∈ t := (get_eq_some.mp h).1

theorem key_of_get (h : t.get k = some r) : key r = k := (get_eq_some.mp h).2

theorem get_of_mem (h : r ∈ t) : t.get (key r) = some r := get_eq_some.mpr ⟨h, rfl⟩

@[simp] theorem get_empty : (empty : Table key).get k = none := rfl

@[simp] theorem get_update {p : ρ → Prop} [DecidablePred p] {f : ρ → ρ}
    {hf : ∀ r, key (f r) = key r} :
    (t.update p f hf).get k = (t.get k).map fun r ↦ if p r then f r else r := by
  have hkey : ∀ s, key (if p s then f s else s) = key s := fun s ↦ by
    by_cases hp : p s
    · simp [hp, hf]
    · simp [hp]
  cases hg : t.get k with
  | none =>
      rw [Option.map_none, get_eq_none]
      intro r hr
      obtain ⟨s, hs, rfl⟩ := mem_update.mp hr
      rw [hkey]
      exact get_eq_none.mp hg s hs
  | some s =>
      rw [Option.map_some, get_eq_some]
      refine ⟨mem_update.mpr ⟨s, mem_of_get hg, rfl⟩, ?_⟩
      rw [hkey]
      exact key_of_get hg

/-- An update of the row with one key is seen at that key only. -/
theorem get_update_key {k' : κ} {q : ρ → Prop} [DecidablePred q] {f : ρ → ρ}
    (hf : ∀ r, key (f r) = key r) (hq : ∀ r, q r → key r = k') (hne : k ≠ k') :
    (t.update q f hf).get k = t.get k := by
  rw [get_update]
  cases hg : t.get k with
  | none => rfl
  | some r =>
      have : ¬ q r := fun h ↦ hne ((key_of_get hg).symm.trans (hq r h))
      simp [this]

@[simp] theorem get_delete {p : ρ → Prop} [DecidablePred p] :
    (t.delete p).get k = (t.get k).filter fun r ↦ ¬ p r := by
  cases hg : t.get k with
  | none =>
      rw [Option.filter_none, get_eq_none]
      intro r hr
      exact get_eq_none.mp hg r (mem_delete.mp hr).1
  | some s =>
      by_cases hp : p s
      · have : (some s).filter (fun r ↦ decide (¬ p r)) = none := by simp [hp]
        rw [this, get_eq_none]
        intro r hr hk
        obtain ⟨hr, hnp⟩ := mem_delete.mp hr
        exact hnp (unique hr (mem_of_get hg) (hk.trans (key_of_get hg).symm) ▸ hp)
      · have : (some s).filter (fun r ↦ decide (¬ p r)) = some s := by simp [hp]
        rw [this, get_eq_some]
        exact ⟨mem_delete.mpr ⟨mem_of_get hg, hp⟩, key_of_get hg⟩

theorem rows_insert (h : t.get (key r) = none) : (t.insert r).rows = t.rows ++ [r] := by
  have : key r ∉ t.rows.map key := by
    rw [List.mem_map]
    rintro ⟨s, hs, hk⟩
    exact get_eq_none.mp h s hs hk
  simp [insert, this]

theorem insert_of_isSome (h : (t.get (key r)).isSome) : t.insert r = t := by
  obtain ⟨s, hs⟩ := Option.isSome_iff_exists.mp h
  have : key r ∈ t.rows.map key := List.mem_map.mpr ⟨s, mem_of_get hs, key_of_get hs⟩
  simp [insert, this]

/-- The rows after an insertion under a fresh key. -/
theorem mem_insert {s : ρ} (h : t.get (key r) = none) : s ∈ t.insert r ↔ s ∈ t ∨ s = r := by
  simp [mem_def, rows_insert h]

theorem get_insert (h : t.get (key r) = none) :
    (t.insert r).get k = if k = key r then some r else t.get k := by
  by_cases hk : k = key r
  · rw [if_pos hk, get_eq_some]
    exact ⟨(mem_insert h).mpr (Or.inr rfl), hk.symm⟩
  · rw [if_neg hk]
    cases hg : t.get k with
    | none =>
        rw [get_eq_none]
        intro s hs
        rcases (mem_insert h).mp hs with hs | rfl
        · exact get_eq_none.mp hg s hs
        · exact fun hks ↦ hk hks.symm
    | some s =>
        rw [get_eq_some]
        exact ⟨(mem_insert h).mpr (Or.inl (mem_of_get hg)), key_of_get hg⟩

/-- The keys after an insertion, whether or not it found its key free. -/
theorem isSome_get_insert : ((t.insert r).get k).isSome ↔ k = key r ∨ (t.get k).isSome := by
  cases h : t.get (key r) with
  | none =>
      rw [get_insert h]
      by_cases hk : k = key r
      · simp [hk]
      · simp [hk]
  | some s =>
      rw [insert_of_isSome (Option.isSome_iff_exists.mpr ⟨s, h⟩)]
      refine ⟨Or.inr, ?_⟩
      rintro (rfl | hk)
      · exact Option.isSome_iff_exists.mpr ⟨s, h⟩
      · exact hk

/-- It adds none but its own. -/
theorem mem_of_mem_foldl_insert {rs : List ρ} (h : r ∈ rs.foldl insert t) : r ∈ t ∨ r ∈ rs := by
  induction rs generalizing t with
  | nil => exact Or.inl h
  | cons s rs ih =>
      rcases ih h with hr | hr
      · cases hs : t.get (key s) with
        | none =>
            rcases (mem_insert hs).mp hr with hr | rfl
            · exact Or.inl hr
            · exact Or.inr List.mem_cons_self
        | some s' =>
            rw [insert_of_isSome (Option.isSome_iff_exists.mpr ⟨s', hs⟩)] at hr
            exact Or.inl hr
      · exact Or.inr (List.mem_cons_of_mem s hr)

/-- Every one of them has its key there afterwards. -/
theorem isSome_get_foldl_insert {rs : List ρ} :
    ((rs.foldl insert t).get k).isSome ↔ (t.get k).isSome ∨ ∃ r ∈ rs, key r = k := by
  induction rs generalizing t with
  | nil => simp
  | cons s rs ih =>
      rw [List.foldl_cons, ih, isSome_get_insert, List.exists_mem_cons_iff, @eq_comm _ k]
      tauto

/-- An update leaves the keys alone. -/
theorem isSome_get_update {p : ρ → Prop} [DecidablePred p] {f : ρ → ρ}
    (hf : ∀ r, key (f r) = key r) : ((t.update p f hf).get k).isSome = (t.get k).isSome := by
  rw [get_update, Option.isSome_map]

/-- A row in place of the one with its key, if there is one. -/
def put (t : Table key) (r : ρ) : Table key := (t.delete fun s ↦ key s = key r).insert r

theorem get_put : (t.put r).get k = if k = key r then some r else t.get k := by
  have hfree : (t.delete fun s ↦ key s = key r).get (key r) = none :=
    get_eq_none.mpr fun s hs ↦ (mem_delete.mp hs).2
  rw [put, get_insert hfree]
  split_ifs with hk
  · rfl
  · rw [get_delete]
    cases hg : t.get k with
    | none => rfl
    | some s =>
        have hne : key s ≠ key r := fun h ↦ hk ((key_of_get hg).symm.trans h)
        simp [hne]

end Get

/-! ## Queries -/

/-- The rows satisfying `p`, in insertion order. -/
def filter (t : Table key) (p : ρ → Prop) [DecidablePred p] : List ρ := t.rows.filter fun r ↦ p r

@[simp] theorem mem_filter {t : Table key} {p : ρ → Prop} [DecidablePred p] {r : ρ} :
    r ∈ t.filter p ↔ r ∈ t ∧ p r := by
  simp [filter, mem_def]

/-- The rows of a query after an update that moves none of them in or out. -/
theorem filter_update {t : Table key} {p q : ρ → Prop} [DecidablePred p] [DecidablePred q]
    {f : ρ → ρ} (hf : ∀ r, key (f r) = key r) (hq : ∀ r ∈ t, p r → (q (f r) ↔ q r)) :
    (t.update p f hf).filter q = (t.filter q).map fun r ↦ if p r then f r else r := by
  have hq' : ∀ r ∈ t, (q (if p r then f r else r) ↔ q r) := fun r hr ↦ by
    by_cases hp : p r
    · rw [if_pos hp, hq r hr hp]
    · rw [if_neg hp]
  simp only [filter, update, List.filter_map]
  refine congrArg _ (List.filter_congr fun r hr ↦ ?_)
  simp [hq' r hr]

/-- A query that an update does not concern. -/
theorem filter_update_of_not {t : Table key} {p q : ρ → Prop} [DecidablePred p] [DecidablePred q]
    {f : ρ → ρ} (hf : ∀ r, key (f r) = key r) (hq : ∀ r ∈ t, p r → (q (f r) ↔ q r))
    (hp : ∀ r ∈ t, q r → ¬ p r) : (t.update p f hf).filter q = t.filter q := by
  rw [filter_update hf hq]
  conv_rhs => rw [← List.map_id (t.filter q)]
  refine List.map_congr_left fun r hr ↦ ?_
  obtain ⟨hr, hqr⟩ := mem_filter.mp hr
  exact if_neg (hp r hr hqr)

/-- The rows of a query after an insertion under a fresh key. -/
theorem filter_insert [DecidableEq κ] {t : Table key} {q : ρ → Prop} [DecidablePred q] {r : ρ}
    (h : t.get (key r) = none) :
    (t.insert r).filter q = if q r then t.filter q ++ [r] else t.filter q := by
  simp only [filter, rows_insert h, List.filter_append]
  split_ifs with hq
  · simp [hq]
  · simp [hq]

/-- A column that the query's rows and the key determine has no repetitions. -/
theorem nodup_map_filter {β : Type w} {t : Table key} {q : ρ → Prop} [DecidablePred q] {c : ρ → β}
    (hc : ∀ r s, q r → q s → c r = c s → key r = key s) : ((t.filter q).map c).Nodup := by
  refine List.Nodup.map_on ?_ ((List.Nodup.of_map key t.nodup).filter _)
  intro r hr s hs hrs
  obtain ⟨hr, hqr⟩ := mem_filter.mp hr
  obtain ⟨hs, hqs⟩ := mem_filter.mp hs
  exact unique hr hs (hc r s hqr hqs hrs)

/-- A query that determines its row returns it at most once. -/
theorem length_filter_le_one {t : Table key} {q : ρ → Prop} [DecidablePred q]
    (h : ∀ r ∈ t, ∀ s ∈ t, q r → q s → key r = key s) : (t.filter q).length ≤ 1 := by
  have hnodup : (t.filter q).Nodup := (List.Nodup.of_map key t.nodup).filter _
  cases hf : t.filter q with
  | nil => exact Nat.zero_le 1
  | cons r l =>
      have hall : ∀ s ∈ t.filter q, s = r := by
        intro s hs
        obtain ⟨hs, hqs⟩ := mem_filter.mp hs
        obtain ⟨hr, hqr⟩ := mem_filter.mp (hf ▸ List.mem_cons_self : r ∈ t.filter q)
        exact unique hs hr (h s hs r hr hqs hqr)
      rw [hf] at hnodup hall
      obtain ⟨hnot, -⟩ := List.nodup_cons.mp hnodup
      have : l = [] := List.eq_nil_iff_forall_not_mem.mpr fun s hs ↦
        hnot (hall s (List.mem_cons_of_mem r hs) ▸ hs)
      simp [this]

/-- Some row satisfies `p`. -/
def Any (t : Table key) (p : ρ → Prop) : Prop := ∃ r ∈ t, p r

instance {t : Table key} {p : ρ → Prop} [DecidablePred p] : Decidable (t.Any p) :=
  inferInstanceAs (Decidable (∃ r ∈ t.rows, p r))

/-! ## Secondary uniqueness -/

/-- `UNIQUE (f) WHERE p`: among the rows satisfying `p`, `f` determines the row. -/
def UniqueOn {β : Type w} (t : Table key) (p : ρ → Prop) (f : ρ → β) : Prop :=
  ∀ r ∈ t, ∀ s ∈ t, p r → p s → f r = f s → r = s

namespace UniqueOn

variable {β : Type w} {t : Table key} {p : ρ → Prop} {f : ρ → β}

theorem empty : (Table.empty : Table key).UniqueOn p f := fun r hr ↦ absurd hr (notMem_empty r)

/-- An insertion checked against the index keeps it. -/
theorem insert [DecidableEq κ] {r : ρ} (h : t.UniqueOn p f) (hk : t.get (key r) = none)
    (hfree : p r → ¬ t.Any fun s ↦ p s ∧ f s = f r) : (t.insert r).UniqueOn p f := by
  intro a ha b hb pa pb hab
  rcases (mem_insert hk).mp ha with ha' | rfl <;> rcases (mem_insert hk).mp hb with hb' | rfl
  · exact h a ha' b hb' pa pb hab
  · exact absurd ⟨a, ha', pa, hab⟩ (hfree pb)
  · exact absurd ⟨b, hb', pb, hab.symm⟩ (hfree pa)
  · rfl

/-- Deleting rows keeps an index. -/
theorem delete {q : ρ → Prop} [DecidablePred q] (h : t.UniqueOn p f) :
    (t.delete q).UniqueOn p f := by
  intro a ha b hb
  exact h a (mem_delete.mp ha).1 b (mem_delete.mp hb).1

/-- An update that brings no new row under the index, and moves no indexed value,
keeps it. -/
theorem update {q : ρ → Prop} [DecidablePred q] {g : ρ → ρ} (hg : ∀ r, key (g r) = key r)
    (h : t.UniqueOn p f) (hp : ∀ r ∈ t, q r → p (g r) → p r ∧ f (g r) = f r) :
    (t.update q g hg).UniqueOn p f := by
  have back : ∀ r ∈ t, p (if q r then g r else r) → p r ∧ f (if q r then g r else r) = f r := by
    intro r hr hpr
    by_cases hq : q r
    · rw [if_pos hq] at hpr ⊢
      exact hp r hr hq hpr
    · rw [if_neg hq] at hpr ⊢
      exact ⟨hpr, rfl⟩
  intro a ha b hb pa pb hab
  obtain ⟨r, hr, rfl⟩ := mem_update.mp ha
  obtain ⟨s, hs, rfl⟩ := mem_update.mp hb
  obtain ⟨pr, fr⟩ := back r hr pa
  obtain ⟨ps, fs⟩ := back s hs pb
  rw [h r hr s hs pr ps (by rw [← fr, ← fs]; exact hab)]

end UniqueOn

end Table

end Rcab
