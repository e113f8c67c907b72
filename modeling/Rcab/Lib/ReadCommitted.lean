import Rcab.Lib.Table

/-!
# READ COMMITTED

One table under PostgreSQL's READ COMMITTED isolation.  Next to the newest committed
version of each row there is at most one uncommitted version: the transaction that wrote
it holds the row's lock.  That the versions form a `Table` under the rows' own key is what
makes the lock exclusive.

An `UPDATE … SET f WHERE p` picks its rows from what its transaction can see when the
statement starts (`Store.matching`) and then visits them one by one (`Store.touch`).  A
row that another transaction has locked makes it wait: `touch` is for rows that are
`Free`.  After the wait it checks `p` again, on the row's newest version, and passes over
the row when `p` no longer holds.  Rows that others have inserted in the meantime are not
among those it visits.

`get_commit` and `Held.commit` are the two rules of the locks: a commit publishes what its
transaction could read, and leaves the rows that others hold alone.
-/

universe u v

namespace Rcab.ReadCommitted

/-- A row's uncommitted version, and the transaction that holds the row. -/
structure Version (ρ : Type u) where
  owner : ℕ
  row : ρ
deriving DecidableEq, Repr

/-- A table and the uncommitted versions of its rows. -/
structure Store {ρ : Type u} {κ : Type v} (key : ρ → κ) where
  /-- The newest committed version of each row. -/
  committed : Table key
  /-- The locked rows. -/
  versions : Table (fun v : Version ρ ↦ key v.row)

namespace Store

variable {ρ : Type u} {κ : Type v} {key : ρ → κ}

/-- Nothing in it. -/
def empty : Store key := ⟨.empty, .empty⟩

variable [DecidableEq κ] (s : Store key)

/-- Transaction `x` holds the row, in this version. -/
def Held (x : ℕ) (k : κ) (r : ρ) : Prop := s.versions.get k = some ⟨x, r⟩

/-- No other transaction holds the row. -/
def Free (x : ℕ) (k : κ) : Prop := ∀ v ∈ s.versions.get k, v.owner = x

instance {x : ℕ} {k : κ} : Decidable (s.Free x k) :=
  inferInstanceAs (Decidable (∀ v ∈ s.versions.get k, v.owner = x))

/-- The row as `x` sees it: its own version, or the committed one. -/
def read (x : ℕ) (k : κ) : Option ρ :=
  match s.versions.get k with
  | some v => if v.owner = x then some v.row else s.committed.get k
  | none => s.committed.get k

/-- The keys in use. -/
def keys : List κ :=
  s.committed.rows.map key ++
    (s.versions.rows.map fun v ↦ key v.row).filter fun k ↦ (s.committed.get k).isNone

/-- The rows a statement of `x` picks. -/
def matching (x : ℕ) (p : ρ → Prop) [DecidablePred p] : List κ :=
  s.keys.filter fun k ↦ (s.read x k).any p

/-- Write a row, and hold it. -/
def write (x : ℕ) (r : ρ) : Store key := { s with versions := s.versions.put ⟨x, r⟩ }

/-- Visit one of the rows an `UPDATE` picked; the row it returns, if it still matched. -/
def touch (x : ℕ) (p : ρ → Prop) [DecidablePred p] (f : ρ → ρ) (k : κ) : Store key × Option ρ :=
  match s.read x k with
  | some r => if p r then (s.write x (f r), some (f r)) else (s, none)
  | none => (s, none)

/-- Publish the versions of `x`, and let its rows go. -/
def commit (x : ℕ) : Store key where
  committed := (s.versions.filter fun v ↦ v.owner = x).foldl (fun t v ↦ t.put v.row) s.committed
  versions := s.versions.delete fun v ↦ v.owner = x

/-- Drop the versions of `x`. -/
def rollback (x : ℕ) : Store key := { s with versions := s.versions.delete fun v ↦ v.owner = x }

variable {s} {x y : ℕ} {k : κ} {r r' : ρ}

@[simp] theorem committed_write : (s.write x r).committed = s.committed := rfl

omit [DecidableEq κ] in
@[simp] theorem committed_rollback : (s.rollback x).committed = s.committed := rfl

/-! ## Locks -/

/-- Row locks are exclusive. -/
theorem Held.unique (h : s.Held x k r) (h' : s.Held y k r') : x = y ∧ r = r' := by
  have := Option.some.inj (h.symm.trans h')
  exact ⟨congrArg Version.owner this, congrArg Version.row this⟩

theorem Held.key_eq (h : s.Held x k r) : key r = k :=
  Table.key_of_get (t := s.versions) (r := ⟨x, r⟩) h

/-- A row no one else holds is the transaction's own or nobody's. -/
theorem Free.cases (h : s.Free x k) : (∃ r, s.Held x k r) ∨ ∀ y r, ¬ s.Held y k r := by
  cases hv : s.versions.get k with
  | none => exact Or.inr fun y r hh ↦ by simp [Held, hv] at hh
  | some v =>
      obtain ⟨owner, row⟩ := v
      obtain rfl : owner = x := h _ hv
      exact Or.inl ⟨row, hv⟩

theorem held_write : (s.write x r).Held y k r' ↔
    (k = key r ∧ y = x ∧ r' = r) ∨ (k ≠ key r ∧ s.Held y k r') := by
  rw [Held, write, Table.get_put]
  by_cases hk : k = key r
  · simp [hk, eq_comm]
  · simp [hk, Held]

theorem held_release {t : Table key} :
    (⟨t, s.versions.delete fun v ↦ v.owner = x⟩ : Store key).Held y k r ↔
      s.Held y k r ∧ y ≠ x := by
  simp only [Held, Table.get_delete, Option.filter_eq_some_iff, decide_eq_true_eq]

theorem held_commit : (s.commit x).Held y k r ↔ s.Held y k r ∧ y ≠ x := held_release

theorem held_rollback : (s.rollback x).Held y k r ↔ s.Held y k r ∧ y ≠ x := held_release

/-! ## Reading -/

theorem Held.read (h : s.Held x k r) : s.read x k = some r := by
  simp only [Held] at h
  simp [Store.read, h]

theorem read_of_not_held (h : ∀ r, ¬ s.Held x k r) : s.read x k = s.committed.get k := by
  unfold Store.read
  split
  · rename_i v hv
    split_ifs with ho
    · exact absurd (show s.Held x k v.row by rw [Held, hv, ← ho]) (h v.row)
    · rfl
  · rfl

/-- What is read is the transaction's own version or the committed row. -/
theorem read_eq_some (h : s.read x k = some r) :
    s.Held x k r ∨ (∀ r', ¬ s.Held x k r') ∧ s.committed.get k = some r := by
  by_cases hh : ∃ r', s.Held x k r'
  · obtain ⟨r', hr'⟩ := hh
    obtain rfl : r' = r := Option.some.inj (hr'.read.symm.trans h)
    exact Or.inl hr'
  · rw [not_exists] at hh
    exact Or.inr ⟨hh, (read_of_not_held hh).symm.trans h⟩

theorem key_of_read (h : s.read x k = some r) : key r = k := by
  rcases read_eq_some h with h | ⟨-, h⟩
  · exact h.key_eq
  · exact Table.key_of_get h

theorem mem_matching {p : ρ → Prop} [DecidablePred p] :
    k ∈ s.matching x p ↔ ∃ r, s.read x k = some r ∧ p r := by
  simp only [matching, List.mem_filter, Option.any_eq_true, decide_eq_true_eq]
  constructor
  · exact fun h ↦ h.2
  · rintro ⟨r, hr, hp⟩
    refine ⟨?_, r, hr, hp⟩
    cases hc : s.committed.get k with
    | some r₀ =>
        exact List.mem_append_left _ (List.mem_map.mpr ⟨r₀, Table.mem_of_get hc, Table.key_of_get hc⟩)
    | none =>
        rcases read_eq_some hr with hh | ⟨-, hh⟩
        · refine List.mem_append_right _ (List.mem_filter.mpr ⟨?_, by simp [hc]⟩)
          exact List.mem_map.mpr ⟨_, Table.mem_of_get hh, hh.key_eq⟩
        · rw [hc] at hh
          cases hh

/-- Visiting a row writes it, or finds that it no longer matches. -/
theorem touch_cases (p : ρ → Prop) [DecidablePred p] (f : ρ → ρ) (k : κ) :
    (s.touch x p f k = (s, none) ∧ ∀ r, s.read x k = some r → ¬ p r) ∨
      ∃ r, s.read x k = some r ∧ p r ∧ s.touch x p f k = (s.write x (f r), some (f r)) := by
  unfold touch
  cases hr : s.read x k with
  | none => exact Or.inl ⟨rfl, nofun⟩
  | some r =>
      by_cases hp : p r
      · exact Or.inr ⟨r, rfl, hp, by simp [hp]⟩
      · exact Or.inl ⟨by simp [hp], fun r' h ↦ Option.some.inj h ▸ hp⟩

/-! ## Committing -/

theorem get_foldl_put {l : List (Version ρ)} (hl : (l.map fun v ↦ key v.row).Nodup)
    {t : Table key} : (l.foldl (fun t v ↦ t.put v.row) t).get k =
      ((l.find? fun v ↦ key v.row = k).map (·.row)).or (t.get k) := by
  induction l generalizing t with
  | nil => simp
  | cons v l ih =>
      rw [List.map_cons, List.nodup_cons] at hl
      rw [List.foldl_cons, ih hl.2, Table.get_put, List.find?_cons]
      by_cases hk : key v.row = k
      · -- The rest of the list has other keys.
        have hnone : l.find? (fun v ↦ key v.row = k) = none := by
          rw [List.find?_eq_none]
          intro v' hv' he
          rw [decide_eq_true_eq] at he
          exact hl.1 (List.mem_map.mpr ⟨v', hv', he.trans hk.symm⟩)
        simp [hnone, hk]
      · have hk' : ¬ k = key v.row := fun h ↦ hk h.symm
        simp [hk, hk']

/-- A commit publishes what its transaction could read. -/
theorem get_commit : (s.commit x).committed.get k = s.read x k := by
  have hnodup : ((s.versions.filter fun v ↦ v.owner = x).map fun v ↦ key v.row).Nodup :=
    s.versions.nodup.sublist (List.filter_sublist.map _)
  rw [commit, get_foldl_put hnodup]
  by_cases hh : ∃ r, s.Held x k r
  · obtain ⟨r, hr⟩ := hh
    have hmem : (⟨x, r⟩ : Version ρ) ∈ s.versions.filter fun v ↦ v.owner = x :=
      Table.mem_filter.mpr ⟨Table.mem_of_get hr, rfl⟩
    rw [hr.read]
    cases hf : (s.versions.filter fun v ↦ v.owner = x).find? fun v ↦ key v.row = k with
    | none =>
        have := List.find?_eq_none.mp hf _ hmem
        simp [hr.key_eq] at this
    | some v =>
        have hv := Table.mem_filter.mp (List.mem_of_find?_eq_some hf)
        have hk := List.find?_some hf
        simp only [decide_eq_true_eq] at hk
        have hget : s.versions.get k = some v := Table.get_eq_some.mpr ⟨hv.1, hk⟩
        rw [show v = ⟨x, r⟩ from Option.some.inj (hget.symm.trans hr)]
        rfl
  · rw [not_exists] at hh
    have hnone : (s.versions.filter fun v ↦ v.owner = x).find? (fun v ↦ key v.row = k) = none := by
      rw [List.find?_eq_none]
      intro v hv he
      obtain ⟨hv, ho⟩ := Table.mem_filter.mp hv
      rw [decide_eq_true_eq] at he
      refine hh v.row (Table.get_eq_some.mpr ⟨?_, he⟩)
      rw [← ho]
      exact hv
    rw [hnone, read_of_not_held hh]
    rfl

/-- A commit leaves the rows that others hold alone. -/
theorem Held.commit (h : s.Held y k r) (hne : y ≠ x) :
    (s.commit x).committed.get k = s.committed.get k := by
  rw [get_commit, read_of_not_held fun r' h' ↦ hne (h.unique h').1]

end Store

end Rcab.ReadCommitted
