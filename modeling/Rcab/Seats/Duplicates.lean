import Rcab.Matching.PoolMembership

/-!
# What a refused seat is told

One `INSERT` can violate several unique indexes and Postgres names one of them.  `classifyDuplicate`
reads the rows instead, and its answer does not depend on the name (`classifyDuplicate_stable`).
-/

namespace Rcab.Matching

/-- The unique indexes of `pool_member` beside its primary key. -/
structure MemberIndexes (members : Table PoolMember.pkey) : Prop where
  /-- `pool_member_one_active_pool_uq`. -/
  oneActivePool : members.UniqueOn (fun r ↦ r.active = true) PoolMember.passengerId
  /-- `pool_member_idempotency_uq`; a row without a key is not in it. -/
  idempotency : members.UniqueOn (fun r ↦ r.idempotencyKey ≠ none) fun r ↦
    (r.passengerId, r.idempotencyKey)

/-- The seat the request's key produced. -/
def NewPoolMember.KeySeat (m : NewPoolMember) (r : PoolMember) : Prop :=
  m.idempotencyKey ≠ none ∧ r.passengerId = m.passengerId ∧ r.idempotencyKey = m.idempotencyKey

/-- The passenger's row in the pool, handed back to a request without a key or when it is over. -/
def NewPoolMember.MemberSeat (m : NewPoolMember) (r : PoolMember) : Prop :=
  r.pkey = (m.poolId, m.passengerId) ∧ (m.idempotencyKey = none ∨ r.active = false)

/-- The row would violate the constraint. -/
def Violates (db : Db) (m : NewPoolMember) : Constraint → Prop
  | .poolMemberDuplicate => ∃ r ∈ db.poolMember, r.pkey = (m.poolId, m.passengerId)
  | .poolMemberOneActivePool =>
      ∃ r ∈ db.poolMember, r.passengerId = m.passengerId ∧ r.active = true
  | .poolMemberIdempotency => ∃ r ∈ db.poolMember, m.KeySeat r
  | _ => False

section Classify

variable {db : Db} {m : NewPoolMember} {r : PoolMember}

theorem keyed_eq_true_iff (hne : m.idempotencyKey ≠ some "") :
    keyed m.idempotencyKey = true ↔ m.idempotencyKey ≠ none := by
  cases h : m.idempotencyKey with
  | none => simp [keyed]
  | some k =>
    have hk : k ≠ "" := fun he ↦ hne (he ▸ h)
    simp [keyed, hk]

theorem mem_duplicateRows : r ∈ duplicateRows db m ↔ r ∈ db.poolMember ∧
    r.passengerId = m.passengerId ∧ (r.poolId = m.poolId ∨ r.active = true ∨
      (m.idempotencyKey.isSome ∧ r.idempotencyKey = m.idempotencyKey)) := by
  rw [duplicateRows, Table.mem_filter]

theorem mem_duplicateRows_of_keySeat (hr : r ∈ db.poolMember) (h : m.KeySeat r) :
    r ∈ duplicateRows db m :=
  mem_duplicateRows.mpr ⟨hr, h.2.1, Or.inr (Or.inr ⟨Option.isSome_iff_ne_none.mpr h.1, h.2.2⟩)⟩

/-- What the first branch looks for. -/
def keyRow (db : Db) (m : NewPoolMember) : Option PoolMember :=
  if keyed m.idempotencyKey then
    (duplicateRows db m).find? fun r ↦ r.idempotencyKey = m.idempotencyKey
  else none

theorem keyRow_eq_some (hne : m.idempotencyKey ≠ some "") (h : keyRow db m = some r) :
    r ∈ db.poolMember ∧ m.KeySeat r := by
  rw [keyRow] at h
  split_ifs at h with hk
  have hmem := mem_duplicateRows.mp (List.mem_of_find?_eq_some h)
  exact ⟨hmem.1, (keyed_eq_true_iff hne).mp hk, hmem.2.1, by simpa using List.find?_some h⟩

theorem keyRow_eq_none (hne : m.idempotencyKey ≠ some "") (h : keyRow db m = none)
    (hr : r ∈ db.poolMember) : ¬ m.KeySeat r := by
  intro hseat
  rw [keyRow, if_pos ((keyed_eq_true_iff hne).mpr hseat.1)] at h
  exact absurd hseat.2.2
    (by simpa using List.find?_eq_none.mp h r (mem_duplicateRows_of_keySeat hr hseat))

/-- What the second branch asks. -/
def isMember (db : Db) (m : NewPoolMember) : Bool :=
  ((duplicateRows db m).find? fun r ↦ r.poolId = m.poolId).any fun samePool ↦
    ¬ keyed m.idempotencyKey ∨ ¬ samePool.active

theorem isMember_iff (hne : m.idempotencyKey ≠ some "") :
    isMember db m = true ↔ ∃ r ∈ db.poolMember, m.MemberSeat r := by
  have hkey : (¬ keyed m.idempotencyKey = true) ↔ m.idempotencyKey = none := by
    rw [keyed_eq_true_iff hne, not_not]
  have hseat : ∀ {r : PoolMember}, (¬ keyed m.idempotencyKey = true ∨ ¬ r.active = true) ↔
      (m.idempotencyKey = none ∨ r.active = false) := by
    intro r
    rw [hkey, Bool.not_eq_true]
  rw [isMember, Option.any_eq_true]
  constructor
  · rintro ⟨r, hfind, h⟩
    obtain ⟨hr, hp, -⟩ := mem_duplicateRows.mp (List.mem_of_find?_eq_some hfind)
    have hpool : r.poolId = m.poolId := by simpa using List.find?_some hfind
    exact ⟨r, hr, Prod.ext hpool hp, hseat.mp (of_decide_eq_true h)⟩
  · rintro ⟨r, hr, hpkey, h⟩
    obtain ⟨hpool, hp⟩ := Prod.ext_iff.mp hpkey
    have hmem : r ∈ duplicateRows db m := mem_duplicateRows.mpr ⟨hr, hp, Or.inl hpool⟩
    cases hfind : (duplicateRows db m).find? fun r ↦ r.poolId = m.poolId with
    | none =>
      have hnot : r.poolId ≠ m.poolId := by simpa using List.find?_eq_none.mp hfind r hmem
      exact absurd hpool hnot
    | some r' =>
      obtain ⟨hr', hp', -⟩ := mem_duplicateRows.mp (List.mem_of_find?_eq_some hfind)
      have hpool' : r'.poolId = m.poolId := by simpa using List.find?_some hfind
      -- the primary key: there is one row of the passenger in the pool
      obtain rfl : r' = r := Table.unique hr' hr
        ((show r'.pkey = (m.poolId, m.passengerId) from Prod.ext hpool' hp').trans hpkey.symm)
      exact ⟨r', rfl, decide_eq_true (hseat.mpr h)⟩

/-- The answer, from what the branches ask. -/
theorem classifyDuplicate_eq (c : Constraint) : classifyDuplicate db m c =
    match keyRow db m with
    | some byKey => .failed .idempotentReplay (some byKey.poolId)
    | none =>
      if isMember db m then .failed .alreadyMember (some m.poolId)
      else match (duplicateRows db m).find? fun r ↦ r.active with
      | some active => .failed .passengerHasActivePool (some active.poolId)
      | none =>
          if c = .poolMemberIdempotency then .failed .idempotentReplay none
          else if c = .poolMemberDuplicate ∧ ¬ keyed m.idempotencyKey then
            .failed .alreadyMember (some m.poolId)
          else .failed .passengerHasActivePool none := rfl

/-- The key's seat is the answer. -/
theorem classifyDuplicate_of_keySeat (hu : MemberIndexes db.poolMember)
    (hne : m.idempotencyKey ≠ some "") (hr : r ∈ db.poolMember) (h : m.KeySeat r) (c : Constraint) :
    classifyDuplicate db m c = .failed .idempotentReplay (some r.poolId) := by
  rw [classifyDuplicate_eq]
  cases hrow : keyRow db m with
  | none => exact absurd h (keyRow_eq_none hne hrow hr)
  | some r' =>
    obtain ⟨hr', h'⟩ := keyRow_eq_some hne hrow
    have hsome : ∀ {r : PoolMember}, m.KeySeat r → r.idempotencyKey ≠ none :=
      fun h ↦ h.2.2 ▸ h.1
    obtain rfl := hu.idempotency r' hr' r hr (hsome h') (hsome h)
      (Prod.ext (h'.2.1.trans h.2.1.symm) (h'.2.2.trans h.2.2.symm))
    rfl

/-- Without one, the passenger's row in the pool is. -/
theorem classifyDuplicate_of_memberSeat (hne : m.idempotencyKey ≠ some "")
    (hkey : ∀ r ∈ db.poolMember, ¬ m.KeySeat r) (hr : r ∈ db.poolMember) (h : m.MemberSeat r)
    (c : Constraint) : classifyDuplicate db m c = .failed .alreadyMember (some m.poolId) := by
  rw [classifyDuplicate_eq]
  cases hrow : keyRow db m with
  | some r' => exact absurd (keyRow_eq_some hne hrow).2 (hkey r' (keyRow_eq_some hne hrow).1)
  | none => exact if_pos ((isMember_iff hne).mpr ⟨r, hr, h⟩)

/-- Without either, the passenger's active seat is. -/
theorem classifyDuplicate_of_active (hne : m.idempotencyKey ≠ some "")
    (hkey : ∀ r ∈ db.poolMember, ¬ m.KeySeat r) (hmember : ∀ r ∈ db.poolMember, ¬ m.MemberSeat r)
    (hactive : ∃ r ∈ db.poolMember, r.passengerId = m.passengerId ∧ r.active = true) :
    ∃ r ∈ db.poolMember, (r.passengerId = m.passengerId ∧ r.active = true) ∧
      ∀ c, classifyDuplicate db m c = .failed .passengerHasActivePool (some r.poolId) := by
  have hnone : keyRow db m = none := by
    cases hrow : keyRow db m with
    | none => rfl
    | some r' => exact absurd (keyRow_eq_some hne hrow).2 (hkey r' (keyRow_eq_some hne hrow).1)
  have hnot : isMember db m = false := by
    refine eq_false_of_ne_true fun h ↦ ?_
    obtain ⟨r', hr', h'⟩ := (isMember_iff hne).mp h
    exact hmember r' hr' h'
  obtain ⟨r, hr, hp, ha⟩ := hactive
  cases hfind : (duplicateRows db m).find? fun r ↦ r.active with
  | none =>
    exact absurd ha (List.find?_eq_none.mp hfind r
      (mem_duplicateRows.mpr ⟨hr, hp, Or.inr (Or.inl ha)⟩))
  | some r' =>
    obtain ⟨hr', hp', -⟩ := mem_duplicateRows.mp (List.mem_of_find?_eq_some hfind)
    have ha' : r'.active = true := by simpa using List.find?_some hfind
    refine ⟨r', hr', ⟨hp', ha'⟩, fun c ↦ ?_⟩
    rw [classifyDuplicate_eq, hnone, hnot, hfind]
    rfl

/-- A row in the way is one of these. -/
theorem active_of_violates {c : Constraint} (hv : Violates db m c)
    (hkey : ∀ r ∈ db.poolMember, ¬ m.KeySeat r) (hmember : ∀ r ∈ db.poolMember, ¬ m.MemberSeat r) :
    ∃ r ∈ db.poolMember, r.passengerId = m.passengerId ∧ r.active = true := by
  cases c with
  | poolMemberDuplicate =>
    obtain ⟨r, hr, hpkey⟩ := hv
    have hactive : r.active = true := by
      by_contra hna
      exact hmember r hr ⟨hpkey, Or.inr (eq_false_of_ne_true hna)⟩
    exact ⟨r, hr, (Prod.ext_iff.mp hpkey).2, hactive⟩
  | poolMemberOneActivePool => exact hv
  | poolMemberIdempotency =>
    obtain ⟨r, hr, hseat⟩ := hv
    exact absurd hseat (hkey r hr)
  | _ => exact hv.elim

/-- **The answer to a duplicate.**

Whichever violated index Postgres names, the answer is the same and names a pool: that of the seat
the key produced; else this pool, where the passenger's row is and the request has no key or the row
is over; else the pool of the passenger's active seat.  No answer is made up from the name. -/
theorem classifyDuplicate_stable (hu : MemberIndexes db.poolMember)
    (hne : m.idempotencyKey ≠ some "") {violated : Constraint} (hv : Violates db m violated) :
    (∃ reason pool, ∀ c, classifyDuplicate db m c = .failed reason (some pool)) ∧
    (∀ r ∈ db.poolMember, m.KeySeat r →
      ∀ c, classifyDuplicate db m c = .failed .idempotentReplay (some r.poolId)) ∧
    ((∀ r ∈ db.poolMember, ¬ m.KeySeat r) → ∀ r ∈ db.poolMember, m.MemberSeat r →
      ∀ c, classifyDuplicate db m c = .failed .alreadyMember (some m.poolId)) ∧
    ((∀ r ∈ db.poolMember, ¬ m.KeySeat r) → (∀ r ∈ db.poolMember, ¬ m.MemberSeat r) →
      ∃ r ∈ db.poolMember, (r.passengerId = m.passengerId ∧ r.active = true) ∧
        ∀ c, classifyDuplicate db m c = .failed .passengerHasActivePool (some r.poolId)) := by
  have hactive (hkey : ∀ r ∈ db.poolMember, ¬ m.KeySeat r)
      (hmember : ∀ r ∈ db.poolMember, ¬ m.MemberSeat r) :=
    classifyDuplicate_of_active hne hkey hmember (active_of_violates hv hkey hmember)
  refine ⟨?_, fun r ↦ classifyDuplicate_of_keySeat hu hne,
    fun hkey r ↦ classifyDuplicate_of_memberSeat hne hkey, hactive⟩
  by_cases hkey : ∃ r ∈ db.poolMember, m.KeySeat r
  · obtain ⟨r, hr, h⟩ := hkey
    exact ⟨_, _, classifyDuplicate_of_keySeat hu hne hr h⟩
  · have hkey' : ∀ r ∈ db.poolMember, ¬ m.KeySeat r := fun r hr h ↦ hkey ⟨r, hr, h⟩
    by_cases hmember : ∃ r ∈ db.poolMember, m.MemberSeat r
    · obtain ⟨r, hr, h⟩ := hmember
      exact ⟨_, _, classifyDuplicate_of_memberSeat hne hkey' hr h⟩
    · obtain ⟨r, -, -, h⟩ := hactive hkey' fun r hr h ↦ hmember ⟨r, hr, h⟩
      exact ⟨_, _, h⟩

end Classify

/-- A seat in pool 1 that the key `k` produced. -/
def sampleActive : PoolMember where
  poolId := 1
  passengerId := 20
  origin := ⟨0, 0⟩
  dest := ⟨1, 1⟩
  agreedFareCents := none
  idempotencyKey := some "k"
  joinedAt := 5

/-- One in pool 2 that is over. -/
def sampleOver : PoolMember :=
  { sampleActive with poolId := 2, idempotencyKey := none, active := false, leftAt := some 9 }

def sampleSeats : Db :=
  { Db.empty with poolMember := (Table.empty.insert sampleActive).insert sampleOver }

/-- Seated again in pool 2, without a key. -/
def sampleAgain : NewPoolMember := ⟨2, 20, ⟨0, 0⟩, ⟨1, 1⟩, 500, none⟩

theorem mem_sampleSeats {r : PoolMember} :
    r ∈ sampleSeats.poolMember ↔ r = sampleActive ∨ r = sampleOver := by
  have hrows : sampleSeats.poolMember.rows = [sampleActive, sampleOver] := rfl
  rw [Table.mem_def, hrows, List.mem_cons, List.mem_singleton]

theorem sampleSeats_indexes : MemberIndexes sampleSeats.poolMember := by
  constructor <;> intro r hr s hs hpr hps _ <;>
    rcases mem_sampleSeats.mp hr with rfl | rfl <;> rcases mem_sampleSeats.mp hs with rfl | rfl <;>
    first | rfl | exact absurd hpr (by decide) | exact absurd hps (by decide)

theorem sampleAgain_alreadyMember : classifyDuplicate sampleSeats sampleAgain
    .poolMemberOneActivePool = .failed .alreadyMember (some 2) := by
  have hv : Violates sampleSeats sampleAgain .poolMemberOneActivePool :=
    ⟨sampleActive, mem_sampleSeats.mpr (Or.inl rfl), rfl, rfl⟩
  have hkey : ∀ r ∈ sampleSeats.poolMember, ¬ sampleAgain.KeySeat r := fun r _ h ↦ h.1 rfl
  exact (classifyDuplicate_stable sampleSeats_indexes (by decide) hv).2.2.1 hkey sampleOver
    (mem_sampleSeats.mpr (Or.inr rfl)) ⟨rfl, Or.inl rfl⟩ _

end Rcab.Matching
