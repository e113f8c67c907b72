import Rcab.Migrations.PoolMembership

/-!
# The passes of the backfill

What each pass of the data part of migration 0016 does to the rows, and the database they leave
together (`backfill_eq`), for every database whose well-formed fields can be cast.
-/

namespace Rcab.Migrations

variable {F : Type} {casts : Casts F} {now : Time} {before : LegacyDb} {db : MemberDb F}
  {l l' : LegacyMember} {m m' : PoolMember F} {s : SharedRide}

/-! ## Entries -/

/-- Every entry, of every pool. -/
def LegacyDb.entries (before : LegacyDb) : List LegacyMember :=
  legacyMembers before.sharedRides.rows

/-- The entries that are well formed and whose passenger is known. -/
def LegacyDb.valid (before : LegacyDb) : List LegacyMember :=
  (before.entries.filter fun l ↦ ¬ l.Malformed).filter fun l ↦ ¬ Unknown before.appUsers l

/-- An entry is one of its pool's list. -/
theorem exists_of_mem_entries (hl : l ∈ before.entries) :
    ∃ s ∈ before.sharedRides, ∃ elem, s.members.elements[l.ord - 1]? = some elem ∧ 1 ≤ l.ord ∧
      l = .of s elem l.ord := by
  obtain ⟨s, hs, h⟩ := List.mem_flatMap.mp hl
  obtain ⟨⟨elem, ord⟩, hmem, rfl⟩ := List.mem_map.mp h
  obtain ⟨hord, helem⟩ := List.mk_mem_zipIdx_iff_le_and_getElem?_sub.mp hmem
  exact ⟨s, hs, elem, helem, hord, rfl⟩

/-- A pool and a position determine the entry. -/
theorem entries_unique (hl : l ∈ before.entries) (hl' : l' ∈ before.entries)
    (hpool : l.poolId = l'.poolId) (hord : l.ord = l'.ord) : l = l' := by
  obtain ⟨s, hs, elem, helem, -, hof⟩ := exists_of_mem_entries hl
  obtain ⟨s', hs', elem', helem', -, hof'⟩ := exists_of_mem_entries hl'
  have hsid : s.rideId = l.poolId := by rw [hof]; rfl
  have hsid' : s'.rideId = l'.poolId := by rw [hof']; rfl
  obtain rfl := Table.unique hs hs' (hsid.trans (hpool.trans hsid'.symm))
  rw [hord] at helem hof
  obtain rfl := Option.some.inj (helem.symm.trans helem')
  exact hof.trans hof'.symm

theorem mem_valid : l ∈ before.valid ↔ l ∈ before.entries ∧ ¬ l.Malformed ∧
    ∃ u ∈ before.appUsers, l.passengerId = some u := by
  simp only [LegacyDb.valid, List.mem_filter, decide_eq_true_iff, Unknown, not_not, and_assoc]

/-- The entry that is copied: the first of its pool and passenger that is valid. -/
def LegacyDb.First (before : LegacyDb) (l : LegacyMember) : Prop :=
  l ∈ before.valid ∧ ∀ l' ∈ before.valid, l'.key = l.key → l.ord ≤ l'.ord

theorem first_iff : before.First l ↔ l ∈ distinctOn LegacyMember.key LegacyMember.ord before.valid :=
  mem_distinctOn.symm

theorem First.unique (hl : before.First l) (hl' : before.First l') (hk : l.key = l'.key) :
    l = l' := by
  have hord := sort_eq_of_mem_distinctOn (first_iff.mp hl) (first_iff.mp hl') hk
  exact entries_unique (mem_valid.mp hl.1).1 (mem_valid.mp hl'.1).1 (Prod.ext_iff.mp hk).1 hord

/-- Every valid entry has a first one of its pool and passenger. -/
theorem exists_first (hl : l ∈ before.valid) : ∃ l', before.First l' ∧ l'.key = l.key := by
  obtain ⟨l', hl', hk⟩ : ∃ l' ∈ distinctOn LegacyMember.key LegacyMember.ord before.valid,
      l'.key = l.key := exists_mem_distinctOn hl
  exact ⟨l', first_iff.mpr hl', hk⟩

/-! ## The rows -/

/-- The row holds the data of the entry. -/
structure Copies (casts : Casts F) (l : LegacyMember) (m : PoolMember F) : Prop where
  poolId : l.poolId = m.poolId
  passengerId : l.passengerId = some m.passengerId
  originLat : l.coord casts "origin_lat" = some m.originLat
  originLng : l.coord casts "origin_lng" = some m.originLng
  destLat : l.coord casts "dest_lat" = some m.destLat
  destLng : l.coord casts "dest_lng" = some m.destLng
  joinedAt : l.joinedAt casts = some m.joinedAt

theorem Copies.key (h : Copies casts l m) : l.key = (m.poolId, some m.passengerId) :=
  Prod.ext h.poolId h.passengerId

theorem copies_toMember (h : toMember casts now l = some m) :
    Copies casts l m ∧ (m.active ↔ ¬ l.poolState.Terminal) := by
  simp only [toMember, Option.bind_eq_bind, Option.bind_eq_some_iff, Option.pure_def] at h
  obtain ⟨p, hp, a, ha, b, hb, c, hc, d, hd, t, ht, h⟩ := h
  obtain rfl := Option.some.inj h
  refine ⟨⟨rfl, hp, ha, hb, hc, hd, ht⟩, ?_⟩
  exact decide_eq_true_iff

theorem coord_isSome (hc : l.Castable casts) {field : String}
    (hfield : field ∈ ["origin_lat", "origin_lng", "dest_lat", "dest_lng"])
    (h : ¬ l.NotNumber field) : (l.coord casts field).isSome := by
  rw [LegacyMember.NotNumber, ne_eq, not_not, Option.map_eq_some_iff] at h
  obtain ⟨v, hv, htype⟩ := h
  cases v <;> simp only [Json.typeof, reduceCtorEq] at htype
  case number q =>
    rw [LegacyMember.coord, hv]
    exact hc.coord field hfield q hv

theorem joinedAt_isSome (hc : l.Castable casts) : (l.joinedAt casts).isSome := by
  rw [LegacyMember.joinedAt]
  cases htext : l.elem.text "joined_at" with
  | none => rfl
  | some text =>
      dsimp only
      by_cases hdate : DateTime text
      · rw [if_pos hdate]
        exact hc.joinedAt text htext hdate
      · rw [if_neg hdate]
        rfl

/-- A well-formed entry whose fields can be cast has a row. -/
theorem exists_toMember (hc : l.Castable casts) (hl : ¬ l.Malformed) :
    ∃ m, toMember casts now l = some m := by
  simp only [LegacyMember.Malformed, not_or] at hl
  obtain ⟨hp, ha, hb, hc', hd⟩ := hl
  obtain ⟨p, hp⟩ := Option.ne_none_iff_exists'.mp hp
  obtain ⟨a, ha⟩ := Option.isSome_iff_exists.mp (coord_isSome hc (by simp) ha)
  obtain ⟨b, hb⟩ := Option.isSome_iff_exists.mp (coord_isSome hc (by simp) hb)
  obtain ⟨c, hc'⟩ := Option.isSome_iff_exists.mp (coord_isSome hc (by simp) hc')
  obtain ⟨d, hd⟩ := Option.isSome_iff_exists.mp (coord_isSome hc (by simp) hd)
  obtain ⟨t, ht⟩ := Option.isSome_iff_exists.mp (joinedAt_isSome hc)
  exact ⟨_, by rw [toMember, hp, ha, hb, hc', hd, ht]; rfl⟩

/-! ## The copy -/

/-- The fields of every entry can be cast. -/
def LegacyDb.Castable (casts : Casts F) (before : LegacyDb) : Prop :=
  ∀ l ∈ before.entries, l.Castable casts

variable (casts now before) in
/-- `pool_member` after the copy. -/
def copied : Table (PoolMember.key (F := F)) :=
  ((distinctOn LegacyMember.key LegacyMember.ord before.valid).filterMap
    (toMember casts now)).foldl Table.insert Table.empty

/-- The copy is of the first entries. -/
theorem mem_copied :
    m ∈ copied casts now before ↔ ∃ l, before.First l ∧ toMember casts now l = some m := by
  simp only [first_iff]
  constructor
  · intro hm
    rcases Table.mem_of_mem_foldl_insert hm with hm | hm
    · exact absurd hm (Table.notMem_empty m)
    · exact List.mem_filterMap.mp hm
  · rintro ⟨l, hl, hm⟩
    have hsome : ((copied casts now before).get m.key).isSome :=
      Table.isSome_get_foldl_insert.mpr (Or.inr ⟨m, List.mem_filterMap.mpr ⟨l, hl, hm⟩, rfl⟩)
    obtain ⟨m', hm'⟩ := Option.isSome_iff_exists.mp hsome
    -- The row there with the key is of the same entry.
    have hkey : m'.key = m.key := Table.key_of_get hm'
    have hmem := Table.mem_of_get hm'
    rcases Table.mem_of_mem_foldl_insert hmem with h | h
    · exact absurd h (Table.notMem_empty m')
    · obtain ⟨l', hl', hto⟩ := List.mem_filterMap.mp h
      obtain ⟨hp, hq⟩ := Prod.ext_iff.mp hkey
      have hk : l'.key = l.key := by
        rw [(copies_toMember hto).1.key, (copies_toMember hm).1.key]
        exact Prod.ext hp (congrArg some hq)
      obtain rfl := First.unique (first_iff.mpr hl') (first_iff.mpr hl) hk
      rwa [Option.some.inj (hm.symm.trans hto)]

variable (now) in
/-- A valid entry's passenger has a row in the pool. -/
theorem exists_mem_copied (hc : before.Castable casts) (hl : l ∈ before.valid) :
    ∃ l' m, before.First l' ∧ l'.key = l.key ∧ m ∈ copied casts now before ∧
      toMember casts now l' = some m := by
  obtain ⟨l', hl', hk⟩ := exists_first hl
  obtain ⟨hmem, hwf, -⟩ := mem_valid.mp hl'.1
  obtain ⟨m, hm⟩ : ∃ m, toMember casts now l' = some m := exists_toMember (hc l' hmem) hwf
  exact ⟨l', m, hl', hk, (mem_copied).mpr ⟨l', hl', hm⟩, hm⟩

/-- No cast and no foreign key fails. -/
theorem copyMembers_eq (hc : before.Castable casts) (hrides : db.sharedRides = before.sharedRides)
    (husers : db.appUsers = before.appUsers) (hempty : db.poolMembers = Table.empty) :
    copyMembers casts now before.valid db =
      some { db with poolMembers := copied casts now before } := by
  rw [copyMembers, if_pos, hempty]
  · rfl
  · refine ⟨fun l hl ↦ ?_, fun m hm ↦ ?_⟩
    · obtain ⟨hmem, hwf, -⟩ := mem_valid.mp hl
      obtain ⟨m, hm⟩ : ∃ m, toMember casts now l = some m := exists_toMember (hc l hmem) hwf
      rw [hm]
      rfl
    · obtain ⟨l, hl, hto⟩ := List.mem_filterMap.mp hm
      obtain ⟨hmem, -, u, hu, hpassenger⟩ := mem_valid.mp (first_iff.mpr hl).1
      obtain ⟨s, hs, elem, -, -, hof⟩ := exists_of_mem_entries hmem
      have hcopies := (copies_toMember hto).1
      constructor
      · have hid : m.poolId = s.rideId := by
          rw [← hcopies.poolId, hof]
          rfl
        rw [hrides, hid, Table.get_of_mem hs]
        rfl
      · rw [husers, ← Option.some.inj (hpassenger.symm.trans hcopies.passengerId)]
        exact hu

/-! ## The active seats -/

/-- No active seat of the passenger comes first. -/
def Newest (db : MemberDb F) (m : PoolMember F) : Prop :=
  ∀ m' ∈ db.poolMembers, m'.active → m'.passengerId = m.passengerId → m.newest ≤ m'.newest

theorem mem_activeSeats : m ∈ activeSeats db ↔ m ∈ db.poolMembers ∧ m.active :=
  Table.mem_filter

/-- The seats that are deactivated are the active ones that are not the newest. -/
theorem ranked_iff (hm : m ∈ db.poolMembers) :
    (∃ ranked ∈ activeSeats db,
      1 < rowNumber PoolMember.passengerId PoolMember.newest (activeSeats db) ranked ∧
        m.poolId = ranked.poolId ∧ m.passengerId = ranked.passengerId) ↔
      m.active ∧ ¬ Newest db m := by
  have hone : rowNumber PoolMember.passengerId PoolMember.newest (activeSeats db) m = 1 ↔
      Newest db m := by
    simp only [rowNumber_eq_one, mem_activeSeats, and_imp, Newest]
  have hpos : 1 ≤ rowNumber PoolMember.passengerId PoolMember.newest (activeSeats db) m :=
    Nat.le_add_left 1 _
  constructor
  · rintro ⟨ranked, hranked, hrn, hpool, hpassenger⟩
    obtain ⟨hmem, hactive⟩ := mem_activeSeats.mp hranked
    obtain rfl := Table.unique hm hmem (Prod.ext hpool hpassenger)
    exact ⟨hactive, fun h ↦ hrn.ne' (hone.mpr h)⟩
  · rintro ⟨hactive, hnot⟩
    exact ⟨m, mem_activeSeats.mpr ⟨hm, hactive⟩, by have := mt hone.mp hnot; omega, rfl, rfl⟩

/-- A row after the pass is one before it, active still if it was and is the newest. -/
theorem exists_of_mem_deactivate (hm : m ∈ (deactivate now db).poolMembers) :
    ∃ m₀ ∈ db.poolMembers, (m = m₀ ∨ m = m₀.leave now) ∧
      (m.active ↔ m₀.active ∧ Newest db m₀) := by
  obtain ⟨m₀, hm₀, rfl⟩ := (@Table.mem_update _ _ _ _ _ _ _ PoolMember.key_leave _).mp hm
  refine ⟨m₀, hm₀, ?_⟩
  by_cases h : m₀.active ∧ ¬ Newest db m₀
  · rw [if_pos ((ranked_iff hm₀).mpr h)]
    refine ⟨Or.inr rfl, ?_⟩
    simp [PoolMember.leave, h]
  · rw [if_neg (mt (ranked_iff hm₀).mp h)]
    refine ⟨Or.inl rfl, ?_⟩
    tauto

/-- Each row is there after the pass. -/
theorem exists_mem_deactivate (hm : m ∈ db.poolMembers) :
    ∃ m' ∈ (deactivate now db).poolMembers, m' = m ∨ m' = m.leave now := by
  refine ⟨_, (@Table.mem_update _ _ _ _ _ _ _ PoolMember.key_leave _).mpr ⟨m, hm, rfl⟩, ?_⟩
  split
  · exact Or.inr rfl
  · exact Or.inl rfl

/-! ## The counts -/

/-- The number of rows of a pool. -/
def MemberDb.memberCount (db : MemberDb F) (poolId : PoolId) : ℕ :=
  (db.poolMembers.filter (·.poolId = poolId)).length

theorem sum_seats (members : List (PoolMember F)) :
    (members.map PoolMember.seats).sum = members.length := by
  induction members with
  | nil => rfl
  | cons m members ih => simp [m.one_seat, ih, Nat.add_comm]

/-- A pool's row of `_pool_count`. -/
theorem find_poolCounts (hs : s ∈ db.sharedRides) :
    (poolCounts db).find? (·.poolId = s.rideId) =
      some ⟨s.rideId, s.seatCount, s.maxSeats, db.memberCount s.rideId⟩ := by
  have hget : db.sharedRides.rows.find? (fun s' ↦ s'.rideId = s.rideId) = some s :=
    Table.get_of_mem hs
  rw [poolCounts, List.find?_map, Function.comp_def, hget]
  simp [sum_seats, MemberDb.memberCount]

theorem mem_poolCounts (hs : s ∈ db.sharedRides) :
    ⟨s.rideId, s.seatCount, s.maxSeats, db.memberCount s.rideId⟩ ∈ poolCounts db :=
  List.mem_of_find?_eq_some (find_poolCounts hs)

/-- The pool with its count, and room for its members. -/
def SharedRide.derived (db : MemberDb F) (s : SharedRide) : SharedRide :=
  { s with
    maxSeats := max s.maxSeats (db.memberCount s.rideId), seatCount := db.memberCount s.rideId }

/-- A pool the update leaves alone has its count and the room already. -/
theorem mem_deriveCounts : s ∈ (deriveCounts (poolCounts db) db).sharedRides ↔
    ∃ s₀ ∈ db.sharedRides, s₀.derived db = s := by
  refine (@Table.mem_update _ _ _ _ _ _ _ SharedRide.rideId_count _).trans
    (exists_congr fun s₀ ↦ and_congr_right fun hs₀ ↦ ?_)
  suffices h : (if ∃ c ∈ poolCounts db, c.poolId = s₀.rideId ∧
      (s₀.seatCount ≠ c.memberSeats ∨ s₀.maxSeats < c.memberSeats)
      then s₀.count (poolCounts db) else s₀) = s₀.derived db by rw [h]
  by_cases hc : s₀.seatCount ≠ db.memberCount s₀.rideId ∨ s₀.maxSeats < db.memberCount s₀.rideId
  · rw [if_pos ⟨_, mem_poolCounts hs₀, rfl, hc⟩, SharedRide.count, find_poolCounts hs₀]
    rfl
  · have hne : ¬ ∃ c ∈ poolCounts db, c.poolId = s₀.rideId ∧
        (s₀.seatCount ≠ c.memberSeats ∨ s₀.maxSeats < c.memberSeats) := by
      rintro ⟨c, hmem, hid, h⟩
      obtain ⟨s₁, hs₁, rfl⟩ := List.mem_map.mp hmem
      obtain rfl := Table.unique hs₁ hs₀ hid
      rw [sum_seats] at h
      exact hc h
    rw [if_neg hne]
    push Not at hc
    rw [SharedRide.derived, max_eq_left hc.2, ← hc.1]

/-! ## The passes together -/

def Recorded (db : LegacyDb) (kind : ConflictKind) (subject : Subject) : Prop :=
  (db.conflicts.get (kind, subject)).isSome

section Passes

variable (casts now before)

/-- The rows copied, over the pools as they were. -/
def copiedDb : MemberDb F := { before with poolMembers := copied casts now before }

/-- With one active seat for each passenger. -/
def settledDb : MemberDb F := deactivate now (copiedDb casts now before)

/-- What is recorded, in the order of the passes. -/
def inventory : List Conflict :=
  malformed before.entries ++
    (unknownPassenger before.appUsers (before.entries.filter fun l ↦ ¬ l.Malformed) ++
    (duplicateInPool before.valid ++
    (multipleActivePools (copiedDb casts now before) ++
    (overCapacity (poolCounts (settledDb casts now before)) ++
    seatCountMismatch (poolCounts (settledDb casts now before))))))

/-- The result of the passes. -/
def backfilledDb : MemberDb F :=
  { deriveCounts (poolCounts (settledDb casts now before)) (settledDb casts now before) with
    conflicts := (inventory casts now before).foldl Table.insert before.conflicts }

variable {casts now before}

/-- The data part succeeds. -/
theorem backfill_eq (hc : before.Castable casts) :
    backfill casts now before = some (backfilledDb casts now before) := by
  let db : MemberDb F := record (record (record { before with poolMembers := Table.empty }
    (malformed before.entries))
    (unknownPassenger before.appUsers (before.entries.filter fun l ↦ ¬ l.Malformed)))
    (duplicateInPool before.valid)
  have hcopy : copyMembers casts now before.valid db =
      some { db with poolMembers := copied casts now before } := copyMembers_eq hc rfl rfl rfl
  unfold backfill
  change (copyMembers casts now before.valid db >>= _) = _
  rw [hcopy, backfilledDb, inventory]
  simp only [List.foldl_append]
  rfl

theorem recorded_iff {kind : ConflictKind} {subject : Subject} :
    Recorded (backfilledDb casts now before).toLegacyDb kind subject ↔
      Recorded before kind subject ∨ ∃ c ∈ inventory casts now before, c.key = (kind, subject) :=
  Table.isSome_get_foldl_insert

end Passes

end Rcab.Migrations
