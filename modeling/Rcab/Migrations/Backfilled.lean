import Rcab.Migrations.Passes

/-!
# What the backfill leaves

The data part of migration 0016, over every database whose well-formed fields can be cast: which
entries become rows of `pool_member` and with what data, that the others are all recorded, which
seats stay active, and the counts and constraints that hold of the result.
-/

namespace Rcab.Migrations

variable {F : Type} {casts : Casts F} {now : Time} {before : LegacyDb}
  {l : LegacyMember} {m m' m₀ : PoolMember F} {s : SharedRide}

/-! ## What is so of the result -/

/-- The pool had not ended. -/
def LegacyDb.Live (before : LegacyDb) (poolId : PoolId) : Prop :=
  ∃ s ∈ before.sharedRides, s.rideId = poolId ∧ ¬ s.poolState.Terminal

/-- A row names the entry, by its position or its passenger. -/
def RecordsEntry (db : LegacyDb) (l : LegacyMember) : Prop :=
  Recorded db .memberMalformed (.entry l.poolId l.ord) ∨ ∃ p, l.passengerId = some p ∧
    (Recorded db .memberUnknownPassenger (.member l.poolId (some p)) ∨
      Recorded db .memberDuplicateInPool (.member l.poolId (some p)))

/-- What the data part makes of a database. -/
structure Backfilled (casts : Casts F) (before : LegacyDb) (db : MemberDb F) : Prop where
  /-- A pool's passengers are those of its well-formed entries that are known. -/
  members : ∀ poolId p, (∃ m ∈ db.poolMembers, m.poolId = poolId ∧ m.passengerId = p) ↔
    p ∈ before.appUsers ∧
      ∃ l ∈ before.entries, ¬ l.Malformed ∧ l.poolId = poolId ∧ l.passengerId = some p
  /-- A row has the data of the first of them. -/
  copies : ∀ m ∈ db.poolMembers, ∃ l, before.First l ∧ Copies casts l m
  /-- An entry that was not copied is recorded. -/
  uncopied : ∀ l ∈ before.entries,
    (∃ m ∈ db.poolMembers, before.First l ∧ Copies casts l m) ∨ RecordsEntry db.toLegacyDb l
  /-- So is a passenger of two valid entries of a pool. -/
  duplicates : ∀ poolId p, 1 < (group LegacyMember.key before.valid (poolId, some p)).length →
    Recorded db.toLegacyDb .memberDuplicateInPool (.member poolId (some p))
  /-- And one that a pool lists twice in any way, by a row about the passenger or an entry. -/
  listedTwice : ∀ poolId p, 1 < (group LegacyMember.key before.entries (poolId, some p)).length →
    Recorded db.toLegacyDb .memberDuplicateInPool (.member poolId (some p)) ∨
    Recorded db.toLegacyDb .memberUnknownPassenger (.member poolId (some p)) ∨
    ∃ l ∈ before.entries, l.key = (poolId, some p) ∧
      Recorded db.toLegacyDb .memberMalformed (.entry poolId l.ord)
  /-- A passenger with seats in two pools that had not ended is recorded. -/
  severalSeats : ∀ m ∈ db.poolMembers, ∀ m' ∈ db.poolMembers, m ≠ m' →
    m.passengerId = m'.passengerId → before.Live m.poolId → before.Live m'.poolId →
      Recorded db.toLegacyDb .passengerMultipleActivePools (.passenger m.passengerId)
  overCapacity : ∀ s ∈ before.sharedRides, s.maxSeats < db.memberCount s.rideId →
    Recorded db.toLegacyDb .poolOverCapacity (.pool s.rideId)
  seatCountMismatch : ∀ s ∈ before.sharedRides, s.seatCount ≠ db.memberCount s.rideId →
    Recorded db.toLegacyDb .poolSeatCountMismatch (.pool s.rideId)
  /-- The active seats are the newest-joined of those in pools that had not ended. -/
  active : ∀ m ∈ db.poolMembers, m.active ↔ before.Live m.poolId ∧
    ∀ m' ∈ db.poolMembers, m'.passengerId = m.passengerId → before.Live m'.poolId →
      m'.joinedAt < m.joinedAt ∨ m'.joinedAt = m.joinedAt ∧ m.poolId ≤ m'.poolId
  /-- A passenger with such a seat has one. -/
  oneActive : ∀ m ∈ db.poolMembers, before.Live m.poolId →
    ∃! m', m' ∈ db.poolMembers ∧ m'.passengerId = m.passengerId ∧ m'.active
  /-- The pools are those there were, -/
  pools : db.sharedRides.rows.map SharedRide.rideId =
    before.sharedRides.rows.map SharedRide.rideId
  /-- with the count of their members -/
  counts : ∀ s ∈ db.sharedRides, s.seatCount = db.memberCount s.rideId ∧ s.seatCount ≤ s.maxSeats
  /-- and no fewer seats than before. -/
  maxSeats : ∀ s ∈ before.sharedRides, ∀ s' ∈ db.sharedRides, s'.rideId = s.rideId →
    s.maxSeats ≤ s'.maxSeats
  /-- What had been recorded still is. -/
  recorded : ∀ kind subject, Recorded before kind subject → Recorded db.toLegacyDb kind subject

/-! ## Members -/

theorem Copies.leave (h : Copies casts l m) : Copies casts l (m.leave now) := { h with }

/-- A row is that of a first entry, up to its having been deactivated. -/
theorem exists_of_mem_backfilled (hm : m ∈ (backfilledDb casts now before).poolMembers) :
    ∃ m₀ ∈ copied casts now before, (m = m₀ ∨ m = m₀.leave now) ∧
      (m.active ↔ m₀.active ∧ Newest (copiedDb casts now before) m₀) :=
  exists_of_mem_deactivate hm

theorem exists_mem_backfilled (hm : m ∈ copied casts now before) :
    ∃ m' ∈ (backfilledDb casts now before).poolMembers, m' = m ∨ m' = m.leave now :=
  exists_mem_deactivate (show m ∈ (copiedDb casts now before).poolMembers from hm)

theorem copies_of_mem (hm : m ∈ (backfilledDb casts now before).poolMembers) :
    ∃ l, before.First l ∧ Copies casts l m := by
  obtain ⟨m₀, hm₀, hleave, -⟩ := exists_of_mem_backfilled hm
  obtain ⟨l, hl, hto⟩ := mem_copied.mp hm₀
  have hcopies := (copies_toMember hto).1
  rcases hleave with rfl | rfl
  · exact ⟨l, hl, hcopies⟩
  · exact ⟨l, hl, hcopies.leave⟩

variable (now) in
/-- The first entry of each pool and passenger has a row. -/
theorem exists_copy (hc : before.Castable casts) (hl : l ∈ before.valid) :
    ∃ l', before.First l' ∧ l'.key = l.key ∧
      ∃ m ∈ (backfilledDb casts now before).poolMembers, Copies casts l' m := by
  obtain ⟨l', m₀, hl', hk, hm₀, hto⟩ := exists_mem_copied now hc hl
  obtain ⟨m, hm, hleave⟩ := exists_mem_backfilled hm₀
  have hcopies := (copies_toMember hto).1
  refine ⟨l', hl', hk, m, hm, ?_⟩
  rcases hleave with rfl | rfl
  · exact hcopies
  · exact hcopies.leave

theorem members_iff (hc : before.Castable casts) {poolId : PoolId} {p : PassengerId} :
    (∃ m ∈ (backfilledDb casts now before).poolMembers, m.poolId = poolId ∧ m.passengerId = p) ↔
      p ∈ before.appUsers ∧
        ∃ l ∈ before.entries, ¬ l.Malformed ∧ l.poolId = poolId ∧ l.passengerId = some p := by
  constructor
  · rintro ⟨m, hm, rfl, rfl⟩
    obtain ⟨l, hl, hcopies⟩ := copies_of_mem hm
    obtain ⟨hmem, hwf, u, hu, hpassenger⟩ := mem_valid.mp hl.1
    obtain rfl := Option.some.inj (hpassenger.symm.trans hcopies.passengerId)
    exact ⟨hu, l, hmem, hwf, hcopies.poolId, hpassenger⟩
  · rintro ⟨hp, l, hmem, hwf, rfl, hpassenger⟩
    obtain ⟨l', -, hk, m, hm, hcopies⟩ :=
      exists_copy now hc (mem_valid.mpr ⟨hmem, hwf, p, hp, hpassenger⟩)
    obtain ⟨hpool, hpassenger'⟩ := Prod.ext_iff.mp (hcopies.key.symm.trans hk)
    exact ⟨m, hm, hpool, Option.some.inj (hpassenger'.trans hpassenger)⟩

/-! ## The inventory -/

section Inventory

variable (casts now)

/-- A row of the inventory is there. -/
theorem recorded_of_mem {c : Conflict} (h : c ∈ inventory casts now before) :
    Recorded (backfilledDb casts now before).toLegacyDb c.kind c.subject :=
  recorded_iff.mpr (Or.inr ⟨c, h, rfl⟩)

theorem mem_inventory {c : Conflict} : c ∈ inventory casts now before ↔
    c ∈ malformed before.entries ∨
    c ∈ unknownPassenger before.appUsers (before.entries.filter fun l ↦ ¬ l.Malformed) ∨
    c ∈ duplicateInPool before.valid ∨ c ∈ multipleActivePools (copiedDb casts now before) ∨
    c ∈ overCapacity (poolCounts (settledDb casts now before)) ∨
    c ∈ seatCountMismatch (poolCounts (settledDb casts now before)) := by
  simp only [inventory, List.mem_append]

theorem recorded_malformed (hl : l ∈ before.entries) (hwf : l.Malformed) :
    Recorded (backfilledDb casts now before).toLegacyDb .memberMalformed
      (.entry l.poolId l.ord) := by
  have h : _ ∈ malformed before.entries :=
    List.mem_map_of_mem (List.mem_filter.mpr ⟨hl, decide_eq_true hwf⟩)
  exact recorded_of_mem casts now
    ((mem_inventory casts now).mpr (Or.inl h))

theorem recorded_unknown (hl : l ∈ before.entries) (hwf : ¬ l.Malformed)
    (hu : Unknown before.appUsers l) :
    Recorded (backfilledDb casts now before).toLegacyDb .memberUnknownPassenger
      (.member l.poolId l.passengerId) := by
  have hmem : l ∈ before.entries.filter fun l ↦ ¬ l.Malformed :=
    List.mem_filter.mpr ⟨hl, decide_eq_true hwf⟩
  have h : _ ∈ unknownPassenger before.appUsers (before.entries.filter fun l ↦ ¬ l.Malformed) :=
    List.mem_map_of_mem (List.mem_filter.mpr ⟨hmem, decide_eq_true hu⟩)
  exact recorded_of_mem casts now
    ((mem_inventory casts now).mpr (Or.inr (Or.inl h)))

theorem recorded_duplicate {k : PoolId × Option PassengerId}
    (hk : k ∈ repeated LegacyMember.key before.valid) :
    Recorded (backfilledDb casts now before).toLegacyDb .memberDuplicateInPool
      (.member k.1 k.2) := by
  have h : _ ∈ duplicateInPool before.valid := List.mem_map_of_mem hk
  exact recorded_of_mem casts now
    ((mem_inventory casts now).mpr (Or.inr (Or.inr (Or.inl h))))

theorem recorded_multiple {p : PassengerId}
    (hp : p ∈ repeated PoolMember.passengerId (activeSeats (copiedDb casts now before))) :
    Recorded (backfilledDb casts now before).toLegacyDb .passengerMultipleActivePools
      (.passenger p) := by
  have h : _ ∈ multipleActivePools (copiedDb casts now before) := List.mem_map_of_mem hp
  exact recorded_of_mem casts now
    ((mem_inventory casts now).mpr (Or.inr (Or.inr (Or.inr (Or.inl h)))))

theorem recorded_overCapacity (hs : s ∈ before.sharedRides)
    (hover : s.maxSeats < (backfilledDb casts now before).memberCount s.rideId) :
    Recorded (backfilledDb casts now before).toLegacyDb .poolOverCapacity (.pool s.rideId) := by
  have hcount : _ ∈ poolCounts (settledDb casts now before) := mem_poolCounts hs
  have h : _ ∈ overCapacity (poolCounts (settledDb casts now before)) :=
    List.mem_map_of_mem (List.mem_filter.mpr ⟨hcount, decide_eq_true hover⟩)
  exact recorded_of_mem casts now
    ((mem_inventory casts now).mpr (Or.inr (Or.inr (Or.inr (Or.inr (Or.inl h))))))

theorem recorded_mismatch (hs : s ∈ before.sharedRides)
    (hne : s.seatCount ≠ (backfilledDb casts now before).memberCount s.rideId) :
    Recorded (backfilledDb casts now before).toLegacyDb .poolSeatCountMismatch
      (.pool s.rideId) := by
  have hcount : _ ∈ poolCounts (settledDb casts now before) := mem_poolCounts hs
  have h : _ ∈ seatCountMismatch (poolCounts (settledDb casts now before)) :=
    List.mem_map_of_mem (List.mem_filter.mpr ⟨hcount, decide_eq_true hne⟩)
  exact recorded_of_mem casts now
    ((mem_inventory casts now).mpr (Or.inr (Or.inr (Or.inr (Or.inr (Or.inr h))))))

/-- An entry that is not a first one is recorded. -/
theorem recordsEntry (hl : l ∈ before.entries) (hnot : ¬ before.First l) :
    RecordsEntry (backfilledDb casts now before).toLegacyDb l := by
  by_cases hwf : l.Malformed
  · exact Or.inl (recorded_malformed casts now hl hwf)
  obtain ⟨p, hp⟩ : ∃ p, l.passengerId = some p := Option.ne_none_iff_exists'.mp fun h ↦ hwf (Or.inl h)
  refine Or.inr ⟨p, hp, ?_⟩
  by_cases hu : Unknown before.appUsers l
  · have := recorded_unknown casts now hl hwf hu
    rw [hp] at this
    exact Or.inl this
  · have hvalid : l ∈ before.valid := mem_valid.mpr ⟨hl, hwf, not_not.mp hu⟩
    obtain ⟨l', hl', hk⟩ := exists_first hvalid
    have hne : l' ≠ l := fun h ↦ hnot (h ▸ hl')
    have := recorded_duplicate casts now (mem_repeated_of_ne hl'.1 hvalid hk hne)
    rw [LegacyMember.key, hp] at this
    exact Or.inr this

/-- The ways in which a pool may list a passenger twice. -/
theorem recorded_listedTwice {poolId : PoolId} {p : PassengerId}
    (h : 1 < (group LegacyMember.key before.entries (poolId, some p)).length) :
    Recorded (backfilledDb casts now before).toLegacyDb .memberDuplicateInPool
      (.member poolId (some p)) ∨
    Recorded (backfilledDb casts now before).toLegacyDb .memberUnknownPassenger
      (.member poolId (some p)) ∨
    ∃ l ∈ before.entries, l.key = (poolId, some p) ∧
      Recorded (backfilledDb casts now before).toLegacyDb .memberMalformed (.entry poolId l.ord) := by
  by_cases hall : ∀ l ∈ before.entries, l.key = (poolId, some p) → l ∈ before.valid
  · -- Both entries are copied or in the way of each other.
    have hgroup : group LegacyMember.key before.valid (poolId, some p) =
        group LegacyMember.key before.entries (poolId, some p) := by
      simp only [group, LegacyDb.valid, List.filter_filter]
      refine List.filter_congr fun l hl ↦ ?_
      by_cases hk : l.key = (poolId, some p)
      · obtain ⟨-, hwf, hu⟩ := mem_valid.mp (hall l hl hk)
        simp [hk, hwf, Unknown, hu]
      · simp [hk]
    exact Or.inl (recorded_duplicate casts now (mem_repeated.mpr (hgroup ▸ h)))
  · push Not at hall
    obtain ⟨l, hl, hk, hnot⟩ := hall
    obtain ⟨hpool, hpassenger⟩ := Prod.ext_iff.mp hk
    by_cases hwf : l.Malformed
    · have := recorded_malformed casts now hl hwf
      rw [show l.poolId = poolId from hpool] at this
      exact Or.inr (Or.inr ⟨l, hl, hk, this⟩)
    · have hu : Unknown before.appUsers l := fun hu ↦ hnot (mem_valid.mpr ⟨hl, hwf, hu⟩)
      have := recorded_unknown casts now hl hwf hu
      rw [show l.poolId = poolId from hpool, show l.passengerId = some p from hpassenger] at this
      exact Or.inr (Or.inl this)

end Inventory

/-! ## The active seats -/

theorem newest_le_iff : m.newest ≤ m'.newest ↔
    m'.joinedAt < m.joinedAt ∨ m'.joinedAt = m.joinedAt ∧ m.poolId ≤ m'.poolId := by
  rw [PoolMember.newest, PoolMember.newest, Prod.Lex.toLex_le_toLex, OrderDual.toDual_lt_toDual,
    OrderDual.toDual_inj, eq_comm]

/-- A copied seat is active when its pool had not ended. -/
theorem active_copied (hm : m ∈ copied casts now before) : m.active ↔ before.Live m.poolId := by
  obtain ⟨l, hl, hto⟩ := mem_copied.mp hm
  obtain ⟨hcopies, hactive⟩ := copies_toMember hto
  obtain ⟨s, hs, elem, -, -, hof⟩ := exists_of_mem_entries (mem_valid.mp hl.1).1
  have hstate : l.poolState = s.poolState := by rw [hof]; rfl
  have hid : s.rideId = m.poolId := by rw [← hcopies.poolId, hof]; rfl
  rw [hactive, hstate]
  constructor
  · exact fun h ↦ ⟨s, hs, hid, h⟩
  · rintro ⟨s', hs', hid', h⟩
    rwa [Table.unique hs hs' (hid.trans hid'.symm)]

/-- What deactivation leaves of a seat. -/
theorem leave_fields (h : m = m₀ ∨ m = m₀.leave now) :
    m.key = m₀.key ∧ m.newest = m₀.newest := by
  rcases h with rfl | rfl
  · exact ⟨rfl, rfl⟩
  · exact ⟨rfl, rfl⟩

theorem active_backfilled (hm : m ∈ (backfilledDb casts now before).poolMembers) :
    m.active ↔ before.Live m.poolId ∧ ∀ m' ∈ (backfilledDb casts now before).poolMembers,
      m'.passengerId = m.passengerId → before.Live m'.poolId → m.newest ≤ m'.newest := by
  obtain ⟨m₀, hm₀, hleave, hactive⟩ := exists_of_mem_backfilled hm
  obtain ⟨hkey, hnewest⟩ := leave_fields hleave
  obtain ⟨hpool, hpassenger⟩ := Prod.ext_iff.mp hkey
  rw [hactive, active_copied hm₀, show m.poolId = m₀.poolId from hpool]
  refine and_congr_right fun _ ↦ ⟨fun h m' hm' hp hlive ↦ ?_, fun h m' hm' ha hp ↦ ?_⟩
  · obtain ⟨m'₀, hm'₀, hleave', -⟩ := exists_of_mem_backfilled hm'
    obtain ⟨hkey', hnewest'⟩ := leave_fields hleave'
    obtain ⟨hpool', hpassenger'⟩ := Prod.ext_iff.mp hkey'
    rw [hnewest, hnewest']
    refine h m'₀ hm'₀ ((active_copied hm'₀).mpr ?_)
      (hpassenger'.symm.trans (hp.trans hpassenger))
    rwa [← show m'.poolId = m'₀.poolId from hpool']
  · obtain ⟨m'', hm'', hleave'⟩ := exists_mem_backfilled hm'
    obtain ⟨hkey', hnewest'⟩ := leave_fields hleave'
    obtain ⟨hpool', hpassenger'⟩ := Prod.ext_iff.mp hkey'
    rw [← hnewest, ← hnewest']
    refine h m'' hm'' (hpassenger'.trans (hp.trans hpassenger.symm)) ?_
    rw [show m''.poolId = m'.poolId from hpool']
    exact (active_copied hm').mp ha

/-- Two active seats of a passenger are one. -/
theorem oneActivePool : OneActivePool (backfilledDb casts now before) := by
  intro m hm m' hm' ha ha' hp
  obtain ⟨hlive, hfirst⟩ := (active_backfilled hm).mp ha
  obtain ⟨hlive', hfirst'⟩ := (active_backfilled hm').mp ha'
  have hnewest := (hfirst m' hm' hp.symm hlive').antisymm (hfirst' m hm hp hlive)
  have hpool : m.poolId = m'.poolId := (Prod.ext_iff.mp (toLex.injective hnewest)).2
  exact Table.unique hm hm' (Prod.ext hpool hp)

/-- The newest of a passenger's seats in pools that had not ended is active. -/
theorem exists_active (hm : m ∈ (backfilledDb casts now before).poolMembers)
    (hlive : before.Live m.poolId) :
    ∃ m' ∈ (backfilledDb casts now before).poolMembers,
      m'.passengerId = m.passengerId ∧ m'.active := by
  classical
  let seats := (backfilledDb casts now before).poolMembers.filter fun m' ↦ before.Live m'.poolId
  have hseat : m ∈ seats := Table.mem_filter.mpr ⟨hm, hlive⟩
  obtain ⟨m', hm', hp⟩ : ∃ m' ∈ distinctOn PoolMember.passengerId PoolMember.newest seats,
      m'.passengerId = m.passengerId := exists_mem_distinctOn hseat
  obtain ⟨hmem, hfirst⟩ := mem_distinctOn.mp hm'
  obtain ⟨hmem, hlive'⟩ := Table.mem_filter.mp hmem
  refine ⟨m', hmem, hp, (active_backfilled hmem).mpr ⟨hlive', fun m'' hm'' hp'' hlive'' ↦ ?_⟩⟩
  exact hfirst m'' (Table.mem_filter.mpr ⟨hm'', hlive''⟩) hp''

variable (casts now) in
theorem recorded_severalSeats (hm : m ∈ (backfilledDb casts now before).poolMembers)
    (hm' : m' ∈ (backfilledDb casts now before).poolMembers) (hne : m ≠ m')
    (hp : m.passengerId = m'.passengerId) (hlive : before.Live m.poolId)
    (hlive' : before.Live m'.poolId) :
    Recorded (backfilledDb casts now before).toLegacyDb .passengerMultipleActivePools
      (.passenger m.passengerId) := by
  obtain ⟨m₀, hm₀, hleave, -⟩ := exists_of_mem_backfilled hm
  obtain ⟨m'₀, hm'₀, hleave', -⟩ := exists_of_mem_backfilled hm'
  obtain ⟨hpool, hpassenger⟩ := Prod.ext_iff.mp (leave_fields hleave).1
  obtain ⟨hpool', hpassenger'⟩ := Prod.ext_iff.mp (leave_fields hleave').1
  have hseat : m₀ ∈ activeSeats (copiedDb casts now before) :=
    mem_activeSeats.mpr ⟨hm₀, (active_copied hm₀).mpr
      (by rwa [← show m.poolId = m₀.poolId from hpool])⟩
  have hseat' : m'₀ ∈ activeSeats (copiedDb casts now before) :=
    mem_activeSeats.mpr ⟨hm'₀, (active_copied hm'₀).mpr
      (by rwa [← show m'.poolId = m'₀.poolId from hpool'])⟩
  have hp₀ : m'₀.passengerId = m₀.passengerId :=
    hpassenger'.symm.trans (hp.symm.trans hpassenger)
  have hne₀ : m'₀ ≠ m₀ := by
    rintro rfl
    exact hne (Table.unique hm hm' (Prod.ext (hpool.trans hpool'.symm) hp))
  have h := recorded_multiple casts now (mem_repeated_of_ne hseat' hseat hp₀ hne₀)
  rwa [show m.passengerId = m₀.passengerId from hpassenger]

/-! ## The counts -/

theorem mem_sharedRides_backfilled : s ∈ (backfilledDb casts now before).sharedRides ↔
    ∃ s₀ ∈ before.sharedRides, s₀.derived (backfilledDb casts now before) = s :=
  mem_deriveCounts

theorem seatCapacityCheck : SeatCapacityCheck (backfilledDb casts now before) := by
  intro s hs
  obtain ⟨s₀, hs₀, rfl⟩ := mem_sharedRides_backfilled.mp hs
  exact ⟨Int.natCast_nonneg _, le_max_right _ _⟩

/-- The added constraint on `max_seats` holds unless a pool had neither seats nor members. -/
theorem maxSeatsCheck_iff : MaxSeatsCheck (backfilledDb casts now before) ↔
    ∀ s ∈ before.sharedRides, 1 ≤ s.maxSeats ∨
      ∃ m ∈ (backfilledDb casts now before).poolMembers, m.poolId = s.rideId := by
  have hcount : ∀ s : SharedRide, 1 ≤ (backfilledDb casts now before).memberCount s.rideId ↔
      ∃ m ∈ (backfilledDb casts now before).poolMembers, m.poolId = s.rideId := by
    intro s
    rw [MemberDb.memberCount, Nat.one_le_iff_ne_zero, ← Nat.pos_iff_ne_zero,
      List.length_pos_iff_exists_mem]
    simp only [Table.mem_filter]
  constructor
  · intro h s hs
    have hmax := h _ (mem_sharedRides_backfilled.mpr ⟨s, hs, rfl⟩)
    rcases le_max_iff.mp hmax with hle | hle
    · exact Or.inl hle
    · exact Or.inr ((hcount s).mp (by exact_mod_cast hle))
  · intro h s hs
    obtain ⟨s₀, hs₀, rfl⟩ := mem_sharedRides_backfilled.mp hs
    refine le_max_iff.mpr ((h s₀ hs₀).imp_right fun hm ↦ ?_)
    exact_mod_cast (hcount s₀).mpr hm

/-- An entry that is copied has its row. -/
theorem exists_copies (hc : before.Castable casts) (hl : before.First l) :
    ∃ m ∈ (backfilledDb casts now before).poolMembers, Copies casts l m := by
  obtain ⟨l', hl', hk, m, hm, hcopies⟩ := exists_copy now hc hl.1
  obtain rfl := First.unique hl' hl hk
  exact ⟨m, hm, hcopies⟩

theorem backfilled (hc : before.Castable casts) :
    Backfilled casts before (backfilledDb casts now before) where
  members _ _ := members_iff hc
  copies _ hm := copies_of_mem hm
  uncopied l hl := by
    by_cases hfirst : before.First l
    · obtain ⟨m, hm, hcopies⟩ := exists_copies hc hfirst
      exact Or.inl ⟨m, hm, hfirst, hcopies⟩
    · exact Or.inr (recordsEntry casts now hl hfirst)
  duplicates _ _ h := recorded_duplicate casts now (mem_repeated.mpr h)
  listedTwice _ _ h := recorded_listedTwice casts now h
  severalSeats _ hm _ hm' := recorded_severalSeats casts now hm hm'
  overCapacity _ hs := recorded_overCapacity casts now hs
  seatCountMismatch _ hs := recorded_mismatch casts now hs
  active m hm := by
    rw [active_backfilled hm]
    simp only [newest_le_iff]
  oneActive m hm hlive := by
    obtain ⟨m', hm', hp, ha⟩ := exists_active hm hlive
    refine ⟨m', ⟨hm', hp, ha⟩, fun m'' ⟨hm'', hp'', ha''⟩ ↦ ?_⟩
    exact oneActivePool m'' hm'' m' hm' ha'' ha (hp''.trans hp.symm)
  pools := Table.map_key_update SharedRide.rideId_count
  counts s hs := by
    obtain ⟨s₀, hs₀, rfl⟩ := mem_sharedRides_backfilled.mp hs
    exact ⟨rfl, le_max_right _ _⟩
  maxSeats s hs s' hs' hid := by
    obtain ⟨s₀, hs₀, rfl⟩ := mem_sharedRides_backfilled.mp hs'
    obtain rfl := Table.unique hs₀ hs hid
    exact le_max_left _ _
  recorded _ _ h := recorded_iff.mpr (Or.inl h)

/-- A pool without seats, which lists nothing but a `null`. -/
def sampleLegacy : LegacyDb where
  sharedRides := Table.empty.insert
    { rideId := 7
      seatCount := 2
      maxSeats := 0
      poolState := .open_
      createdAt := 0
      members := .array [.null] }
  appUsers := []
  conflicts := Table.empty

def sampleCasts : Casts ℚ where
  float8 := some
  timestamptz _ := none

theorem sampleLegacy_castable : sampleLegacy.Castable sampleCasts := by
  intro l hl
  obtain rfl : l = .of _ .null 1 := List.mem_singleton.mp hl
  exact ⟨fun _ _ _ h ↦ (by cases h), fun _ h ↦ (by cases h)⟩

end Rcab.Migrations
