import Mathlib.Algebra.GroupWithZero.Nat
import Mathlib.Data.Prod.Lex
import Rcab.Lib.Ranking
import Rcab.Lib.Table
import Rcab.Migrations.LegacyMembers

/-!
# Migration 0016

`0016_pool_membership.sql`: the passes that copy `shared_rides.members` to `pool_member`, record in
`migration_conflict` what cannot be copied mechanically, and derive the seat counts, and then the
constraints that are added.  The file is one transaction, so that a statement that fails leaves
nothing.
-/

namespace Rcab.Migrations

/-! ## `pool_member` -/

/-- A row of `pool_member`, under the table's CHECK constraints. -/
structure PoolMember (F : Type) where
  poolId : PoolId
  passengerId : PassengerId
  seats : ℕ := 1
  originLat : F
  originLng : F
  destLat : F
  destLng : F
  quotedFareCents : Option Int := none
  idempotencyKey : Option String := none
  active : Bool
  joinedAt : Time
  leftAt : Option Time
  /-- `pool_member_one_seat_check`. -/
  one_seat : seats = 1 := by rfl
  /-- `pool_member_fare_check`. -/
  fare : ∀ fare ∈ quotedFareCents, 0 ≤ fare := by rintro _ ⟨⟩
  /-- `pool_member_left_check`. -/
  left : active = leftAt.isNone

namespace PoolMember

variable {F : Type}

def key (m : PoolMember F) : PoolId × PassengerId := (m.poolId, m.passengerId)

/-- `ORDER BY joined_at DESC, pool_id`. -/
def newest (m : PoolMember F) : Timeᵒᵈ ×ₗ PoolId := toLex (OrderDual.toDual m.joinedAt, m.poolId)

/-- `SET active = false, left_at = now()`. -/
def leave (now : Time) (m : PoolMember F) : PoolMember F :=
  { m with active := false, leftAt := some now, left := rfl }

theorem key_leave {now : Time} (m : PoolMember F) : (m.leave now).key = m.key := rfl

end PoolMember

/-! ## `migration_conflict` -/

inductive ConflictKind where
  | memberMalformed | memberUnknownPassenger | memberDuplicateInPool
  | passengerMultipleActivePools | poolOverCapacity | poolSeatCountMismatch
deriving DecidableEq, Repr

/-- What a conflict is about. -/
inductive Subject where
  | entry (poolId : PoolId) (ord : ℕ)
  | member (poolId : PoolId) (passengerId : Option PassengerId)
  | passenger (passengerId : PassengerId)
  | pool (poolId : PoolId)
deriving DecidableEq, Repr

inductive Detail where
  | elem (elem : Json)
  | entries (entries : List Json) (keptOrd : Option ℕ)
  | pools (pools : List (PoolId × Time)) (keptActive : Option PoolId)
  | capacity (maxSeats memberSeats : Int)
  | seatCount (seatCount memberSeats : Int)

/-- A row of `migration_conflict` of this migration; those of 0014 are neither read nor in its
way. -/
structure Conflict where
  kind : ConflictKind
  subject : Subject
  detail : Detail

/-- `migration_conflict_once_uq`. -/
def Conflict.key (c : Conflict) : ConflictKind × Subject := (c.kind, c.subject)

/-! ## The database -/

/-- Before the migration. -/
structure LegacyDb where
  sharedRides : Table SharedRide.rideId
  /-- The ids in `app_user`. -/
  appUsers : List PassengerId
  conflicts : Table Conflict.key

/-- With the table the migration creates. -/
structure MemberDb (F : Type) extends LegacyDb where
  poolMembers : Table (PoolMember.key (F := F))

variable {F : Type}

/-- `INSERT INTO migration_conflict … ON CONFLICT DO NOTHING`. -/
def record (db : MemberDb F) (conflicts : List Conflict) : MemberDb F :=
  { db with conflicts := conflicts.foldl Table.insert db.conflicts }

/-! ## The entries that are not copied -/

def malformed (legacy : List LegacyMember) : List Conflict :=
  (legacy.filter LegacyMember.Malformed).map fun l ↦
    ⟨.memberMalformed, .entry l.poolId l.ord, .elem l.elem⟩

/-- `NOT EXISTS (SELECT 1 FROM app_user u WHERE u.id = l.passenger_id)`. -/
def Unknown (appUsers : List PassengerId) (l : LegacyMember) : Prop :=
  ¬ ∃ u ∈ appUsers, l.passengerId = some u

instance {appUsers : List PassengerId} : DecidablePred (Unknown appUsers) := fun _ ↦
  inferInstanceAs (Decidable (¬ _))

def unknownPassenger (appUsers : List PassengerId) (legacy : List LegacyMember) : List Conflict :=
  (legacy.filter fun l ↦ Unknown appUsers l).map fun l ↦
    ⟨.memberUnknownPassenger, .member l.poolId l.passengerId, .elem l.elem⟩

def duplicateInPool (legacy : List LegacyMember) : List Conflict :=
  (repeated LegacyMember.key legacy).map fun k ↦
    let entries := (group LegacyMember.key legacy k).mergeSort (·.ord ≤ ·.ord)
    ⟨.memberDuplicateInPool, .member k.1 k.2,
      .entries (entries.map LegacyMember.elem) (entries.map LegacyMember.ord).min?⟩

/-! ## The copy -/

section Copy

variable (casts : Casts F) (now : Time)

/-- The row that is inserted for an entry. -/
def toMember (l : LegacyMember) : Option (PoolMember F) := do
  let passengerId ← l.passengerId
  let originLat ← l.coord casts "origin_lat"
  let originLng ← l.coord casts "origin_lng"
  let destLat ← l.coord casts "dest_lat"
  let destLng ← l.coord casts "dest_lng"
  let joinedAt ← l.joinedAt casts
  return {
    poolId := l.poolId
    passengerId, originLat, originLng, destLat, destLng, joinedAt
    active := ¬ l.poolState.Terminal
    leftAt := if l.poolState.Terminal then some now else none
    left := by by_cases h : l.poolState.Terminal <;> simp [h]
  }

/-- The foreign keys of `pool_member`. -/
def References (db : LegacyDb) (m : PoolMember F) : Prop :=
  (db.sharedRides.get m.poolId).isSome ∧ m.passengerId ∈ db.appUsers

instance {db : LegacyDb} : DecidablePred (References (F := F) db) := fun _ ↦
  inferInstanceAs (Decidable (_ ∧ _))

/-- `INSERT INTO pool_member`: the first listed entry wins inside one pool.  Every entry is cast. -/
def copyMembers (legacy : List LegacyMember) (db : MemberDb F) : Option (MemberDb F) :=
  let members := (distinctOn LegacyMember.key LegacyMember.ord legacy).filterMap (toMember casts now)
  if (∀ l ∈ legacy, (toMember casts now l).isSome) ∧ ∀ m ∈ members, References db.toLegacyDb m then
    some { db with poolMembers := members.foldl Table.insert db.poolMembers }
  else none

end Copy

/-! ## One active seat -/

def activeSeats (db : MemberDb F) : List (PoolMember F) := db.poolMembers.filter (·.active)

def multipleActivePools (db : MemberDb F) : List Conflict :=
  (repeated PoolMember.passengerId (activeSeats db)).map fun p ↦
    let seats := (group PoolMember.passengerId (activeSeats db) p).mergeSort (·.newest ≤ ·.newest)
    ⟨.passengerMultipleActivePools, .passenger p,
      .pools (seats.map fun m ↦ (m.poolId, m.joinedAt)) (seats.head?.map PoolMember.poolId)⟩

/-- Keeps the newest-joined seat active and deactivates the rest. -/
def deactivate (now : Time) (db : MemberDb F) : MemberDb F :=
  { db with
    poolMembers := db.poolMembers.update
      (fun m ↦ ∃ ranked ∈ activeSeats db,
        1 < rowNumber PoolMember.passengerId PoolMember.newest (activeSeats db) ranked ∧
          m.poolId = ranked.poolId ∧ m.passengerId = ranked.passengerId)
      (PoolMember.leave now) PoolMember.key_leave }

/-! ## Capacity and the derived seat count -/

/-- A row of `_pool_count`. -/
structure PoolCount where
  poolId : PoolId
  seatCount : Int
  maxSeats : Int
  memberSeats : Int

def poolCounts (db : MemberDb F) : List PoolCount :=
  db.sharedRides.rows.map fun s ↦
    { poolId := s.rideId
      seatCount := s.seatCount
      maxSeats := s.maxSeats
      memberSeats := ((db.poolMembers.filter (·.poolId = s.rideId)).map PoolMember.seats).sum }

def overCapacity (counts : List PoolCount) : List Conflict :=
  (counts.filter fun c ↦ c.memberSeats > c.maxSeats).map fun c ↦
    ⟨.poolOverCapacity, .pool c.poolId, .capacity c.maxSeats c.memberSeats⟩

def seatCountMismatch (counts : List PoolCount) : List Conflict :=
  (counts.filter fun c ↦ c.seatCount ≠ c.memberSeats).map fun c ↦
    ⟨.poolSeatCountMismatch, .pool c.poolId, .seatCount c.seatCount c.memberSeats⟩

/-- `SET max_seats = GREATEST(s.max_seats, c.member_seats), seat_count = c.member_seats`. -/
def SharedRide.count (counts : List PoolCount) (s : SharedRide) : SharedRide :=
  match counts.find? (·.poolId = s.rideId) with
  | some c => { s with maxSeats := max s.maxSeats c.memberSeats, seatCount := c.memberSeats }
  | none => s

theorem SharedRide.rideId_count {counts : List PoolCount} (s : SharedRide) :
    (s.count counts).rideId = s.rideId := by
  rw [SharedRide.count]
  split <;> rfl

def deriveCounts (counts : List PoolCount) (db : MemberDb F) : MemberDb F :=
  { db with
    sharedRides := db.sharedRides.update
      (fun s ↦ ∃ c ∈ counts, c.poolId = s.rideId ∧
        (s.seatCount ≠ c.memberSeats ∨ s.maxSeats < c.memberSeats))
      (SharedRide.count counts) SharedRide.rideId_count }

/-! ## The migration -/

/-- The data part. -/
def backfill (casts : Casts F) (now : Time) (before : LegacyDb) : Option (MemberDb F) := do
  let db : MemberDb F := { before with poolMembers := Table.empty }
  let legacy := legacyMembers db.sharedRides.rows
  let db := record db (malformed legacy)
  let legacy := legacy.filter fun l ↦ ¬ l.Malformed
  let db := record db (unknownPassenger db.appUsers legacy)
  let legacy := legacy.filter fun l ↦ ¬ Unknown db.appUsers l
  let db := record db (duplicateInPool legacy)
  let db ← copyMembers casts now legacy db
  let db := record db (multipleActivePools db)
  let db := deactivate now db
  let counts := poolCounts db
  let db := record db (overCapacity counts)
  let db := record db (seatCountMismatch counts)
  return deriveCounts counts db

/-- `pool_member_one_active_pool_uq`. -/
def OneActivePool (db : MemberDb F) : Prop :=
  db.poolMembers.UniqueOn (·.active) PoolMember.passengerId

/-- `shared_rides_max_seats_check`. -/
def MaxSeatsCheck (db : MemberDb F) : Prop := ∀ s ∈ db.sharedRides, s.maxSeats ≥ 1

/-- `shared_rides_seat_capacity_check`. -/
def SeatCapacityCheck (db : MemberDb F) : Prop :=
  ∀ s ∈ db.sharedRides, s.seatCount ≥ 0 ∧ s.seatCount ≤ s.maxSeats

end Rcab.Migrations
