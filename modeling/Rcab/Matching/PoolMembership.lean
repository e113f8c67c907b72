import Rcab.Dispatch.Assignment
import Rcab.Matching.Itinerary

/-!
# Pool membership

`pool-membership.repository.ts`, with the constraints and triggers of migrations
0016 and 0017 that its `INSERT` runs into, in the order Postgres meets them:
require-open, the three unique indexes, then the seat count and its capacity check.
-/

namespace Rcab

/-- `pool_member_sync_seat_count`: one more seat, when the capacity check allows it. -/
def SharedRide.seatOne (s : SharedRide) : SharedRide :=
  if h : s.seatCount + 1 ≤ s.maxSeats then
    { s with seatCount := s.seatCount + 1, capacity := h }
  else s

@[simp] theorem SharedRide.seatOne_rideId (s : SharedRide) : s.seatOne.rideId = s.rideId := by
  unfold SharedRide.seatOne
  split <;> rfl

@[simp] theorem SharedRide.seatOne_poolState (s : SharedRide) :
    s.seatOne.poolState = s.poolState := by
  unfold SharedRide.seatOne
  split <;> rfl

@[simp] theorem SharedRide.seatOne_claimedByDriverId (s : SharedRide) :
    s.seatOne.claimedByDriverId = s.claimedByDriverId := by
  unfold SharedRide.seatOne
  split <;> rfl

@[simp] theorem SharedRide.seatOne_dispatchGeneration (s : SharedRide) :
    s.seatOne.dispatchGeneration = s.dispatchGeneration := by
  unfold SharedRide.seatOne
  split <;> rfl

namespace Matching

open Dispatch (OfferStop)

def lockPool (db : Db) (poolId : PoolId) : Option SharedRide := db.sharedRides.get poolId

structure NewPoolMember where
  poolId : PoolId
  passengerId : PassengerId
  origin : Point
  dest : Point
  agreedFareCents : Int
  idempotencyKey : Option String
deriving DecidableEq, Repr

inductive InsertMemberFailure where
  | alreadyMember | passengerHasActivePool | poolFull | poolClosed | idempotentReplay
deriving DecidableEq, Repr

/-- The reason as the code spells it. -/
def InsertMemberFailure.text : InsertMemberFailure → String
  | .alreadyMember => "already_member"
  | .passengerHasActivePool => "passenger_has_active_pool"
  | .poolFull => "pool_full"
  | .poolClosed => "pool_closed"
  | .idempotentReplay => "idempotent_replay"

inductive InsertMemberResult where
  | ok (seatCount : Nat)
  | failed (reason : InsertMemberFailure) (existingPoolId : Option PoolId)
deriving DecidableEq, Repr

/-- The row the `INSERT` writes. -/
def NewPoolMember.row (m : NewPoolMember) (now : Time) : PoolMember where
  poolId := m.poolId
  passengerId := m.passengerId
  origin := m.origin
  dest := m.dest
  agreedFareCents := some m.agreedFareCents
  idempotencyKey := m.idempotencyKey
  joinedAt := now

/-- A key JavaScript takes for true. -/
def keyed (key : Option String) : Bool := key.any (· ≠ "")

/-- The rows `classifyDuplicate` reads. -/
def duplicateRows (db : Db) (m : NewPoolMember) : List PoolMember :=
  db.poolMember.filter fun r ↦ r.passengerId = m.passengerId ∧
    (r.poolId = m.poolId ∨ r.active ∨ (m.idempotencyKey.isSome ∧ r.idempotencyKey = m.idempotencyKey))

/-- More than one unique index can be violated at once; the outcome is read off the
committed rows, the constraint's name being the fallback. -/
def classifyDuplicate (db : Db) (m : NewPoolMember) (constraint : Constraint) : InsertMemberResult :=
  let rows := duplicateRows db m
  match (if keyed m.idempotencyKey then rows.find? fun r ↦ r.idempotencyKey = m.idempotencyKey
    else none) with
  | some byKey => .failed .idempotentReplay (some byKey.poolId)
  | none =>
  -- Only a keyless duplicate is handed the same pool back.
  if (rows.find? fun r ↦ r.poolId = m.poolId).any fun samePool ↦
      ¬ keyed m.idempotencyKey ∨ ¬ samePool.active then
    .failed .alreadyMember (some m.poolId)
  else match rows.find? fun r ↦ r.active with
  | some active => .failed .passengerHasActivePool (some active.poolId)
  | none =>
      if constraint = .poolMemberIdempotency then .failed .idempotentReplay none
      else if constraint = .poolMemberDuplicate ∧ ¬ keyed m.idempotencyKey then
        .failed .alreadyMember (some m.poolId)
      else .failed .passengerHasActivePool none

/-- A duplicate is never a success. -/
theorem classifyDuplicate_ne_ok {db : Db} {m : NewPoolMember} {c : Constraint} (n : Nat) :
    classifyDuplicate db m c ≠ .ok n := by
  unfold classifyDuplicate
  dsimp only
  split
  · simp
  · split
    · simp
    · split
      · simp
      · split
        · simp
        · split <;> simp

/-- `Number.isSafeInteger(fare) && fare >= 0`. -/
def ValidFare (fare : Int) : Prop := 0 ≤ fare ∧ fare ≤ 2 ^ 53 - 1

instance : DecidablePred ValidFare := fun fare ↦
  inferInstanceAs (Decidable (0 ≤ fare ∧ fare ≤ 2 ^ 53 - 1))

/-- The unique index the new row violates, the first Postgres checks. -/
def duplicateOf (db : Db) (m : NewPoolMember) : Option Constraint :=
  if (db.poolMember.get (m.poolId, m.passengerId)).isSome then some .poolMemberDuplicate
  else if m.idempotencyKey.isSome ∧ db.poolMember.Any fun r ↦
      r.passengerId = m.passengerId ∧ r.idempotencyKey = m.idempotencyKey then
    some .poolMemberIdempotency
  else if db.poolMember.Any fun r ↦ r.passengerId = m.passengerId ∧ r.active then
    some .poolMemberOneActivePool
  else none

/-- The three unique indexes let the row in. -/
theorem of_duplicateOf {db : Db} {m : NewPoolMember} (h : duplicateOf db m = none) :
    db.poolMember.get (m.poolId, m.passengerId) = none ∧
      (m.idempotencyKey ≠ none → ∀ r ∈ db.poolMember, r.passengerId = m.passengerId →
        r.idempotencyKey ≠ m.idempotencyKey) ∧
      ∀ r ∈ db.poolMember, r.passengerId = m.passengerId → ¬ r.active := by
  unfold duplicateOf at h
  split_ifs at h with hpk hkey hactive
  refine ⟨by simpa using hpk, fun hsome r hr hp hk ↦ ?_, fun r hr hp ha ↦ ?_⟩
  · exact hkey ⟨Option.isSome_iff_ne_none.mpr hsome, r, hr, hp, hk⟩
  · exact hactive ⟨r, hr, hp, ha⟩

/-- Seat one passenger. -/
def insertMember (t : TxClock) (db : Db) (m : NewPoolMember) : Tx InsertMemberResult :=
  if ¬ ValidFare m.agreedFareCents then
    .error (.thrown s!"insertMember: invalid agreed fare {m.agreedFareCents}")
  -- The column is an `integer`.
  else if m.agreedFareCents > 2 ^ 31 - 1 then .error (.constraint .poolMemberFareRange)
  else match db.sharedRides.get m.poolId with
  | none => .ok (db, .failed .poolClosed none)
  | some pool =>
  if pool.poolState ≠ .open_ then .ok (db, .failed .poolClosed none)
  else match duplicateOf db m with
  | some constraint => .ok (db, classifyDuplicate db m constraint)
  | none =>
  if pool.seatCount + 1 ≤ pool.maxSeats then
    let db := { db with poolMember := db.poolMember.insert (m.row t.now) }
    .ok (db.updatePool t.now m.poolId SharedRide.seatOne SharedRide.seatOne_rideId,
      .ok (pool.seatCount + 1))
  else .ok (db, .failed .poolFull none)

/-- A seat is taken in an open pool, or nothing happens. -/
theorem insertMember_eq_ok {t : TxClock} {db db' : Db} {m : NewPoolMember} {r : InsertMemberResult}
    (h : insertMember t db m = .ok (db', r)) :
    ((∃ reason existing, r = .failed reason existing) ∧ db' = db) ∨
      ∃ pool, db.sharedRides.get m.poolId = some pool ∧ pool.poolState = .open_ ∧
        r = .ok (pool.seatCount + 1) ∧ pool.seatCount + 1 ≤ pool.maxSeats ∧
        duplicateOf db m = none ∧ ValidFare m.agreedFareCents ∧
        db' = ({ db with poolMember := db.poolMember.insert (m.row t.now) } : Db).updatePool t.now
          m.poolId SharedRide.seatOne SharedRide.seatOne_rideId := by
  unfold insertMember at h
  split at h
  · cases h
  rename_i hf
  split at h
  · cases h
  split at h
  · obtain ⟨rfl, rfl⟩ := Tx.ok_inj h
    exact Or.inl ⟨⟨_, _, rfl⟩, rfl⟩
  rename_i pool hpool
  split at h
  · obtain ⟨rfl, rfl⟩ := Tx.ok_inj h
    exact Or.inl ⟨⟨_, _, rfl⟩, rfl⟩
  rename_i ho
  split at h
  · rename_i c hc
    obtain ⟨rfl, rfl⟩ := Tx.ok_inj h
    refine Or.inl ⟨?_, rfl⟩
    cases hcl : classifyDuplicate db m c with
    | ok n => exact absurd hcl (classifyDuplicate_ne_ok n)
    | failed reason existing => exact ⟨_, _, rfl⟩
  rename_i hdup
  split at h
  · rename_i hcap
    obtain ⟨rfl, rfl⟩ := Tx.ok_inj h
    exact Or.inr ⟨pool, hpool, not_not.mp ho, rfl, hcap, hdup, not_not.mp hf, rfl⟩
  · obtain ⟨rfl, rfl⟩ := Tx.ok_inj h
    exact Or.inl ⟨⟨_, _, rfl⟩, rfl⟩

def memberFromDb (m : PoolMember) : SharedRideMember where
  passengerId := m.passengerId
  origin := m.origin
  dest := m.dest
  joinedAt := m.joinedAt

/-- `MEMBER_ORDER_SQL`: join time, then passenger id. -/
def MemberOrder (a b : PoolMember) : Prop :=
  toLex (a.joinedAt, a.passengerId) ≤ toLex (b.joinedAt, b.passengerId)

instance : DecidableRel MemberOrder := fun a b ↦
  inferInstanceAs (Decidable (toLex (a.joinedAt, a.passengerId) ≤ toLex (b.joinedAt, b.passengerId)))

def listMembers (db : Db) (poolId : PoolId) : List SharedRideMember :=
  ((db.poolMember.filter fun m ↦ m.poolId = poolId).insertionSort MemberOrder).map memberFromDb

structure SeatLookup where
  poolId : PoolId
  poolState : PoolState
  /-- This passenger opened the pool: no member precedes them. -/
  opened : Bool
  agreedFareCents : Option Int
deriving DecidableEq, Repr

/-- `SEAT_SELECT` for one member row: nothing when the join finds no pool. -/
def seatSelect (db : Db) (m : PoolMember) : Option SeatLookup :=
  (db.sharedRides.get m.poolId).map fun s ↦
    { poolId := m.poolId
      poolState := s.poolState
      opened := ¬ db.poolMember.Any fun o ↦
        o.poolId = m.poolId ∧ toLex (o.joinedAt, o.passengerId) < toLex (m.joinedAt, m.passengerId)
      agreedFareCents := m.agreedFareCents.or m.quotedFareCents }

/-- The exact seat a shared-create idempotency key produced. -/
def findByIdempotencyKey (db : Db) (passengerId : PassengerId) (key : String) :
    Option SeatLookup :=
  (db.poolMember.rows.find? fun m ↦ m.passengerId = passengerId ∧ m.idempotencyKey = some key).bind
    (seatSelect db)

/-- The passenger's seat in one pool. -/
def findSeat (db : Db) (poolId : PoolId) (passengerId : PassengerId) : Option SeatLookup :=
  (db.poolMember.get (poolId, passengerId)).bind (seatSelect db)

def stopRow (poolId : PoolId) (s : OfferStop) : RideStop where
  rideId := poolId
  sequenceIndex := s.sequenceIndex
  passengerId := s.passengerId
  type := s.type
  point := s.point

/-- Persist the itinerary; a stop that exists already aborts the transaction. -/
def insertItinerary (db : Db) (poolId : PoolId) : List OfferStop → Tx Unit
  | [] => .ok (db, ())
  | s :: stops =>
      let row := stopRow poolId s
      if (db.rideStops.get row.pkey).isSome then .error (.constraint .rideStopsPkey)
      else insertItinerary { db with rideStops := db.rideStops.insert row } poolId stops

/-- An itinerary writes stops. -/
theorem insertItinerary_eq_ok {db db' : Db} {poolId : PoolId} {stops : List OfferStop} {u : Unit}
    (h : insertItinerary db poolId stops = .ok (db', u)) :
    ∃ rideStops, db' = { db with rideStops } := by
  induction stops generalizing db with
  | nil =>
      obtain ⟨rfl, -⟩ := Tx.ok_inj h
      exact ⟨db.rideStops, rfl⟩
  | cons s stops ih =>
      simp only [insertItinerary] at h
      split_ifs at h
      obtain ⟨rideStops, rfl⟩ := ih h
      exact ⟨rideStops, rfl⟩

end Matching

end Rcab
