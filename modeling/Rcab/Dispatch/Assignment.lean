import Rcab.Dispatch.Offer

/-!
# The assignment repository

`assignment.repository.ts`: the exclusivity guard and the claim statements of both
trip tables.  `UPDATE shared_rides` carries two triggers of migration 0016
(`updatePool`): every update bumps `state_version`, and one that moves the pool to
a terminal state releases its members.
-/

namespace Rcab

/-- The row at a version. -/
def SharedRide.withVersion (s : SharedRide) (version : Nat) : SharedRide :=
  { s with stateVersion := version }

@[simp] theorem SharedRide.withVersion_rideId (s : SharedRide) (n : Nat) :
    (s.withVersion n).rideId = s.rideId := rfl

@[simp] theorem SharedRide.withVersion_poolState (s : SharedRide) (n : Nat) :
    (s.withVersion n).poolState = s.poolState := rfl

@[simp] theorem SharedRide.withVersion_claimedByDriverId (s : SharedRide) (n : Nat) :
    (s.withVersion n).claimedByDriverId = s.claimedByDriverId := rfl

@[simp] theorem SharedRide.withVersion_dispatchGeneration (s : SharedRide) (n : Nat) :
    (s.withVersion n).dispatchGeneration = s.dispatchGeneration := rfl

/-- `SET claimed_by_driver_id = driverId, claimed_at = now()`. -/
def SharedRide.claim (driverId : DriverId) (now : Time) (s : SharedRide) : SharedRide :=
  { s with claimedByDriverId := some driverId, claimedAt := some now }

@[simp] theorem SharedRide.claim_rideId (driverId : DriverId) (now : Time) (s : SharedRide) :
    (s.claim driverId now).rideId = s.rideId := rfl

/-- `SET pool_state = 'aborted'`. -/
def SharedRide.abort (s : SharedRide) : SharedRide := { s with poolState := .aborted }

@[simp] theorem SharedRide.abort_rideId (s : SharedRide) : s.abort.rideId = s.rideId := rfl

@[simp] theorem SharedRide.abort_poolState (s : SharedRide) : s.abort.poolState = .aborted := rfl

/-- `SET active = false, left_at = now()`. -/
def PoolMember.release (now : Time) (m : PoolMember) : PoolMember :=
  { m with active := false, leftAt := some now }

@[simp] theorem PoolMember.release_pkey (now : Time) (m : PoolMember) :
    (m.release now).pkey = m.pkey := rfl

/-- The members `shared_rides_release_members` releases when `f` is applied to the pool:
the active ones, if the pool moves to a terminal state. -/
def Db.Releases (db : Db) (poolId : PoolId) (f : SharedRide → SharedRide) (m : PoolMember) : Prop :=
  m.poolId = poolId ∧ m.active ∧ db.sharedRides.Any fun s ↦
    s.rideId = poolId ∧ (f s).poolState.Terminal ∧ s.poolState ≠ (f s).poolState

instance {db : Db} {poolId : PoolId} {f : SharedRide → SharedRide} :
    DecidablePred (db.Releases poolId f) := fun m ↦
  inferInstanceAs (Decidable (m.poolId = poolId ∧ m.active ∧ db.sharedRides.Any _))

/-- `UPDATE shared_rides SET f WHERE ride_id = poolId` with the triggers
`shared_rides_bump_state_version` and `shared_rides_release_members`. -/
def Db.updatePool (db : Db) (now : Time) (poolId : PoolId) (f : SharedRide → SharedRide)
    (hf : ∀ s, (f s).rideId = s.rideId := by intro; rfl) : Db :=
  { db with
    sharedRides := db.sharedRides.update (fun s ↦ s.rideId = poolId)
      (fun s ↦ (f s).withVersion (s.stateVersion + 1)) (fun s ↦ by simp [hf])
    poolMember := db.poolMember.update (db.Releases poolId f) (PoolMember.release now)
      (PoolMember.release_pkey now) }

namespace Db

variable {db : Db} {now : Time} {poolId : PoolId} {f : SharedRide → SharedRide}
  {hf : ∀ s, (f s).rideId = s.rideId}

theorem mem_sharedRides_updatePool {s : SharedRide} :
    s ∈ (db.updatePool now poolId f hf).sharedRides ↔ ∃ s₀ ∈ db.sharedRides,
      (if s₀.rideId = poolId then (f s₀).withVersion (s₀.stateVersion + 1) else s₀) = s :=
  List.mem_map

theorem mem_poolMember_updatePool {m : PoolMember} :
    m ∈ (db.updatePool now poolId f hf).poolMember ↔ ∃ m₀ ∈ db.poolMember,
      (if db.Releases poolId f m₀ then m₀.release now else m₀) = m :=
  List.mem_map

theorem get_sharedRides_updatePool {s : SharedRide} (h : db.sharedRides.get poolId = some s) :
    (db.updatePool now poolId f hf).sharedRides.get poolId =
      some ((f s).withVersion (s.stateVersion + 1)) := by
  have hk : s.rideId = poolId := Table.key_of_get h
  simp [updatePool, h, hk]

end Db

namespace Dispatch

structure Acquire where
  driverId : DriverId
  trip : TripRef
  offerId : Option OfferId
  generation : Nat
deriving DecidableEq, Repr

inductive AcquireResult where
  | ok
  | driverBusy
  | tripTaken
deriving DecidableEq, Repr

def Acquire.row (p : Acquire) (now : Time) : DriverActiveAssignment where
  driverId := p.driverId
  trip := p.trip
  offerId := p.offerId
  dispatchGeneration := p.generation
  assignedAt := now

/-- Insert the guard row; the three expected unique violations are typed, any other
error propagates. -/
def acquire (t : TxClock) (db : Db) (p : Acquire) : Tx AcquireResult :=
  if p.generation < 1 then .error (.constraint .assignmentGeneration)
  else if (db.driverActiveAssignment.get p.driverId).isSome then .ok (db, .driverBusy)
  else if db.driverActiveAssignment.Any fun a ↦ a.trip = p.trip then .ok (db, .tripTaken)
  else if db.driverActiveAssignment.Any fun a ↦ a.offerId.isSome ∧ a.offerId = p.offerId then
    .error (.constraint .assignmentOfferId)
  else .ok ({ db with
    driverActiveAssignment := db.driverActiveAssignment.insert (p.row t.now) }, .ok)

/-- A guard is taken only by a free driver, and nothing else changes. -/
theorem acquire_eq_ok {t : TxClock} {db db' : Db} {p : Acquire} {r : AcquireResult}
    (h : acquire t db p = .ok (db', r)) :
    (r ≠ .ok ∧ db' = db) ∨ r = .ok ∧ db.driverActiveAssignment.get p.driverId = none ∧
      db' = { db with
        driverActiveAssignment := db.driverActiveAssignment.insert (p.row t.now) } := by
  unfold acquire at h
  split_ifs at h with hg hb ht ho
  · obtain ⟨rfl, rfl⟩ := Tx.ok_inj h
    exact Or.inl ⟨by simp, rfl⟩
  · obtain ⟨rfl, rfl⟩ := Tx.ok_inj h
    exact Or.inl ⟨by simp, rfl⟩
  · obtain ⟨rfl, rfl⟩ := Tx.ok_inj h
    exact Or.inr ⟨rfl, by simpa using hb, rfl⟩

/-- Delete the guard only when it binds this driver to this trip. -/
def release (db : Db) (driverId : DriverId) (trip : TripRef) : Db × Bool :=
  ({ db with driverActiveAssignment := db.driverActiveAssignment.delete fun a ↦
      a.driverId = driverId ∧ a.trip = trip },
    (db.driverActiveAssignment.Any fun a ↦ a.driverId = driverId ∧ a.trip = trip : Bool))

def findByTrip (db : Db) (trip : TripRef) : Option DriverActiveAssignment :=
  db.driverActiveAssignment.rows.find? fun a ↦ a.trip = trip

def lockSoloTrip (db : Db) (rideId : RideId) : Option Ride := db.rides.get rideId

def lockSharedTrip (db : Db) (poolId : PoolId) : Option SharedRide := db.sharedRides.get poolId

/-- `requested → accepted` for the driver; no matching row is a bug and throws. -/
def claimSoloRow (t : TxClock) (db : Db) (rideId : RideId) (driverId : DriverId)
    (generation : Nat) : Tx Unit :=
  let claimable (r : Ride) : Prop := r.id = rideId ∧ r.status = .requested ∧ r.driverId = none
  if db.rides.Any claimable then
    .ok ({ db with rides := db.rides.update claimable fun r ↦
      { r with
        status := .accepted
        driverId := some driverId
        acceptedAt := some t.now
        dispatchGeneration := max r.dispatchGeneration generation } }, ())
  else .error (.thrown s!"claimSoloRow: ride {rideId} is not claimable")

/-- The pools an unclaimed claim or abort at this generation matches. -/
def Unclaimed (poolId : PoolId) (generation : Nat) (s : SharedRide) : Prop :=
  s.rideId = poolId ∧ s.claimedByDriverId = none ∧ s.poolState.Claimable ∧
    s.dispatchGeneration = generation

instance {poolId : PoolId} {generation : Nat} : DecidablePred (Unclaimed poolId generation) :=
  fun s ↦ inferInstanceAs (Decidable (s.rideId = poolId ∧ s.claimedByDriverId = none ∧
    s.poolState.Claimable ∧ s.dispatchGeneration = generation))

def claimSharedRow (t : TxClock) (db : Db) (poolId : PoolId) (driverId : DriverId)
    (generation : Nat) : Tx Unit :=
  if db.sharedRides.Any (Unclaimed poolId generation) then
    .ok (db.updatePool t.now poolId (SharedRide.claim driverId t.now)
      (SharedRide.claim_rideId driverId t.now), ())
  else .error (.thrown s!"claimSharedRow: pool {poolId} is not claimable")

/-- Bind the trip, in whichever table it is. -/
def claimRow (t : TxClock) (db : Db) (trip : TripRef) (driverId : DriverId) (generation : Nat) :
    Tx Unit :=
  match trip with
  | .solo rideId => claimSoloRow t db rideId driverId generation
  | .shared poolId => claimSharedRow t db poolId driverId generation

/-- Hard-fail of an unclaimed, dispatched pool at this generation. -/
def abortUnclaimedPool (t : TxClock) (db : Db) (poolId : PoolId) (generation : Nat) : Db × Bool :=
  if db.sharedRides.Any (Unclaimed poolId generation) then
    (db.updatePool t.now poolId SharedRide.abort SharedRide.abort_rideId, true)
  else (db, false)

/-! ## Eligibility -/

inductive UserStatus where
  | active | suspended | deleted
deriving DecidableEq, Repr

inductive UserRole where
  | client | driver
deriving DecidableEq, Repr

/-- What `app_user` and `driver` say of an account. -/
structure Account where
  id : Uuid
  status : UserStatus
  role : UserRole
  /-- The account has a `driver` row. -/
  hasDriverRow : Bool
deriving DecidableEq, Repr

structure Vehicle where
  driverId : DriverId
  seats : Nat
  active : Bool
deriving DecidableEq, Repr

/-- The account and vehicle tables at the instant of a decision. -/
structure Accounts where
  users : List Account
  vehicles : List Vehicle
deriving DecidableEq, Repr

inductive DriverEligibility where
  | ok | driverIneligible | vehicleCapacity
deriving DecidableEq, Repr

/-- An active driver account with a driver row, and an active vehicle that seats
the trip. -/
def driverEligibility (accounts : Accounts) (driverId : DriverId) (seatsNeeded : Nat) :
    DriverEligibility :=
  match accounts.users.find? fun u ↦ u.id = driverId with
  | none => .driverIneligible
  | some u =>
      if ¬ (u.status = .active ∧ u.role = .driver ∧ u.hasDriverRow) then .driverIneligible
      else
        let seats := (accounts.vehicles.filter fun v ↦ v.driverId = driverId ∧ v.active).map
          Vehicle.seats
        if seatsNeeded ≤ (seats.max?).getD 0 then .ok else .vehicleCapacity

end Dispatch

end Rcab
