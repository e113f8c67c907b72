import Rcab.Pools.Stops
import Rcab.Realtime.Delivery
import Rcab.Rides.Rows

/-!
# Who has to do with a trip

The passenger and the driver of a ride, and the members of a pool, stay what they are whatever is
committed (`isRideParty_exec`, `isPoolMember_exec`), and so does the driver a trip was once assigned
to (`assigned_exec`).  After a booking is committed its passenger's connections are put into the
room of the trip (`Step.joins`).
-/

universe u

namespace Rcab

open Dispatch Matching

variable {db db' : Db} {rideId : RideId} {userId : Uuid} {driverId : DriverId} {trip : TripRef}

/-! ## Assignments -/

/-- The trip is, or was, that driver's. -/
def Assigned (db : Db) (driverId : DriverId) : TripRef → Prop
  | .solo rideId => ∃ r, db.rides.get rideId = some r ∧ r.driverId = some driverId
  | .shared poolId => (db.poolView poolId).ClaimedBy driverId

theorem assigned_of_guard {g : DriverActiveAssignment} (hi : TripsInv db)
    (hg : db.driverActiveAssignment.get driverId = some g) : Assigned db driverId g.trip := by
  have hbound : Bound db driverId g.trip :=
    ⟨g, Table.mem_of_get hg, Table.key_of_get hg, rfl⟩
  have hholds := (bound_iff_holds hi.exclusive).mp hbound
  cases htrip : g.trip with
  | solo rideId =>
    rw [htrip] at hholds
    obtain ⟨r, hr, rfl, hd, -⟩ := hholds
    exact ⟨r, Table.get_of_mem hr, hd⟩
  | shared poolId =>
    rw [htrip] at hholds
    obtain ⟨s, hs, rfl, hd, -⟩ := hholds
    exact ⟨s, Table.get_of_mem hs, hd⟩

section Exec

variable {D : Type u} [LinearOrder D] {dist : Point → Point → D}

/-- The calls anyone can make. -/
def RideCalls.any : RideCalls where
  creates _ := True
  cancels _ := True

theorem Step.calls_any (e : Step) : e.Calls RideCalls.any := by
  cases e <;> trivial

/-- A ride keeps its passenger, and its driver once it has one. -/
theorem ride_exec {r : Ride} (dist : Point → Point → D) (e : Step) (hr : db.rides.get rideId = some r) :
    ∃ r', (exec dist db e).rides.get rideId = some r' ∧ r'.passengerId = r.passengerId ∧
      (r.driverId.isSome → r'.driverId = r.driverId) := by
  refine (rideRows_exec dist e.calls_any).related (R := fun r r' ↦
    r'.passengerId = r.passengerId ∧ (r.driverId.isSome → r'.driverId = r.driverId))
    (fun _ ↦ ⟨rfl, fun _ ↦ rfl⟩) ?_ ?_ hr
  · rintro r r' r'' ⟨hp, hd⟩ ⟨hp', hd'⟩
    exact ⟨hp'.trans hp, fun hs ↦ (hd' (hd hs ▸ hs)).trans (hd hs)⟩
  · intro r r' hch
    refine ⟨hch.agreed.1, fun hs ↦ ?_⟩
    cases hch with
    | claimed _ _ _ _ _ hd =>
      rw [hd] at hs
      cases hs
    | advanced event _ _ _ _ => exact Rides.advance_driverId ..
    | cancelled _ _ _ _ _ _ | noDriver _ _ | window _ _ _ => rfl

/-- A claim is never given up. -/
theorem assigned_exec (hi : PoolsInv db) (e : Step) (h : Assigned db driverId trip) :
    Assigned (exec dist db e) driverId trip := by
  cases trip with
  | solo rideId =>
    obtain ⟨r, hr, hd⟩ := h
    obtain ⟨r', hr', -, hd'⟩ := ride_exec dist e hr
    exact ⟨r', hr', (hd' (by rw [hd]; rfl)).trans hd⟩
  | shared poolId =>
    exact (poolSim_exec dist hi e).keeps (fun _ _ hst h ↦ hst.claimedBy h) poolId h

end Exec

namespace Realtime

/-! ## Parties -/

theorem isRideParty_iff :
    isRideParty db rideId userId ↔ ∃ r, db.rides.get rideId = some r ∧ Party userId r := by
  constructor
  · rintro ⟨r, hr, rfl, hp⟩
    exact ⟨r, Table.get_of_mem hr, hp⟩
  · rintro ⟨r, hr, hp⟩
    exact ⟨r, Table.mem_of_get hr, Table.key_of_get hr, hp⟩

/-- The party of a ride or the member of a pool of that name. -/
def Involved (db : Db) (userId id : Uuid) : Prop :=
  isRideParty db id userId ∨ isPoolMember db id userId

/-- Who may be in a room. -/
def MayBeIn (db : Db) (userId : Uuid) : Room → Prop
  | .ride id => Involved db userId id
  | .pool id => isPoolMember db id userId

theorem mayBeIn_of_mayFollow (h : MayFollow db userId trip) :
    ∀ room ∈ roomsOf trip, MayBeIn db userId room := by
  intro room hroom
  cases trip with
  | solo rideId =>
    obtain rfl := List.mem_singleton.mp hroom
    exact Or.inl h
  | shared poolId =>
    rcases List.mem_cons.mp hroom with rfl | hroom
    · exact h
    · obtain rfl := List.mem_singleton.mp hroom
      exact Or.inr h

section Exec

variable {D : Type u} [LinearOrder D] {dist : Point → Point → D}

theorem isRideParty_exec (e : Step) (h : isRideParty db rideId userId) :
    isRideParty (exec dist db e) rideId userId := by
  obtain ⟨r, hr, hp⟩ := isRideParty_iff.mp h
  obtain ⟨r', hr', hpass, hd⟩ := ride_exec dist e hr
  refine isRideParty_iff.mpr ⟨r', hr', hp.imp (fun hp ↦ hpass.trans hp) fun hp ↦ ?_⟩
  exact (hd (by rw [hp]; rfl)).trans hp

theorem involved_exec {id : Uuid} (hi : PoolsInv db) (e : Step) (h : Involved db userId id) :
    Involved (exec dist db e) userId id :=
  h.imp (isRideParty_exec e) fun h ↦ isPoolMember_exec hi h e

theorem mayBeIn_exec {room : Room} (hi : PoolsInv db) (e : Step) (h : MayBeIn db userId room) :
    MayBeIn (exec dist db e) userId room := by
  cases room with
  | ride id => exact involved_exec hi e h
  | pool id => exact isPoolMember_exec hi h e

theorem mayFollow_exec (hi : PoolsInv db) (e : Step) (h : MayFollow db userId trip) :
    MayFollow (exec dist db e) userId trip := by
  cases trip with
  | solo rideId => exact isRideParty_exec e h
  | shared poolId => exact isPoolMember_exec hi h e

end Exec

end Realtime

/-! ## The joins that follow a commit -/

open Realtime

section Joins

variable {D : Type u} [LinearOrder D] (dist : Point → Point → D)

/-- `joinRide` of a new booking and `joinPool` of a new seat: whose connections, and which room. -/
def Step.joins (db : Db) : Step → List (Uuid × Room)
  | .createRide t params =>
      (Rides.create t db params).result?.toList.flatMap fun r ↦
        if r.created then [(params.passengerId, .ride r.row.id)] else []
  | .openPool t p =>
      (Matching.openPool dist t db p).result?.toList.flatMap fun
        | .opened _ => [(p.passengerId, .pool p.poolId)]
        | .rejected _ => []
  | .joinPool t p =>
      (Matching.joinPool dist t db p).result?.toList.flatMap fun
        | .joined _ _ _ => [(p.joiner.passengerId, .pool p.poolId)]
        | .failed _ _ => []
  | _ => []

variable {dist} {t : TxClock}

theorem isRideParty_of_create {params : Rides.CreateRide} {r : Rides.CreatedRide}
    (h : Rides.create t db params = .ok (db', r)) (hc : r.created) :
    isRideParty db' r.row.id params.passengerId := by
  unfold Rides.create at h
  split at h
  · obtain ⟨-, rfl⟩ := Tx.ok_inj h
    cases hc
  split_ifs at h with hfree
  split at h
  · cases h
  obtain ⟨rfl, rfl⟩ := Tx.ok_inj h
  have hnone : db.rides.get params.row.id = none := by
    simpa [Rides.CreateRide.row] using hfree
  exact ⟨params.row, (Table.mem_insert hnone).mpr (Or.inr rfl), rfl, Or.inl rfl⟩

/-- A seat that was taken has its row. -/
theorem isPoolMember_of_insertMember {m : NewPoolMember} {n : ℕ}
    (h : insertMember t db m = .ok (db', .ok n)) : isPoolMember db' m.poolId m.passengerId := by
  rcases insertMember_eq_ok h with ⟨⟨_, _, hr⟩, -⟩ | ⟨pool, hpool, -, -, -, hdup, -, rfl⟩
  · cases hr
  refine isPoolMember_iff.mpr ⟨(m.row t.now).agreedFareCents, m.row t.now, ?_, rfl, rfl⟩
  rw [poolView_insertMember hpool hdup, if_pos rfl]
  exact List.mem_append_right _ List.mem_cons_self

theorem isPoolMember_of_openPool {p : OpenPoolParams} {outcome : SeatOutcome}
    (h : openPool dist t db p = .ok (db', .opened outcome)) :
    isPoolMember db' p.poolId p.passengerId := by
  rcases openPool_cases h with ⟨⟨_, hr⟩, -⟩ | ⟨db₁, at_, quote, db₂, n, _, -, h₂, -, -, rfl⟩
  · cases hr
  have hm := isPoolMember_of_insertMember h₂
  unfold isPoolMember at hm ⊢
  rw [poolMember_completeSeat]
  exact hm

theorem isPoolMember_of_joinPool {p : JoinPoolParams} {closedFull : Bool} {seatCount : ℕ}
    {quote : SeatQuote} (h : joinPool dist t db p = .ok (db', .joined closedFull seatCount quote)) :
    isPoolMember db' p.poolId p.joiner.passengerId := by
  rcases joinPool_cases h with
    ⟨⟨_, _, hr⟩, -⟩ | ⟨pool, quote', db₁, n, db₂, closed, outcome, hpool, -, -, h₁, h₂, -, -, rfl⟩
  · cases hr
  have hid : pool.rideId = p.poolId := Table.key_of_get hpool
  have hn : ∀ s, db₁.sharedRides.get pool.rideId = some s → s.seatCount ≠ 0 :=
    hid ▸ seatCount_insertMember h₁
  obtain ⟨fare, hseat⟩ := isPoolMember_iff.mp (isPoolMember_of_insertMember h₁)
  have hclosed : isPoolMember db₂ p.poolId p.joiner.passengerId := isPoolMember_iff.mpr
    ⟨fare, (poolSim_closeWhenFull h₂ hn).keeps (fun _ _ hst h ↦ hst.hasSeat h) p.poolId hseat⟩
  unfold isPoolMember at hclosed ⊢
  rw [poolMember_completeSeat]
  exact hclosed

/-- Whoever is put into a room has booked the trip. -/
theorem mayBeIn_of_joins {e : Step} {user : Uuid} {room : Room} (h : (user, room) ∈ e.joins dist db) :
    MayBeIn (exec dist db e) user room := by
  cases e with
  | createRide t params =>
    obtain ⟨r, hr, hj⟩ := List.mem_flatMap.mp h
    obtain ⟨db', hok⟩ := Tx.ok_of_result? (Option.mem_toList.mp hr)
    split_ifs at hj with hc
    · obtain ⟨rfl, rfl⟩ := Prod.mk.inj (List.mem_singleton.mp hj)
      rw [exec, hok]
      exact Or.inl (isRideParty_of_create hok hc)
    · cases hj
  | openPool t p =>
    obtain ⟨r, hr, hj⟩ := List.mem_flatMap.mp h
    obtain ⟨db', hok⟩ := Tx.ok_of_result? (Option.mem_toList.mp hr)
    cases r with
    | opened outcome =>
      obtain ⟨rfl, rfl⟩ := Prod.mk.inj (List.mem_singleton.mp hj)
      rw [exec, hok]
      exact isPoolMember_of_openPool hok
    | rejected reason => cases hj
  | joinPool t p =>
    obtain ⟨r, hr, hj⟩ := List.mem_flatMap.mp h
    obtain ⟨db', hok⟩ := Tx.ok_of_result? (Option.mem_toList.mp hr)
    cases r with
    | joined closedFull seatCount quote =>
      obtain ⟨rfl, rfl⟩ := Prod.mk.inj (List.mem_singleton.mp hj)
      rw [exec, hok]
      exact isPoolMember_of_joinPool hok
    | failed reason existing => cases hj
  | _ => cases h

end Joins

end Rcab
