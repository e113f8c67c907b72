import Rcab.Realtime.Parties
import Rcab.Realtime.Truth

/-!
# Nobody listens in

The gateway with everything that puts a connection into a room, and with the positions that drivers
send: a packet is passed on to the room of the ride that Redis names as the driver's, which is
written after the fact from the guards.  However commits, projections, subscriptions and packets
interleave, what a connection is sent is about a trip its user has to do with, a pool's snapshot
shows no place of another member, and a driver's position goes to the passengers of a trip that was
assigned to that driver (`sent_private`).
-/

universe u

namespace Rcab.Realtime

/-! ## The system -/

/-- `driver_location`, and whose it is. -/
structure DriverLocation where
  driverId : DriverId
  rideId : Uuid
  position : Point
  heading : ℚ
deriving DecidableEq, Repr

structure PrivateWorld where
  sys : System
  /-- The joins the server owes: a user's connections into a room. -/
  joins : List (Uuid × Room)
  /-- The trips of guards that were read, to be projected. -/
  writes : List (DriverId × TripRef)
  /-- `driver:state:<id>`, the field `current_ride_id`. -/
  currentRide : DriverId → Option Uuid
  /-- The positions that are being passed on. -/
  fanOuts : List DriverLocation
  /-- The positions each connection was sent. -/
  located : SocketId → List DriverLocation

inductive PrivateEvent where
  /-- An event of the gateway and its clients. -/
  | realtime (e : Event)
  /-- `onRideSubscribe`, which the gateway no longer asks for. -/
  | rideSubscribe (userId : Uuid) (rideId : RideId)
  /-- A driver's guard is read: after an acceptance or an assignment, or by `reconcile`. -/
  | readGuard (driverId : DriverId)
  /-- `SET_IF_PRESENT`, on a hash that is there. -/
  | project (driverId : DriverId) (trip : TripRef)
  /-- `CLEAR_IF_MATCH`. -/
  | clear (driverId : DriverId) (trip : Uuid)
  /-- The hash is deleted. -/
  | forget (driverId : DriverId)
  /-- `driver:location` of a driver who has a ride, not throttled. -/
  | location (socket : SocketId) (position : Point) (heading : ℚ)
  /-- `toRide(currentRideId, 'driver_location', …)`. -/
  | fanOut (fix : DriverLocation)

variable (net : Connections)

def PrivateEvent.Allowed (w : PrivateWorld) : PrivateEvent → Prop
  | .realtime (.enter socket room) => (net.userId socket, room) ∈ w.joins
  | .realtime e => Realtime.Allowed net w.sys e
  | .project driverId trip => (driverId, trip) ∈ w.writes
  | .fanOut fix => fix ∈ w.fanOuts
  | _ => True

instance {w : PrivateWorld} : DecidablePred (PrivateEvent.Allowed net w) := fun e ↦ by
  cases e with
  | realtime e => cases e <;> unfold PrivateEvent.Allowed <;> infer_instance
  | _ => unfold PrivateEvent.Allowed; infer_instance

/-- What the server owes after an event of the gateway. -/
def Event.joins {D : Type u} [LinearOrder D] (dist : Point → Point → D) (db : Db) :
    Event → List (Uuid × Room)
  | .commit e => e.joins dist db
  | _ => []

section Exec

variable {D : Type u} [LinearOrder D] (dist : Point → Point → D)

def PrivateWorld.next (w : PrivateWorld) : PrivateEvent → PrivateWorld
  | .realtime e =>
      { w with
        sys := Realtime.next net dist w.sys e
        joins := e.joins dist w.sys.db ++ w.joins }
  | .rideSubscribe userId rideId =>
      if isRideParty w.sys.db rideId userId then { w with joins := (userId, .ride rideId) :: w.joins }
      else w
  | .readGuard driverId =>
      { w with writes := ((w.sys.db.driverActiveAssignment.get driverId).toList.map fun g ↦
          (driverId, g.trip)) ++ w.writes }
  | .project driverId trip =>
      { w with currentRide := Function.update w.currentRide driverId (some trip.id) }
  | .clear driverId trip =>
      if w.currentRide driverId = some trip then
        { w with currentRide := Function.update w.currentRide driverId none }
      else w
  | .forget driverId => { w with currentRide := Function.update w.currentRide driverId none }
  | .location socket position heading =>
      match w.currentRide (net.userId socket) with
      | none => w
      | some rideId =>
          { w with fanOuts := ⟨net.userId socket, rideId, position, heading⟩ :: w.fanOuts }
  | .fanOut fix =>
      { w with
        fanOuts := w.fanOuts.erase fix
        located := fun socket ↦
          if w.sys.rooms.contains (socket, .ride fix.rideId) then w.located socket ++ [fix]
          else w.located socket }

/-- The system. -/
def privateStep (w : PrivateWorld) (e : PrivateEvent) (w' : PrivateWorld) : Prop :=
  e.Allowed net w ∧ w.next net dist e = w'

end Exec

/-- No trips, nobody connected, nothing owed. -/
structure PrivateWorld.Initial (w : PrivateWorld) : Prop where
  sys : w.sys.Initial
  noTrips : w.sys.db.NoTrips
  joins : w.joins = []
  writes : w.writes = []
  currentRide : ∀ d, w.currentRide d = none
  fanOuts : w.fanOuts = []
  located : ∀ socket, w.located socket = []

/-! ## Whom a message is for -/

/-- The places a snapshot shows are those of the user's own seat and stops. -/
structure OwnPlaces (db : Db) (userId : Uuid) (snap : PoolSnapshot) : Prop where
  seat : ∃ m ∈ db.poolMember, m.pkey = (snap.sharedRideId, userId) ∧
    snap.me.pickup = m.origin ∧ snap.me.dropoff = m.dest
  stops : ∀ stop ∈ snap.itinerary, ∀ p, stop.point = some p → ∃ x ∈ db.rideStops,
    x.rideId = snap.sharedRideId ∧ x.passengerId = userId ∧ x.point = p

theorem ownPlaces_of_poolSnapshot {db : Db} {poolId : PoolId} {userId : Uuid} {snap : PoolSnapshot}
    (h : poolSnapshot db poolId userId = some snap) :
    snap.sharedRideId = poolId ∧ OwnPlaces db userId snap := by
  unfold poolSnapshot at h
  split at h
  swap
  · cases h
  rename_i row m hrow hm
  obtain rfl := Option.some.inj h
  have hid : row.rideId = poolId := Table.key_of_get hrow
  refine ⟨hid, ⟨m, Table.mem_of_get hm, ?_, rfl, rfl⟩, ?_⟩
  · rw [show m.pkey = (poolId, userId) from Table.key_of_get hm, ← hid]
    rfl
  · intro stop hstop p hp
    obtain ⟨x, hx, rfl⟩ := List.mem_map.mp hstop
    unfold memberItineraryStop at hp
    dsimp only at hp
    split_ifs at hp with hmine
    have hmem : x ∈ db.rideStops.filter fun s ↦ s.rideId = poolId :=
      (List.perm_insertionSort _ _).mem_iff.mp hx
    obtain ⟨hx, hride⟩ := Table.mem_filter.mp hmem
    exact ⟨x, hx, hride.trans hid.symm, hmine, Option.some.inj hp⟩

/-- The user has to do with what the message is about, and a pool's snapshot was read for them. -/
def Message.For {D : Type u} [LinearOrder D] (dist : Point → Point → D) (db₀ db : Db)
    (userId : Uuid) : Message → Prop
  | .poolSnapshot snap => isPoolMember db snap.sharedRideId userId ∧
      ∃ db', Reachable (Rcab.step dist) db₀ db' ∧ OwnPlaces db' userId snap
  | .poolUpdate payload => isPoolMember db payload.sharedRideId userId
  | .rideSnapshot snap => isRideParty db snap.rideId userId
  | .rideStateChanged event => Involved db userId event.rideId

/-- What is said in a room is about its trip. -/
def Message.About : Room → Message → Prop
  | .pool id, .poolUpdate payload => payload.sharedRideId = id
  | .ride id, .rideStateChanged event => event.rideId = id
  | _, _ => False

section For

variable {net} {D : Type u} [LinearOrder D] {dist : Point → Point → D} {db₀ db : Db} {userId : Uuid}
  {m : Message}

theorem Message.For.exec (hi : PoolsInv db) (e : Step) (h : m.For dist db₀ db userId) :
    m.For dist db₀ (exec dist db e) userId := by
  cases m with
  | poolSnapshot snap => exact ⟨isPoolMember_exec hi h.1 e, h.2⟩
  | poolUpdate payload => exact isPoolMember_exec hi h e
  | rideSnapshot snap => exact isRideParty_exec e h
  | rideStateChanged event => exact involved_exec hi e h

/-- What is said in a room is for those who may be in it. -/
theorem for_of_about {room : Room} (ha : Message.About room m) (hr : MayBeIn db userId room) :
    m.For dist db₀ db userId := by
  cases room with
  | ride id =>
    cases m with
    | rideStateChanged event =>
      obtain rfl : event.rideId = id := ha
      exact hr
    | poolSnapshot _ | poolUpdate _ | rideSnapshot _ => exact ha.elim
  | pool id =>
    cases m with
    | poolUpdate payload =>
      obtain rfl : payload.sharedRideId = id := ha
      exact hr
    | poolSnapshot _ | rideStateChanged _ | rideSnapshot _ => exact ha.elim

/-- A snapshot is for who it was read for. -/
theorem for_of_snapshot {trip : TripRef} (hr : Reachable (Rcab.step dist) db₀ db)
    (h : snapshot db userId trip = some m) : m.For dist db₀ db userId := by
  cases trip with
  | solo rideId =>
    obtain ⟨snap, hsnap, rfl⟩ := Option.map_eq_some_iff.mp h
    unfold rideSnapshot at hsnap
    split at hsnap
    · cases hsnap
    rename_i r hget
    split_ifs at hsnap with hp
    obtain rfl := Option.some.inj hsnap
    exact ⟨r, Table.mem_of_get hget, rfl, hp⟩
  | shared poolId =>
    obtain ⟨snap, hsnap, rfl⟩ := Option.map_eq_some_iff.mp h
    obtain ⟨hid, hown⟩ := ownPlaces_of_poolSnapshot hsnap
    refine ⟨?_, db, hr, hown⟩
    obtain ⟨m, hm, hkey, -⟩ := hown.seat
    unfold isPoolMember
    rw [← hkey, Table.get_of_mem hm]
    rfl

end For

/-! ## The invariant -/

/-- The sender was assigned the ride the position is about. -/
def DriverLocation.Fair (db : Db) (fix : DriverLocation) : Prop :=
  ∃ trip : TripRef, trip.id = fix.rideId ∧ Assigned db fix.driverId trip

section Invariant

variable {D : Type u} [LinearOrder D] (dist : Point → Point → D) (db₀ : Db)

/-- The gateway's part. -/
structure SystemPrivate (s : System) : Prop where
  reachable : Reachable (Rcab.step dist) db₀ s.db
  pools : PoolsInv s.db
  trips : TripsInv s.db
  rooms : ∀ socket room, (socket, room) ∈ s.rooms → MayBeIn s.db (net.userId socket) room
  subscriptions : ∀ u ∈ s.subscriptions, MayFollow s.db (net.userId u.socket) u.trip ∧
    ∀ m, u.phase = .read m → m.For dist db₀ s.db (net.userId u.socket)
  held : ∀ room m, (room, m) ∈ s.held → Message.About room m
  sent : ∀ socket, ∀ m ∈ s.sent socket, m.For dist db₀ s.db (net.userId socket)

structure PrivateInv (w : PrivateWorld) : Prop where
  sys : SystemPrivate net dist db₀ w.sys
  joins : ∀ user room, (user, room) ∈ w.joins → MayBeIn w.sys.db user room
  writes : ∀ d trip, (d, trip) ∈ w.writes → Assigned w.sys.db d trip
  currentRide : ∀ d id, w.currentRide d = some id →
    ∃ trip : TripRef, trip.id = id ∧ Assigned w.sys.db d trip
  fanOuts : ∀ fix ∈ w.fanOuts, fix.Fair w.sys.db
  located : ∀ socket, ∀ fix ∈ w.located socket,
    Involved w.sys.db (net.userId socket) fix.rideId ∧ fix.Fair w.sys.db

variable {net dist db₀} {s : System} {w w' : PrivateWorld}

namespace SystemPrivate

theorem commit (h : SystemPrivate net dist db₀ s) (e : Step) :
    SystemPrivate net dist db₀ (next net dist s (.commit e)) where
  reachable := h.reachable.tail rfl
  pools := h.pools.step rfl
  trips := h.trips.step rfl
  rooms socket room hr := mayBeIn_exec h.pools e (h.rooms socket room hr)
  subscriptions u hu := ⟨mayFollow_exec h.pools e (h.subscriptions u hu).1,
    fun m hm ↦ ((h.subscriptions u hu).2 m hm).exec h.pools e⟩
  held room m hm := by
    rcases List.mem_append.mp hm with hm | hm
    · obtain ⟨ev, -, heq⟩ := List.mem_map.mp hm
      obtain ⟨rfl, rfl⟩ := Prod.mk.inj heq
      rfl
    · exact h.held room m hm
  sent socket m hm := (h.sent socket m hm).exec h.pools e

/-- An event off the database and the rooms. -/
theorem quiet {s' : System} (h : SystemPrivate net dist db₀ s) (hdb : s'.db = s.db)
    (hrooms : ∀ x ∈ s'.rooms, x ∈ s.rooms)
    (hsubs : ∀ u ∈ s'.subscriptions, MayFollow s.db (net.userId u.socket) u.trip ∧
      ∀ m, u.phase = .read m → m.For dist db₀ s.db (net.userId u.socket))
    (hheld : ∀ room m, (room, m) ∈ s'.held → Message.About room m)
    (hsent : ∀ socket, ∀ m ∈ s'.sent socket, m.For dist db₀ s.db (net.userId socket)) :
    SystemPrivate net dist db₀ s' where
  reachable := hdb ▸ h.reachable
  pools := hdb ▸ h.pools
  trips := hdb ▸ h.trips
  rooms socket room hr := hdb ▸ h.rooms socket room (hrooms _ hr)
  subscriptions := hdb ▸ hsubs
  held := hheld
  sent := hdb ▸ hsent

/-- A connection is put into rooms its user may be in. -/
theorem joinRooms {socket : SocketId} {rooms : List Room} (h : SystemPrivate net dist db₀ s)
    (hr : ∀ room ∈ rooms, MayBeIn s.db (net.userId socket) room) :
    SystemPrivate net dist db₀ (s.joinRooms socket rooms) where
  reachable := h.reachable
  pools := h.pools
  trips := h.trips
  rooms socket' room hx := by
    rcases List.mem_append.mp hx with hx | hx
    · obtain ⟨room', hroom, heq⟩ := List.mem_map.mp hx
      obtain ⟨rfl, rfl⟩ := Prod.mk.inj heq
      exact hr _ hroom
    · exact h.rooms socket' room hx
  subscriptions := h.subscriptions
  held := h.held
  sent := h.sent

/-- The handler of a subscription goes on, perhaps with a snapshot for its user. -/
theorem advance {u : Subscription} {phase : Phase} {since : ℕ} (h : SystemPrivate net dist db₀ s)
    (hu : u ∈ s.subscriptions)
    (hp : ∀ m, phase = .read m → m.For dist db₀ s.db (net.userId u.socket)) :
    SystemPrivate net dist db₀ (s.advance u phase since) := by
  refine h.quiet rfl (fun _ hx ↦ hx) (fun v hv ↦ ?_) h.held h.sent
  rcases List.mem_cons.mp hv with rfl | hv
  · exact ⟨(h.subscriptions u hu).1, hp⟩
  · exact h.subscriptions v (List.mem_of_mem_erase hv)

theorem step {e : Event} (h : SystemPrivate net dist db₀ s) (ha : Realtime.Allowed net s e)
    (henter : ∀ socket room, e = .enter socket room → MayBeIn s.db (net.userId socket) room) :
    SystemPrivate net dist db₀ (next net dist s e) := by
  cases e with
  | commit e => exact h.commit e
  | read p =>
    refine h.quiet rfl (fun _ hx ↦ hx) h.subscriptions (fun room m hm ↦ ?_) h.sent
    rcases List.mem_append.mp hm with hm | hm
    · obtain ⟨payload, hread, heq⟩ := List.mem_map.mp hm
      obtain ⟨rfl, rfl⟩ := Prod.mk.inj heq
      obtain ⟨row, hrow, rfl⟩ := read_eq_some (Option.mem_toList.mp hread)
      have hid : row.rideId = p.poolId := Table.key_of_get hrow
      exact hid
    · exact h.held room m hm
  | emit room m =>
    have habout := h.held room m ha
    refine h.quiet rfl (fun _ hx ↦ hx) h.subscriptions
      (fun room' m' hm ↦ h.held room' m' (List.mem_of_mem_erase hm)) fun socket m' hm ↦ ?_
    simp only [next, System.sendTo] at hm
    split_ifs at hm with hin
    · rcases List.mem_append.mp hm with hm | hm
      · exact h.sent socket m' hm
      · obtain rfl := List.mem_singleton.mp hm
        exact for_of_about habout (h.rooms socket room hin)
    · exact h.sent socket m' hm
  | enter socket room =>
    refine h.joinRooms fun room' hroom ↦ ?_
    obtain rfl := List.mem_singleton.mp hroom
    exact henter socket room' rfl
  | subscribe socket trip =>
    simp only [next]
    refine h.quiet rfl (fun _ hx ↦ hx) (fun u hu ↦ ?_) h.held h.sent
    rcases List.mem_cons.mp hu with rfl | hu
    · exact ⟨ha, fun m hm ↦ by cases hm⟩
    · exact h.subscriptions u hu
  | join u =>
    simp only [next]
    exact (h.joinRooms (mayBeIn_of_mayFollow (h.subscriptions u ha.1).1)).advance ha.1
      fun m hm ↦ by cases hm
  | readSnapshot u =>
    simp only [next]
    split
    · refine h.quiet rfl (fun x hx ↦ (List.mem_filter.mp hx).1) (fun v hv ↦ ?_) h.held h.sent
      exact h.subscriptions v (List.mem_of_mem_erase hv)
    · rename_i m hm
      refine h.advance ha.1 fun m' hp ↦ ?_
      obtain rfl := Phase.read.inj hp
      exact for_of_snapshot h.reachable hm
  | emitSnapshot u m =>
    have hfor := (h.subscriptions u ha.1).2 m ha.2
    have hsend : SystemPrivate net dist db₀ (s.send u.socket m) := by
      refine h.quiet rfl (fun _ hx ↦ hx) h.subscriptions h.held fun socket m' hm ↦ ?_
      simp only [System.send, Function.update_apply] at hm
      split_ifs at hm with hsocket
      · subst hsocket
        rcases List.mem_append.mp hm with hm | hm
        · exact h.sent _ m' hm
        · exact List.mem_singleton.mp hm ▸ hfor
      · exact h.sent socket m' hm
    simp only [next]
    exact hsend.advance ha.1 fun m hm ↦ by cases hm
  | follow app trip => exact h.quiet rfl (fun _ hx ↦ hx) h.subscriptions h.held h.sent
  | deliver socket m => exact h.quiet rfl (fun _ hx ↦ hx) h.subscriptions h.held h.sent

end SystemPrivate

/-- Events other than commits leave the database alone. -/
theorem next_keeps {P : Db → Prop} (hexec : ∀ e, P s.db → P (exec dist s.db e)) (e : Event)
    (h : P s.db) : P (next net dist s e).db := by
  cases e with
  | commit e => exact hexec e h
  | readSnapshot u =>
    simp only [next]
    split <;> exact h
  | _ => exact h

namespace PrivateInv

theorem of_initial (h : w.Initial) : PrivateInv net dist w.sys.db w where
  sys :=
    { reachable := .refl
      pools := .of_noPools h.sys.noPools
      trips := .of_noTrips h.noTrips
      rooms := by simp [h.sys.rooms]
      subscriptions := by simp [h.sys.subscriptions]
      held := by simp [h.sys.held]
      sent := by simp [h.sys.sent] }
  joins := by simp [h.joins]
  writes := by simp [h.writes]
  currentRide := by simp [h.currentRide]
  fanOuts := by simp [h.fanOuts]
  located := by simp [h.located]

/-- An event of the gateway. -/
theorem realtime {e : Event} (h : PrivateInv net dist db₀ w)
    (ha : PrivateEvent.Allowed net w (.realtime e)) :
    PrivateInv net dist db₀ (w.next net dist (.realtime e)) := by
  have hp := h.sys.pools
  have hassigned : ∀ {d trip}, Assigned w.sys.db d trip →
      Assigned (next net dist w.sys e).db d trip := by
    intro d trip hd
    exact next_keeps (P := fun db ↦ Assigned db d trip) (fun e ↦ assigned_exec hp e) e hd
  have hfair : ∀ {fix : DriverLocation}, fix.Fair w.sys.db →
      fix.Fair (next net dist w.sys e).db := fun ⟨trip, hid, hd⟩ ↦ ⟨trip, hid, hassigned hd⟩
  refine ⟨?_, fun user room hj ↦ ?_, fun d trip hw ↦ hassigned (h.writes d trip hw),
    fun d id hc ↦ ?_, fun fix hf ↦ hfair (h.fanOuts fix hf), fun socket fix hl ↦ ?_⟩
  · refine h.sys.step ?_ fun socket room he ↦ ?_
    · cases e <;> first | exact ha | trivial
    · subst he
      exact h.joins _ _ ha
  · rcases List.mem_append.mp hj with hj | hj
    · cases e with
      | commit e => exact mayBeIn_of_joins hj
      | _ => cases hj
    · exact next_keeps (P := fun db ↦ MayBeIn db user room) (fun e ↦ mayBeIn_exec hp e) e
        (h.joins user room hj)
  · obtain ⟨trip, hid, hd⟩ := h.currentRide d id hc
    exact ⟨trip, hid, hassigned hd⟩
  · obtain ⟨hinv, hf⟩ := h.located socket fix hl
    exact ⟨next_keeps (P := fun db ↦ Involved db _ _) (fun e ↦ involved_exec hp e) e hinv, hfair hf⟩

theorem step {e : PrivateEvent} (h : PrivateInv net dist db₀ w)
    (hst : privateStep net dist w e w') : PrivateInv net dist db₀ w' := by
  obtain ⟨ha, rfl⟩ := hst
  cases e with
  | realtime e => exact h.realtime ha
  | rideSubscribe userId rideId =>
    simp only [PrivateWorld.next]
    split_ifs with hparty
    · refine { h with joins := fun user room hj ↦ ?_ }
      rcases List.mem_cons.mp hj with heq | hj
      · obtain ⟨rfl, rfl⟩ := Prod.mk.inj heq
        exact Or.inl hparty
      · exact h.joins user room hj
    · exact h
  | readGuard driverId =>
    refine { h with writes := fun d trip hw ↦ ?_ }
    rcases List.mem_append.mp hw with hw | hw
    · obtain ⟨g, hg, heq⟩ := List.mem_map.mp hw
      obtain ⟨rfl, rfl⟩ := Prod.mk.inj heq
      exact assigned_of_guard h.sys.trips (Option.mem_toList.mp hg)
    · exact h.writes d trip hw
  | project driverId trip =>
    refine { h with currentRide := fun d id hc ↦ ?_ }
    simp only [PrivateWorld.next, Function.update_apply] at hc
    split_ifs at hc with hd
    · subst hd
      exact ⟨trip, Option.some.inj hc, h.writes _ _ ha⟩
    · exact h.currentRide d id hc
  | clear driverId trip =>
    simp only [PrivateWorld.next]
    split_ifs
    · refine { h with currentRide := fun d id hc ↦ ?_ }
      simp only [Function.update_apply] at hc
      split_ifs at hc
      exact h.currentRide d id hc
    · exact h
  | forget driverId =>
    refine { h with currentRide := fun d id hc ↦ ?_ }
    simp only [PrivateWorld.next, Function.update_apply] at hc
    split_ifs at hc
    exact h.currentRide d id hc
  | location socket position heading =>
    simp only [PrivateWorld.next]
    split
    · exact h
    · rename_i rideId hc
      refine { h with fanOuts := fun fix hf ↦ ?_ }
      rcases List.mem_cons.mp hf with rfl | hf
      · exact h.currentRide _ _ hc
      · exact h.fanOuts fix hf
  | fanOut fix =>
    refine { h with
      fanOuts := fun fix' hf ↦ h.fanOuts fix' (List.mem_of_mem_erase hf)
      located := fun socket fix' hl ↦ ?_ }
    simp only [PrivateWorld.next] at hl
    split_ifs at hl with hin
    · rcases List.mem_append.mp hl with hl | hl
      · exact h.located socket fix' hl
      · obtain rfl := List.mem_singleton.mp hl
        exact ⟨h.sys.rooms socket _ (List.contains_iff_mem.mp hin), h.fanOuts _ ha⟩
    · exact h.located socket fix' hl

end PrivateInv

/-- **A connection is told of trips its user has to do with, in a pool of no place but the user's
own, and of no driver but one the trip was assigned to.** -/
theorem sent_private {w₀ : PrivateWorld} (h₀ : w₀.Initial)
    (h : Reachable (privateStep net dist) w₀ w) (socket : SocketId) :
    (∀ room, (socket, room) ∈ w.sys.rooms → MayBeIn w.sys.db (net.userId socket) room) ∧
    (∀ m ∈ w.sys.sent socket, m.For dist w₀.sys.db w.sys.db (net.userId socket)) ∧
    ∀ fix ∈ w.located socket, Involved w.sys.db (net.userId socket) fix.rideId ∧
      ∃ trip : TripRef, trip.id = fix.rideId ∧ Assigned w.sys.db fix.driverId trip := by
  have hi : PrivateInv net dist w₀.sys.db w :=
    h.invariant (fun _ _ _ hi hst ↦ hi.step hst) (.of_initial h₀)
  exact ⟨hi.sys.rooms socket, hi.sys.sent socket, hi.located socket⟩

end Invariant

/-- Connection 0 is passenger 10's, the others are driver 7's. -/
def sampleNet : Connections := ⟨fun socket ↦ if socket = 0 then 10 else 7, fun socket ↦ socket⟩

def sampleSilent : PrivateWorld :=
  ⟨⟨.empty, [], [], [], [], fun _ ↦ [], fun _ ↦ .start⟩, [], [], fun _ ↦ none, [], fun _ ↦ []⟩

/-- The sample ride is booked and assigned, and its driver sends a position. -/
def sampleFollowed : List PrivateEvent :=
  [.realtime (.commit (.createRide ⟨0, 0⟩ sampleRide)), .realtime (.enter 0 (.ride 1)),
    .realtime (.commit (.claimSolo ⟨5, 5⟩ 1 7)), .readGuard 7, .project 7 (.solo 1),
    .location 1 ⟨2, 3⟩ 90, .fanOut ⟨7, 1, ⟨2, 3⟩, 90⟩]

def sampleSeen : PrivateWorld :=
  sampleFollowed.foldl (PrivateWorld.next sampleNet (D := ℕ) fun _ _ ↦ 0) sampleSilent

theorem reachable_sampleSeen :
    Reachable (privateStep sampleNet (D := ℕ) fun _ _ ↦ 0) sampleSilent sampleSeen := by
  have hok : Enabled (PrivateEvent.Allowed sampleNet)
      (PrivateWorld.next sampleNet (D := ℕ) fun _ _ ↦ 0) sampleSilent sampleFollowed := by
    decide +kernel
  exact ⟨_, Run.of_enabled _ (fun _ _ h ↦ ⟨h, rfl⟩) sampleFollowed hok⟩

theorem sampleSeen_assigned : ∃ fix ∈ sampleSeen.located 0, ∃ trip : TripRef,
    trip.id = fix.rideId ∧ Assigned sampleSeen.sys.db fix.driverId trip := by
  have h : (⟨7, 1, ⟨2, 3⟩, 90⟩ : DriverLocation) ∈ sampleSeen.located 0 := by decide +kernel
  exact ⟨_, h, ((sent_private ⟨⟨⟨Table.notMem_empty, Table.notMem_empty, Table.notMem_empty⟩, rfl,
    rfl, rfl, rfl, fun _ ↦ rfl, fun _ ↦ rfl⟩, Db.empty_noTrips, rfl, rfl, fun _ ↦ rfl, rfl,
    fun _ ↦ rfl⟩ reachable_sampleSeen 0).2.2 _ h).2⟩

end Rcab.Realtime
