import Rcab.Lib.Run
import Rcab.Pools.Simulation
import Rcab.Realtime.Snapshots
import Rcab.Realtime.Publish
import Rcab.Web.App

/-!
# The gateway and its clients

The server commits the trips' transactions, publishes what they changed and serves those who
subscribe; the network delivers what a connection was sent, late, again or never, in any order;
the apps listen.  A handler or a publication is interrupted wherever it awaits.
-/

universe u

namespace Rcab.Realtime

open Web (App)

abbrev SocketId := ℕ
abbrev AppId := ℕ

/-- Whose connection it is, and which app holds it; an app that reconnects has another one. -/
structure Connections where
  userId : SocketId → Uuid
  app : SocketId → AppId

inductive Room where
  | pool (poolId : PoolId)
  | ride (rideId : Uuid)
deriving DecidableEq, Repr

/-- The rooms a subscription joins. -/
def roomsOf : TripRef → List Room
  | .solo rideId => [.ride rideId]
  | .shared poolId => [.pool poolId, .ride poolId]

/-- The pre-join check of a subscription. -/
def MayFollow (db : Db) (userId : Uuid) : TripRef → Prop
  | .solo rideId => isRideParty db rideId userId
  | .shared poolId => isPoolMember db poolId userId

instance {db : Db} {userId : Uuid} : DecidablePred (MayFollow db userId)
  | .solo _ => inferInstanceAs (Decidable (isRideParty ..))
  | .shared _ => inferInstanceAs (Decidable (isPoolMember ..))

/-- The snapshot a subscription answers with. -/
def snapshot (db : Db) (userId : Uuid) : TripRef → Option Message
  | .solo rideId => (rideSnapshot db rideId userId).map .rideSnapshot
  | .shared poolId => (poolSnapshot db poolId userId).map .poolSnapshot

/-- How far the handler of a subscription is. -/
inductive Phase where
  | allowed
  | joined
  | read (snapshot : Message)
  | emitted
deriving DecidableEq

/-- `handleRideSubscribe` or `handlePoolSubscribe`, at work. -/
structure Subscription where
  socket : SocketId
  trip : TripRef
  phase : Phase
  /-- How much the socket had been sent when it joined the rooms. -/
  since : ℕ
deriving DecidableEq

structure System where
  db : Db
  /-- The publications that have not read their pool yet. -/
  owed : List PoolPublication
  /-- The emissions to rooms that have not happened yet. -/
  held : List (Room × Message)
  rooms : List (SocketId × Room)
  subscriptions : List Subscription
  /-- What each connection was sent, in order. -/
  sent : SocketId → List Message
  apps : AppId → App

inductive Event where
  /-- A transaction ends; what follows a commit is owed. -/
  | commit (e : Step)
  /-- A publication reads its pool. -/
  | read (p : PoolPublication)
  /-- An emission reaches who is in the room. -/
  | emit (room : Room) (m : Message)
  /-- The server puts a connection into a room: `joinRide`, `joinPool`. -/
  | enter (socket : SocketId) (room : Room)
  /-- A subscription arrives and is allowed. -/
  | subscribe (socket : SocketId) (trip : TripRef)
  | join (u : Subscription)
  | readSnapshot (u : Subscription)
  | emitSnapshot (u : Subscription) (m : Message)
  /-- The app follows a ride or a pool. -/
  | follow (app : AppId) (trip : TripRef)
  | deliver (socket : SocketId) (m : Message)

variable (net : Connections)

def Allowed (s : System) : Event → Prop
  | .commit _ => True
  | .read p => p ∈ s.owed
  | .emit room m => (room, m) ∈ s.held
  | .enter _ _ => True
  | .subscribe socket trip => MayFollow s.db (net.userId socket) trip
  | .join u => u ∈ s.subscriptions ∧ u.phase = .allowed
  | .readSnapshot u => u ∈ s.subscriptions ∧ u.phase = .joined
  | .emitSnapshot u m => u ∈ s.subscriptions ∧ u.phase = .read m
  | .follow _ _ => True
  | .deliver socket m => m ∈ s.sent socket

instance {net : Connections} {s : System} : DecidablePred (Allowed net s)
  | .commit _ | .enter _ _ | .follow _ _ => inferInstanceAs (Decidable True)
  | .read p => inferInstanceAs (Decidable (p ∈ s.owed))
  | .emit room m => inferInstanceAs (Decidable ((room, m) ∈ s.held))
  | .subscribe socket trip => inferInstanceAs (Decidable (MayFollow s.db (net.userId socket) trip))
  | .join u => inferInstanceAs (Decidable (u ∈ s.subscriptions ∧ u.phase = .allowed))
  | .readSnapshot u => inferInstanceAs (Decidable (u ∈ s.subscriptions ∧ u.phase = .joined))
  | .emitSnapshot u m => inferInstanceAs (Decidable (u ∈ s.subscriptions ∧ u.phase = .read m))
  | .deliver socket m => inferInstanceAs (Decidable (m ∈ s.sent socket))

namespace System

variable (s : System)

/-- The handler of a subscription goes on. -/
def advance (u : Subscription) (phase : Phase) (since : ℕ) : System :=
  { s with subscriptions := { u with phase, since } :: s.subscriptions.erase u }

/-- `client.join`. -/
def joinRooms (socket : SocketId) (rooms : List Room) : System :=
  { s with rooms := rooms.map (fun room ↦ (socket, room)) ++ s.rooms }

/-- `client.leave`. -/
def leaveRooms (socket : SocketId) (rooms : List Room) : System :=
  { s with rooms := s.rooms.filter fun x ↦ x.1 ≠ socket ∨ x.2 ∉ rooms }

/-- `io.to(room).emit`. -/
def sendTo (room : Room) (m : Message) : System :=
  { s with sent := fun socket ↦
      if (socket, room) ∈ s.rooms then s.sent socket ++ [m] else s.sent socket }

/-- `client.emit`. -/
def send (socket : SocketId) (m : Message) : System :=
  { s with sent := Function.update s.sent socket (s.sent socket ++ [m]) }

def updateApp (app : AppId) (f : App → App) : System :=
  { s with apps := Function.update s.apps app (f (s.apps app)) }

end System

section Exec

variable {D : Type u} [LinearOrder D] (dist : Point → Point → D)

/-- The system after an event. -/
def next (s : System) : Event → System
  | .commit e =>
      { s with
        db := exec dist s.db e
        owed := e.publications dist s.db ++ s.owed
        held := (e.rideEvents s.db).map (fun ev ↦ (.ride ev.rideId, .rideStateChanged ev)) ++ s.held }
  | .read p =>
      { s with
        owed := s.owed.erase p
        held := (p.read s.db).toList.map (fun payload ↦ (.pool p.poolId, .poolUpdate payload)) ++
          s.held }
  | .emit room m => { s with held := s.held.erase (room, m) }.sendTo room m
  | .enter socket room => s.joinRooms socket [room]
  | .subscribe socket trip =>
      { s with subscriptions := ⟨socket, trip, .allowed, 0⟩ :: s.subscriptions }
  | .join u => (s.joinRooms u.socket (roomsOf u.trip)).advance u .joined (s.sent u.socket).length
  | .readSnapshot u =>
      match snapshot s.db (net.userId u.socket) u.trip with
      | none =>
          { s with subscriptions := s.subscriptions.erase u }.leaveRooms u.socket (roomsOf u.trip)
      | some m => s.advance u (.read m) u.since
  | .emitSnapshot u m => (s.send u.socket m).advance u .emitted u.since
  | .follow app trip => s.updateApp app fun a ↦ a.follow trip
  | .deliver socket m => s.updateApp (net.app socket) fun a ↦ a.receive m

def step (s : System) (e : Event) (s' : System) : Prop := Allowed net s e ∧ next net dist s e = s'

variable {net dist} in
theorem step_next (s : System) (e : Event) (h : Allowed net s e) :
    step net dist s e (next net dist s e) := ⟨h, rfl⟩

end Exec

/-- No pools yet, nobody connected and nothing said; there may be rides. -/
structure System.Initial (s : System) : Prop where
  noPools : s.db.NoPools
  owed : s.owed = []
  held : s.held = []
  rooms : s.rooms = []
  subscriptions : s.subscriptions = []
  sent : ∀ socket, s.sent socket = []
  apps : ∀ app, s.apps app = .start

end Rcab.Realtime
