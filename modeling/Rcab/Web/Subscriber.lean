import Rcab.Lib.Run
import Rcab.Web.Socket

/-!
# The subscribers of the booking socket

`makeSubscriber` of `ws.ts`: subscribing to the followed pool or ride, and subscribing again
after a while when the server answers that it is unavailable.

The runtime keeps the timers that were set and not cleared, and the acknowledgements still to come.
-/

namespace Rcab.Web

open Realtime (Message)

/-- `SUBSCRIBE_MAX_TRIES`. -/
def subscribeMaxTries : ℕ := 5

/-- `SUBSCRIBE_BACKOFF_MS`. -/
def subscribeBackoffMs : List ℕ := [1000, 2000, 4000, 8000]

/-- `poolSub`, which emits `pool:subscribe`, and `rideSub`, which emits `ride:subscribe`. -/
inductive Subscription where
  | pool | ride
deriving DecidableEq, Repr

/-- The variables of a subscriber. -/
structure Subscriber where
  timer : Option ℕ := none
  /-- Bumps on every fresh subscribe. -/
  run : ℕ := 0
deriving DecidableEq, Repr

/-- A subscribe event, with what the callback of its acknowledgement remembers. -/
structure Emission where
  sub : Subscription
  id : Uuid
  n : ℕ
  myRun : ℕ
deriving DecidableEq, Repr

/-- A timer that was set as an emission was acknowledged. -/
structure Timeout where
  handle : ℕ
  delayMs : ℕ
  emission : Emission
deriving DecidableEq, Repr

/-- What an acknowledgement says, if anything. -/
structure Ack where
  ok : Option Bool
  reason : Option String
deriving DecidableEq, Repr

/-- `connectBookingSocket`, and what the runtime holds for it. -/
structure Client where
  gates : BookingSocket := .connect
  closed : Bool := false
  /-- `socket.connected`. -/
  connected : Bool := false
  subscribers : Subscription → Subscriber := fun _ ↦ {}
  timeouts : List Timeout := []
  /-- The timers set so far. -/
  handles : ℕ := 0
  /-- The acknowledgements to come. -/
  acks : List Emission := []
  /-- What was emitted so far. -/
  emitted : List Emission := []

namespace Client

/-- `gate.current()`. -/
def current (s : Client) : Subscription → Option Uuid
  | .pool => s.gates.poolGate.followed
  | .ride => s.gates.rideGate.followed

def setSubscriber (s : Client) (c : Subscription) (v : Subscriber) : Client :=
  { s with subscribers := Function.update s.subscribers c v }

def clear (s : Client) (c : Subscription) : Client :=
  match (s.subscribers c).timer with
  | some handle =>
      { s with timeouts := s.timeouts.filter (·.handle ≠ handle) }.setSubscriber c
        { s.subscribers c with timer := none }
  | none => s

def attempt (s : Client) (c : Subscription) (n myRun : ℕ) : Client :=
  match s.current c with
  | some id =>
      if s.closed ∨ myRun ≠ (s.subscribers c).run then s
      else { s with emitted := s.emitted ++ [⟨c, id, n, myRun⟩]
                    acks := s.acks ++ [⟨c, id, n, myRun⟩] }
  | none => s

/-- `run += 1`. -/
def bump (s : Client) (c : Subscription) : Client :=
  s.setSubscriber c { s.subscribers c with run := (s.subscribers c).run + 1 }

def now (s : Client) (c : Subscription) : Client :=
  let s := (s.clear c).bump c
  s.attempt c 1 (s.subscribers c).run

def cancel (s : Client) (c : Subscription) : Client := (s.clear c).bump c

/-- The run of the emission is over, or its id is not followed. -/
def Stale (s : Client) (e : Emission) : Prop :=
  e.myRun ≠ (s.subscribers e.sub).run ∨ s.current e.sub ≠ some e.id

instance {s : Client} : DecidablePred s.Stale := fun _ ↦ inferInstanceAs (Decidable (_ ∨ _))

def setTimeout (s : Client) (e : Emission) : Client :=
  let timeout : Timeout := ⟨s.handles, subscribeBackoffMs.getD (e.n - 1) 8000, e⟩
  { s with timeouts := s.timeouts ++ [timeout], handles := s.handles + 1 }.setSubscriber e.sub
    { s.subscribers e.sub with timer := some s.handles }

/-- The callback of an acknowledgement. -/
def onAck (s : Client) (e : Emission) (ack : Option Ack) : Client :=
  if s.closed ∨ s.Stale e then s
  else match ack with
  | none => s
  | some ack =>
      if ack.ok ≠ some false ∨ ack.reason ≠ some "unavailable" then s
      else if subscribeMaxTries ≤ e.n then s
      else (s.clear e.sub).setTimeout e

/-- The callback of a timer. -/
def onTimeout (s : Client) (e : Emission) : Client :=
  let s := s.setSubscriber e.sub { s.subscribers e.sub with timer := none }
  if s.closed ∨ ¬ s.connected ∨ s.Stale e then s else s.attempt e.sub (e.n + 1) e.myRun

def subscribePool (s : Client) (sharedRideId : PoolId) : Client :=
  let s := { s with gates := s.gates.subscribePool sharedRideId }
  if s.connected then s.now .pool else s

def subscribeRide (s : Client) (rideId : RideId) : Client :=
  let s := { s with gates := s.gates.subscribeRide rideId }
  if s.connected then s.now .ride else s

def close (s : Client) : Client :=
  { ({ s with closed := true }.cancel .pool).cancel .ride with connected := false }

end Client

/-- What happens to the socket. -/
inductive Event where
  | connect | disconnect
  | ack (e : Emission) (ack : Option Ack)
  | timer (t : Timeout)
  | subscribePool (sharedRideId : PoolId)
  | subscribeRide (rideId : RideId)
  /-- `ride:completed`. -/
  | completed (rideId : Option Uuid)
  | receive (m : Message)
  | close

/-- An emission is acknowledged at most once; a timer fires once, if it was not cleared. -/
def Event.Possible (s : Client) : Event → Prop
  | .ack e _ => e ∈ s.acks
  | .timer t => t ∈ s.timeouts
  | _ => True

/-- `close` removes the listeners. -/
def next (s : Client) : Event → Client
  | .connect =>
      let s := { s with connected := true }
      if s.closed then s else (s.now .pool).now .ride
  | .disconnect => { s with connected := false }
  | .ack e ack => { s with acks := s.acks.erase e }.onAck e ack
  | .timer t => { s with timeouts := s.timeouts.erase t }.onTimeout t.emission
  | .subscribePool sharedRideId => s.subscribePool sharedRideId
  | .subscribeRide rideId => s.subscribeRide rideId
  | .completed rideId =>
      if s.closed then s
      else if rideId.isSome ∧ rideId = s.current .pool then s.now .pool else s
  | .receive m => if s.closed then s else { s with gates := (s.gates.receive m).1 }
  | .close => s.close

/-- The system whose runs are the behaviours of one booking socket. -/
def step (s : Client) (e : Event) (s' : Client) : Prop := e.Possible s ∧ next s e = s'

/-- The event starts a series of the subscription. -/
def Event.Starts (s : Client) (c : Subscription) : Event → Prop
  | .connect => s.closed = false
  | .subscribePool _ => c = .pool ∧ s.connected
  | .subscribeRide _ => c = .ride ∧ s.connected
  | .completed rideId => c = .pool ∧ s.closed = false ∧ rideId.isSome ∧ rideId = s.current .pool
  | _ => False

end Rcab.Web
