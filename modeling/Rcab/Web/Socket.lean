import Mathlib.Order.WithBot
import Rcab.Lib.Gate
import Rcab.Realtime.Protocol

/-!
# The web client's booking socket

`ws.ts`: the gates that order what the server emits, and the listeners behind them.  A version
on the wire may be missing; `NEGATIVE_INFINITY` is `⊥`.
-/

namespace Rcab.Web

open Realtime (Message PoolSnapshot PoolUpdatePayload RideSnapshot RideStateChanged)

/-- `RIDE_STATUS_RANK`, which mirrors the api's. -/
def rideStatusRank : List (String × ℕ) :=
  [("requested", 1), ("dispatching", 2), ("accepted", 3), ("en_route", 4), ("arrived", 5),
    ("in_progress", 6), ("completed", 10), ("cancelled", 10), ("no_driver", 10), ("no_show", 10)]

def rideStatusVersion (status : String) : ℕ := (rideStatusRank.lookup status).getD 0

/-- The two tables agree. -/
theorem rideStatusVersion_eq : rideStatusVersion = Realtime.rideStatusVersion := rfl

/-! ## Version gates -/

/-- `createVersionGate`. -/
structure VersionGate where
  followed : Option Uuid
  applied : WithBot ℕ
deriving DecidableEq

namespace VersionGate

def create : VersionGate := ⟨none, ⊥⟩

/-- Follow a new aggregate, forgetting the previous one's version. -/
def follow (g : VersionGate) (id : Uuid) : VersionGate :=
  if some id = g.followed then g else ⟨some id, ⊥⟩

def snapshot (g : VersionGate) (id : Uuid) (version : Option ℕ) : VersionGate × Bool :=
  match version with
  | none => (g, false)
  | some version =>
      if some id ≠ g.followed ∨ WithBot.some version < g.applied then (g, false)
      else ({ g with applied := WithBot.some version }, true)

def event (g : VersionGate) (id : Uuid) (version : Option ℕ) : VersionGate × Bool :=
  if some id ≠ g.followed then (g, false)
  else match version with
  -- Unversioned: cannot be ordered, pass it through.
  | none => (g, true)
  | some version =>
      if WithBot.some version ≤ g.applied then (g, false)
      else ({ g with applied := WithBot.some version }, true)

end VersionGate

/-! ## The booking socket -/

/-- `connectBookingSocket`, less its subscribers. -/
structure BookingSocket where
  poolGate : VersionGate
  rideGate : VersionGate
deriving DecidableEq

/-- What a listener hands to the app's handlers. -/
inductive Handed where
  | pool (payload : PoolUpdatePayload)
  | ride (event : RideStateChanged)
deriving DecidableEq

namespace BookingSocket

def connect : BookingSocket := ⟨.create, .create⟩

def subscribePool (s : BookingSocket) (sharedRideId : PoolId) : BookingSocket :=
  { s with poolGate := s.poolGate.follow sharedRideId }

def subscribeRide (s : BookingSocket) (rideId : RideId) : BookingSocket :=
  { s with rideGate := s.rideGate.follow rideId }

/-- `asEvent`. -/
def asEvent (snap : RideSnapshot) : RideStateChanged where
  rideId := snap.rideId
  state := snap.status
  actor := "snapshot"
  version := some snap.version

/-- The listener of a server event; what it hands on, if anything. -/
def receive (s : BookingSocket) : Message → BookingSocket × Option Handed
  | .poolSnapshot snap =>
      let (gate, passed) := s.poolGate.snapshot snap.sharedRideId (some snap.version)
      ({ s with poolGate := gate },
        if passed then some (.pool snap.toPoolUpdatePayload) else none)
  | .poolUpdate update =>
      let (gate, passed) := s.poolGate.event update.sharedRideId (some update.version)
      ({ s with poolGate := gate }, if passed then some (.pool update) else none)
  | .rideSnapshot snap =>
      let (gate, passed) := s.rideGate.snapshot snap.rideId (some snap.version)
      ({ s with rideGate := gate }, if passed then some (.ride (asEvent snap)) else none)
  | .rideStateChanged ev =>
      let version := ev.version.getD (rideStatusVersion ev.state)
      let (gate, passed) := s.rideGate.event ev.rideId (some version)
      ({ s with rideGate := gate }, if passed then some (.ride ev) else none)

end BookingSocket

end Rcab.Web
