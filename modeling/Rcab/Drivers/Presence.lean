import Rcab.Drivers.State
import Rcab.Lib.Run

/-!
# Presence

`drivers.service.ts` and the location handler of `realtime.gateway.ts`: going online and offline,
location packets, and the sweep that takes silent drivers offline.

Each Redis command, statement and continuation is a step of its own, and the operations of all nodes
interleave between them.  The commands of a `Promise.all` are sent in their order.  The operations
read one clock.  What a packet mirrors to the passenger's room is left out.
-/

namespace Rcab.Drivers

/-- `AUTO_OFFLINE_THRESHOLD_MS`. -/
def autoOfflineThresholdMs : Int := 60000

/-- `GEO_THROTTLE_MS`. -/
def geoThrottleMs : Int := 3000

inductive Availability where
  | online | offline
deriving DecidableEq, Repr

/-- The fields of `driver:state:<id>` that presence owns. -/
structure Presence where
  availability : Option Availability := none
  lastSeen : Option Time := none
  sessionId : Option Uuid := none
deriving DecidableEq, Repr

/-- What `goOnline` does next. -/
inductive GoingOnline where
  | selecting | stamping
  | adding (nowMs : Time)
  | setting (nowMs : Time)
  | updating
deriving DecidableEq, Repr

/-- What `goOffline` does next. -/
inductive GoingOffline where
  | removing | deleting | updating
deriving DecidableEq, Repr

/-- What the handler of a packet does next. -/
inductive Locating where
  | reading | throttling | adding | setting
deriving DecidableEq, Repr

/-- What `autoOfflineSweep` does next. -/
inductive Sweeping where
  | listing
  | stamping (keys : List DriverId)
  | reading (nowMs : Time) (keys : List DriverId)
  | takingOffline (nowMs : Time) (driverId : DriverId) (phase : GoingOffline)
      (keys : List DriverId)
deriving DecidableEq, Repr

/-- An operation some node runs. -/
inductive Op where
  | idle
  | goOnline (driverId : DriverId) (p : Point) (sessionId : Uuid) (phase : GoingOnline)
  | goOffline (driverId : DriverId) (phase : GoingOffline)
  | location (node : ℕ) (driverId : DriverId) (p : Point) (now : Time) (phase : Locating)
  | sweep (phase : Sweeping)
deriving DecidableEq, Repr

structure State where
  clock : Time
  /-- `active_drivers`. -/
  activeDrivers : DriverId → Option Point
  driverState : DriverId → Presence
  /-- `driver.current_vehicle_id`. -/
  currentVehicleId : DriverId → Option Uuid
  /-- `driver.availability`. -/
  availability : DriverId → Availability
  /-- `_geoThrottle` of each node. -/
  geoThrottle : ℕ → DriverId → Time
  ops : ℕ → Op
  /-- A `goOffline` of the driver completed, and no `goOnline` started since. -/
  offline : DriverId → Bool

/-! ## Commands -/

namespace State

def setOp (s : State) (i : ℕ) (op : Op) : State := { s with ops := Function.update s.ops i op }

def geoadd (s : State) (d : DriverId) (p : Point) : State :=
  { s with activeDrivers := Function.update s.activeDrivers d (some p) }

def zrem (s : State) (d : DriverId) : State :=
  { s with activeDrivers := Function.update s.activeDrivers d none }

def hset (s : State) (d : DriverId) (v : Presence) : State :=
  { s with driverState := Function.update s.driverState d v }

def del (s : State) (d : DriverId) : State := s.hset d {}

/-- The update of the driver's row, after which `goOffline` returns. -/
def completeOffline (s : State) (d : DriverId) : State :=
  { s with availability := Function.update s.availability d .offline
           offline := Function.update s.offline d true }

/-! ## Operations -/

/-- One step of `goOffline`, and what it does next. -/
def goOffline (s : State) (d : DriverId) : GoingOffline → State × Option GoingOffline
  | .removing => (s.zrem d, some .deleting)
  | .deleting => (s.del d, some .updating)
  | .updating => (s.completeOffline d, none)

/-- One step of `goOnline`; without a vehicle it throws. -/
def goOnline (s : State) (d : DriverId) (p : Point) (sessionId : Uuid) :
    GoingOnline → State × Option GoingOnline
  | .selecting => (s, if (s.currentVehicleId d).isSome then some .stamping else none)
  | .stamping => (s, some (.adding s.clock))
  | .adding nowMs => (s.geoadd d p, some (.setting nowMs))
  | .setting nowMs => (s.hset d ⟨some .online, some nowMs, some sessionId⟩, some .updating)
  | .updating => ({ s with availability := Function.update s.availability d .online }, none)

/-- `_geoThrottle.set` of the node. -/
def setThrottle (s : State) (node : ℕ) (d : DriverId) (now : Time) : State :=
  let throttle := Function.update (s.geoThrottle node) d now
  { s with geoThrottle := Function.update s.geoThrottle node throttle }

/-- One step of `handleDriverLocation`. -/
def location (s : State) (node : ℕ) (d : DriverId) (p : Point) (now : Time) :
    Locating → State × Option Locating
  | .reading => (s, some .throttling)
  | .throttling =>
      if now - s.geoThrottle node d < geoThrottleMs then (s, none)
      else (s.setThrottle node d now, some .adding)
  | .adding => (s.geoadd d p, some .setting)
  | .setting => (s.hset d { s.driverState d with lastSeen := some now }, none)

/-- One step of `autoOfflineSweep`, after its `KEYS`. -/
def sweep (s : State) : Sweeping → State × Option Sweeping
  | .listing => (s, none)
  | .stamping keys => (s, if keys = [] then none else some (.reading s.clock keys))
  | .reading _ [] => (s, none)
  | .reading nowMs (d :: keys) =>
      match (s.driverState d).lastSeen with
      | none => (s, some (.reading nowMs keys))
      | some lastSeen =>
          if nowMs - lastSeen < autoOfflineThresholdMs then (s, some (.reading nowMs keys))
          else (s, some (.takingOffline nowMs d .removing keys))
  | .takingOffline nowMs d phase keys =>
      let (s, phase) := s.goOffline d phase
      match phase with
      | some phase => (s, some (.takingOffline nowMs d phase keys))
      | none => (s, some (.reading nowMs keys))

/-- The next step of an operation; one that is over is idle. -/
def advance (s : State) : Op → State × Op
  | .idle => (s, .idle)
  | .goOnline d p sessionId phase =>
      let (s, phase) := s.goOnline d p sessionId phase
      (s, phase.elim .idle (.goOnline d p sessionId))
  | .goOffline d phase =>
      let (s, phase) := s.goOffline d phase
      (s, phase.elim .idle (.goOffline d))
  | .location node d p now phase =>
      let (s, phase) := s.location node d p now phase
      (s, phase.elim .idle (.location node d p now))
  | .sweep phase =>
      let (s, phase) := s.sweep phase
      (s, phase.elim .idle .sweep)

end State

/-- What happens: time passes, an operation starts, or one takes its next step. -/
inductive Event where
  | tick (ms : ℕ)
  | setCurrentVehicle (d : DriverId) (vehicleId : Uuid)
  | goOnline (i : ℕ) (d : DriverId) (p : Point) (sessionId : Uuid)
  | goOffline (i : ℕ) (d : DriverId)
  | location (i : ℕ) (node : ℕ) (d : DriverId) (p : Point)
  | sweep (i : ℕ)
  /-- `KEYS` of the sweep answers. -/
  | keys (i : ℕ) (found : List DriverId)
  | advance (i : ℕ)

/-- An operation starts under a new number; `KEYS` finds the drivers whose hash is there. -/
def Event.Possible (s : State) : Event → Prop
  | .goOnline i _ _ _ | .goOffline i _ | .location i _ _ _ | .sweep i => s.ops i = .idle
  | .keys i found => s.ops i = .sweep .listing ∧ ∀ d, s.driverState d ≠ {} → d ∈ found
  | .advance i => s.ops i ≠ .sweep .listing
  | _ => True

def next (s : State) : Event → State
  | .tick ms => { s with clock := s.clock + ms }
  | .setCurrentVehicle d vehicleId =>
      { s with currentVehicleId := Function.update s.currentVehicleId d (some vehicleId) }
  | .goOnline i d p sessionId =>
      { s with offline := Function.update s.offline d false }.setOp i
        (.goOnline d p sessionId .selecting)
  | .goOffline i d => s.setOp i (.goOffline d .removing)
  | .location i node d p => s.setOp i (.location node d p s.clock .reading)
  | .sweep i => s.setOp i (.sweep .listing)
  | .keys i found => s.setOp i (.sweep (.stamping found))
  | .advance i => (s.advance (s.ops i)).1.setOp i (s.advance (s.ops i)).2

/-- The system whose runs are the interleavings of the operations. -/
def step (s : State) (e : Event) (s' : State) : Prop := e.Possible s ∧ next s e = s'

end Rcab.Drivers
