import Rcab.Db.Schema

/-!
# The realtime protocol

`realtime.protocol.ts`: the payloads, and the versions by which a client orders them.  The
version of a solo ride is the rank of its status; that of a pool is its `state_version`.
-/

namespace Rcab

/-- The values of `rides.status`. -/
def RideStatus.text : RideStatus → String
  | .requested => "requested"
  | .dispatching => "dispatching"
  | .accepted => "accepted"
  | .enRoute => "en_route"
  | .arrived => "arrived"
  | .inProgress => "in_progress"
  | .completed => "completed"
  | .cancelled => "cancelled"
  | .noDriver => "no_driver"
  | .noShow => "no_show"

namespace Realtime

/-! ## Solo rides -/

/-- `RIDE_STATUS_RANK`. -/
def rideStatusRank : List (String × ℕ) :=
  [("requested", 1), ("dispatching", 2), ("accepted", 3), ("en_route", 4), ("arrived", 5),
    ("in_progress", 6), ("completed", 10), ("cancelled", 10), ("no_driver", 10), ("no_show", 10)]

/-- `TERMINAL_RIDE_STATUSES`. -/
def terminalRideStatuses : List String := ["completed", "cancelled", "no_driver", "no_show"]

/-- Monotonic version of a solo ride's status (0 for an unknown status). -/
def rideStatusVersion (status : String) : ℕ := (rideStatusRank.lookup status).getD 0

/-- `ride_state_changed`; some emitters leave the version out. -/
structure RideStateChanged where
  rideId : RideId
  state : String
  /-- Who changed it. -/
  actor : String
  version : Option ℕ
deriving DecidableEq, Repr

/-- `ride:snapshot`, less the vehicle. -/
structure RideSnapshot where
  rideId : RideId
  version : ℕ
  status : String
  terminal : Bool
  driverId : Option DriverId
  pickup : Point
  dropoff : Point
  fareCents : Int
deriving DecidableEq, Repr

/-! ## Pools -/

/-- `TERMINAL_POOL_STATES`: the states after which a pool is over. -/
def terminalPoolState (state : PoolState) : Bool := state.Terminal

/-- `pool:update`. -/
structure PoolUpdatePayload where
  sharedRideId : PoolId
  version : ℕ
  seatCount : ℕ
  maxSeats : ℕ
  poolStatus : PoolState
  terminal : Bool
  /-- The committed claim. -/
  driverId : Option DriverId
deriving DecidableEq, Repr

def poolUpdatePayload (row : SharedRide) : PoolUpdatePayload where
  sharedRideId := row.rideId
  version := row.stateVersion
  seatCount := row.seatCount
  maxSeats := row.maxSeats
  poolStatus := row.poolState
  terminal := terminalPoolState row.poolState
  driverId := row.claimedByDriverId

/-- One stop of the pool as one member sees it. -/
structure MemberItineraryStop where
  sequenceIndex : ℕ
  type : StopType
  mine : Bool
  confirmed : Bool
  /-- Only for the caller's own stops. -/
  point : Option Point
deriving DecidableEq, Repr

/-- The caller's own seat. -/
structure MemberView where
  active : Bool
  quotedFareCents : Option Int
  pickup : Point
  dropoff : Point
deriving DecidableEq, Repr

/-- `pool:snapshot`, less the vehicle. -/
structure PoolSnapshot extends PoolUpdatePayload where
  completedAt : Option Time
  me : MemberView
  itinerary : List MemberItineraryStop
deriving DecidableEq, Repr

/-! ## Messages -/

/-- What the server emits to those who follow a ride or a pool. -/
inductive Message where
  | poolSnapshot (snapshot : PoolSnapshot)
  | poolUpdate (payload : PoolUpdatePayload)
  | rideSnapshot (snapshot : RideSnapshot)
  | rideStateChanged (event : RideStateChanged)
deriving DecidableEq, Repr

/-- The pool a message is about, as it shows it. -/
def Message.pool? : Message → Option PoolUpdatePayload
  | .poolSnapshot snapshot => some snapshot.toPoolUpdatePayload
  | .poolUpdate payload => some payload
  | _ => none

end Realtime

end Rcab
