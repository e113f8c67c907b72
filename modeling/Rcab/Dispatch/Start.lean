import Rcab.Dispatch.Accept
import Rcab.Matching.RideStop
import Rcab.Outbox.Reconciler

/-!
# Starting a dispatch

`dispatch-start.service.ts` and the waves of `dispatch.service.ts`: the start job of a trip's
generation offers the trip to the nearest eligible drivers and arms its two timers.  Each
offer commits on its own; what throws leaves the offers before it, and the job is retried.

What `GEORADIUS` answers is a parameter.  The notices to the drivers are left out.
-/

namespace Rcab.Dispatch

open Outbox (Backend Queue ScheduledDispatchWindow)

/-- `OFFER_TTL_MS`. -/
def offerTtlMs : Int := 12000

/-- `CANDIDATE_HEADROOM`. -/
def candidateHeadroom : Nat := 4

structure DispatchParams where
  k1 : Nat
  k2 : Nat
  r1Meters : ℚ
  r2Meters : ℚ
  waveOneTimeoutMs : Int
  hardFailMs : Int
  scheduled : ScheduledDispatchWindow

/-- A member of `active_drivers`: the id of a driver, in its canonical form, or a text that is no
uuid. -/
inductive GeoMember where
  | driver (id : DriverId)
  | other (text : String)
deriving DecidableEq, Repr

/-- What `isUuid` lets through. -/
def GeoMember.uuid : GeoMember → Option DriverId
  | .driver id => some id
  | .other _ => none

/-- What one `createOffer` of a wave runs with. -/
structure OfferCall where
  t : TxClock
  newId : OfferId
  locked : List OfferId

/-- What a wave runs with. -/
structure WaveEnv where
  params : DispatchParams
  accounts : Accounts
  /-- The `active_drivers` within so many metres of a point, nearest first, at most so many. -/
  georadius : Point → ℚ → Nat → List GeoMember
  /-- The database's clock as the candidates are filtered. -/
  clock : Time
  call : DriverId → OfferCall

/-! ## Candidates -/

def offeredDriverIds (db : Db) (trip : TripRef) (generation : Nat) : List DriverId :=
  (db.dispatchOffer.filter fun o ↦ o.trip = trip ∧ o.dispatchGeneration = generation).map
    DispatchOffer.driverId

/-- An active driver with a vehicle for the trip, who is neither bound nor being asked. -/
def Eligible (clock : Time) (db : Db) (accounts : Accounts) (seatsNeeded : Nat)
    (driverId : DriverId) : Prop :=
  (∃ u ∈ accounts.users, u.id = driverId ∧ u.status = .active ∧ u.role = .driver ∧
    u.hasDriverRow) ∧
  db.driverActiveAssignment.get driverId = none ∧
  ¬ (db.dispatchOffer.Any fun o ↦ o.driverId = driverId ∧ Live o ∧ clock < o.expiresAt) ∧
  ∃ v ∈ accounts.vehicles, v.driverId = driverId ∧ v.active ∧ seatsNeeded ≤ v.seats

instance {clock : Time} {db : Db} {accounts : Accounts} {seatsNeeded : Nat} :
    DecidablePred (Eligible clock db accounts seatsNeeded) := fun _ ↦
  inferInstanceAs (Decidable (_ ∧ _))

def eligibleCandidates (clock : Time) (db : Db) (accounts : Accounts)
    (candidateIds : List GeoMember) (seatsNeeded : Nat) : List DriverId :=
  (candidateIds.filterMap GeoMember.uuid).eraseDups.filter fun driverId ↦
    Eligible clock db accounts seatsNeeded driverId

def selectCandidates (env : WaveEnv) (db : Db) (trip : TripRef) (generation : Nat) (origin : Point)
    (k : Nat) (radiusMeters : ℚ) (seatsNeeded : Nat) : List DriverId :=
  let offered := (offeredDriverIds db trip generation).eraseDups
  let raw := env.georadius origin radiusMeters (k * candidateHeadroom + offered.length)
  let fresh := raw.filter (· ∉ offered.map GeoMember.driver)
  (eligibleCandidates env.clock db env.accounts fresh seatsNeeded).take k

/-! ## Waves -/

/-- `1` or `2`. -/
inductive WaveNumber where
  | one | two
deriving DecidableEq, Repr

def WaveNumber.toNat : WaveNumber → Nat
  | .one => 1
  | .two => 2

def DispatchParams.waveParams (params : DispatchParams) : WaveNumber → Nat × ℚ
  | .one => (params.k1, params.r1Meters)
  | .two => (params.k2, params.r2Meters)

def scheduleTimers (params : DispatchParams) (queue : Queue) (trip : TripRef) (generation : Nat)
    (scheduled : Bool) : Queue :=
  let (waveOneTimeoutMs, hardFailMs) :=
    if scheduled then (params.scheduled.waveOneMs, params.scheduled.hardFailMs)
    else (params.waveOneTimeoutMs, params.hardFailMs)
  (queue.add (.wave2 trip generation) (.waveTimeout trip 2 (some generation)) waveOneTimeoutMs).add
    (.hardFail trip generation) (.hardFail trip (some generation)) hardFailMs

/-- The offers of a wave, one after the other; what `createOffer` throws ends the wave. -/
def offerEach (call : DriverId → OfferCall) (trip : TripRef) (generation waveNumber : Nat) :
    List DriverId → Db → Db × Except TxError Unit
  | [], db => (db, .ok ())
  | driverId :: candidates, db =>
      match createOffer (call driverId).t db (call driverId).newId (call driverId).locked
          ⟨trip, driverId, generation, waveNumber, offerTtlMs⟩ with
      | .error e => (db, .error e)
      | .ok (db, _) => offerEach call trip generation waveNumber candidates db

/-- Offer the trip to the candidates; the first wave also arms the timers. -/
def runWave (env : WaveEnv) (b : Backend) (trip : TripRef) (generation : Nat)
    (waveNumber : WaveNumber) (scheduled : Bool) (candidates : List DriverId) :
    Backend × Except TxError Unit :=
  match offerEach env.call trip generation waveNumber.toNat candidates b.db with
  | (db, .error e) => ({ b with db }, .error e)
  | (db, .ok ()) =>
      if waveNumber = .one then
        (⟨db, scheduleTimers env.params b.queue trip generation scheduled⟩, .ok ())
      else ({ b with db }, .ok ())

def runSoloWave (env : WaveEnv) (b : Backend) (ride : Ride) (waveNumber : WaveNumber)
    (generation : Nat) : Backend × Except TxError Unit :=
  if generation < 1 then
    (b, .error (.thrown s!"runSoloWave: ride {ride.id} has no dispatch generation ({generation})"))
  else
  let (k, radiusMeters) := env.params.waveParams waveNumber
  runWave env b (.solo ride.id) generation waveNumber (ride.type = .scheduled)
    (selectCandidates env b.db (.solo ride.id) generation ride.origin k radiusMeters 1)

/-- A pool without its itinerary is offered to nobody, but its timers are armed. -/
def runPoolWave (env : WaveEnv) (b : Backend) (pool : SharedRide) (waveNumber : WaveNumber)
    (generation : Nat) : Backend × Except TxError Unit :=
  if generation < 1 then
    (b, .error
      (.thrown s!"runPoolWave: pool {pool.rideId} has no dispatch generation ({generation})"))
  else
  let stops := Matching.findByRideId b.db pool.rideId
  let (k, radiusMeters) := env.params.waveParams waveNumber
  runWave env b (.shared pool.rideId) generation waveNumber false
    (if pool.seatCount < 1 ∨ stops.length ≠ 2 * pool.seatCount then []
    else selectCandidates env b.db (.shared pool.rideId) generation pool.origin k radiusMeters
      pool.seatCount)

/-! ## The start job -/

inductive StartOutcome where
  | started | stale
deriving DecidableEq, Repr

def startSolo (env : WaveEnv) (b : Backend) (rideId : RideId) (generation : Nat) :
    Backend × Except TxError StartOutcome :=
  match b.db.rides.get rideId with
  | none => (b, .ok .stale)
  | some ride =>
      if ride.status ≠ .requested ∨ ride.dispatchGeneration ≠ generation then (b, .ok .stale)
      else
        let (b, result) := runSoloWave env b ride .one generation
        (b, result.map fun _ ↦ .started)

def startPool (env : WaveEnv) (b : Backend) (poolId : PoolId) (generation : Nat) :
    Backend × Except TxError StartOutcome :=
  match b.db.sharedRides.get poolId with
  | none => (b, .ok .stale)
  | some pool =>
      if pool.poolState.Claimable ∧ pool.claimedByDriverId = none ∧
          pool.dispatchGeneration = generation then
        let (b, result) := runPoolWave env b pool .one generation
        (b, result.map fun _ ↦ .started)
      else (b, .ok .stale)

/-- `process`, for a start job. -/
def start (env : WaveEnv) (b : Backend) (trip : TripRef) (generation : Nat) :
    Backend × Except TxError StartOutcome :=
  match trip with
  | .solo rideId => startSolo env b rideId generation
  | .shared poolId => startPool env b poolId generation

end Rcab.Dispatch
