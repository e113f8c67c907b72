import Rcab.Lib.Run
import Rcab.Dispatch.Accept
import Rcab.Dispatch.HardFail
import Rcab.Matching.PoolLifecycle
import Rcab.RideLifecycle.ConfirmStop
import Rcab.Rides.Repository
import Rcab.Scheduled.Retry

/-!
# The trips' transactions as one system

`Step` is one committed or rolled back transaction on the trips with all its
arguments, `exec` its effect.  Row locks make each of them atomic: every one locks the
trip's row first, and what else it writes is guarded in the statement that writes it.

Foreign keys are not modelled.  Violating one makes a transaction roll back, so
leaving them out only adds runs.
-/

universe u

namespace Rcab

/-- One transaction on the trips. -/
inductive Step where
  | createRide (t : TxClock) (params : Rides.CreateRide)
  | createOffer (t : TxClock) (newId : OfferId) (locked : List OfferId) (p : Dispatch.CreateOffer)
  | acceptInTx (t : TxClock) (accounts : Dispatch.Accounts) (offerId : OfferId)
      (driverId : DriverId) (trip : TripRef)
  | decline (t : TxClock) (offerId : OfferId) (driverId : DriverId)
  | expireLapsed (t : TxClock) (locked : List OfferId)
  | claimSolo (t : TxClock) (rideId : RideId) (driverId : DriverId)
  | transition (dateNow : Time) (rideId : RideId) (driverId : DriverId) (event : Rides.RideEvent)
  | cancel (t : TxClock) (dateNow : Time) (params : Rides.CancelRide)
  | markNoDriver (t : TxClock) (rideId : RideId) (generation : Option Nat)
  | rearmScheduledRide (t : TxClock) (rideId : RideId) (expectedGeneration : Option Nat)
  | wakeScheduled (rideId : RideId) (generation : Nat)
  | openPool (t : TxClock) (p : Matching.OpenPoolParams)
  | joinPool (t : TxClock) (p : Matching.JoinPoolParams)
  | closeIfOpen (t : TxClock) (poolId : PoolId)
  | hardFailPool (t : TxClock) (poolId : PoolId) (generation : Option Nat)
  | confirmStop (t : TxClock) (input : RideLifecycle.StopConfirmInput)

section Exec

variable {D : Type u} [LinearOrder D] (dist : Point → Point → D)

/-- The database after a step. -/
def exec (db : Db) : Step → Db
  | .createRide t params => (Rides.create t db params).commit db
  | .createOffer t newId locked p => (Dispatch.createOffer t db newId locked p).commit db
  | .acceptInTx t accounts offerId driverId trip =>
      (Dispatch.acceptInTx t db accounts offerId driverId trip).commit db
  | .decline t offerId driverId => (Dispatch.decline t db offerId driverId).1
  | .expireLapsed t locked => (Dispatch.expireLapsed t db locked).1
  | .claimSolo t rideId driverId => (Rides.claimSolo t db rideId driverId).commit db
  | .transition dateNow rideId driverId event =>
      (Rides.transition db dateNow rideId driverId (Rides.transitions event).source
        (Rides.transitions event).target).1
  | .cancel t dateNow params => (Rides.cancel t db dateNow params).1
  | .markNoDriver t rideId generation => (Rides.markNoDriver t db rideId generation).1
  | .rearmScheduledRide t rideId expectedGeneration =>
      (Scheduled.rearmScheduledRide t db rideId expectedGeneration).1
  | .wakeScheduled rideId generation => (Scheduled.wakeScheduled db rideId generation).1
  | .openPool t p => (Matching.openPool dist t db p).commit db
  | .joinPool t p => (Matching.joinPool dist t db p).commit db
  | .closeIfOpen t poolId => (Matching.closeIfOpen dist t db poolId).commit db
  | .hardFailPool t poolId generation => (Dispatch.hardFailPool t db poolId generation).1
  | .confirmStop t input => (RideLifecycle.confirmStop t db input).commit db

/-- The system: from any state any step is possible. -/
def step (db : Db) (e : Step) (db' : Db) : Prop := exec dist db e = db'

end Exec

/-- A database without trips. -/
structure Db.NoTrips (db : Db) : Prop where
  rides : ∀ r, r ∉ db.rides
  sharedRides : ∀ s, s ∉ db.sharedRides
  dispatchOffer : ∀ o, o ∉ db.dispatchOffer
  driverActiveAssignment : ∀ a, a ∉ db.driverActiveAssignment

theorem Db.empty_noTrips : Db.empty.NoTrips where
  rides := Table.notMem_empty
  sharedRides := Table.notMem_empty
  dispatchOffer := Table.notMem_empty
  driverActiveAssignment := Table.notMem_empty

end Rcab
