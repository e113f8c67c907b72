import Rcab.Dispatch.HardFail
import Rcab.Realtime.Snapshots
import Rcab.Trips.Step

/-!
# What follows a commit

The emissions a service owes once its transaction has committed.  `ride_state_changed` says what
the transaction did; `pool:update` is built from the pool's row, which its publisher reads again
after the commit.
-/

universe u

namespace Rcab

open Realtime (RideStateChanged rideStatusVersion)

/-- `'client'` and `'driver'`. -/
def Actor.text : Actor → String
  | .client => "client"
  | .driver => "driver"

/-! ## Rides -/

namespace Rides

/-- The emission of a committed change, built from the row it returned. -/
def changed (db : Db) (rideId : RideId) (actor : String) : List RideStateChanged :=
  (db.rides.get rideId).toList.map fun row ↦ ⟨rideId, row.status.text, actor, none⟩

/-- `RideStateMachine.apply`. -/
def apply (db : Db) (dateNow : Time) (rideId : RideId) (driverId : DriverId) (event : RideEvent) :
    Db × RideTransitionResult × List RideStateChanged :=
  let spec := transitions event
  match transition db dateNow rideId driverId spec.source spec.target with
  | (db, .ok) => (db, .ok, changed db rideId "driver")
  | (db, refusal) => (db, refusal, [])

/-- `RideStateMachine.cancel`. -/
def cancelRide (t : TxClock) (db : Db) (dateNow : Time) (params : CancelRide) :
    Db × RideCancelResult × List RideStateChanged :=
  match cancel t db dateNow params with
  | (db, .ok revoked) => (db, .ok revoked, changed db params.rideId params.actor.text)
  | (db, refusal) => (db, refusal, [])

end Rides

/-! ## Pools -/

namespace Realtime

/-- Who publishes a pool: `PoolLifecycleService`, or the snapshot service for the others. -/
inductive PoolPublisher where
  | lifecycle | snapshots
deriving DecidableEq, Repr

/-- A publication that has not read its pool yet. -/
structure PoolPublication where
  publisher : PoolPublisher
  poolId : PoolId
deriving DecidableEq, Repr

/-- The states `emitPoolUpdate` does not skip. -/
def Emitted (status : PoolState) : Prop :=
  status = .open_ ∨ status = .closedFull ∨ status = .closedTimeout

instance : DecidablePred Emitted := fun _ ↦ inferInstanceAs (Decidable (_ ∨ _))

/-- `PoolLifecycleService.emitPoolUpdate`. -/
def emitPoolUpdate (row : SharedRide) : Option PoolUpdatePayload :=
  if Emitted row.poolState then some (poolUpdatePayload row) else none

namespace PoolPublication

/-- The publisher reads the row: `afterCommit` of the lifecycle, or `publishPoolUpdate`. -/
def read (db : Db) (p : PoolPublication) : Option PoolUpdatePayload :=
  match p.publisher with
  | .lifecycle => (db.sharedRides.get p.poolId).bind emitPoolUpdate
  | .snapshots => poolUpdate db p.poolId

/-- It will emit a row in this state. -/
def Emits (p : PoolPublication) (state : PoolState) : Prop :=
  match p.publisher with
  | .lifecycle => Emitted state
  | .snapshots => True

end PoolPublication

end Realtime

/-! ## Every step -/

open Realtime (PoolPublication)

namespace Matching

/-- `afterCommit`, when a pool was opened. -/
def OpenPoolResult.publications (poolId : PoolId) : OpenPoolResult → List PoolPublication
  | .opened _ => [⟨.lifecycle, poolId⟩]
  | .rejected _ => []

/-- `afterCommit`, when the passenger joined. -/
def JoinPoolResult.publications (poolId : PoolId) : JoinPoolResult → List PoolPublication
  | .joined _ _ _ => [⟨.lifecycle, poolId⟩]
  | .failed _ _ => []

/-- `afterCommit`, when the pool closed or was retired. -/
def CloseIfOpenResult.publications (poolId : PoolId) : CloseIfOpenResult → List PoolPublication
  | .closed | .abortedEmpty => [⟨.lifecycle, poolId⟩]
  | .notOpen => []

end Matching

namespace Dispatch

/-- `afterAccepted`; a replayed acceptance is not announced again. -/
def AcceptOfferResult.rideEvents : AcceptOfferResult → List RideStateChanged
  | .ok (.solo rideId) _ false =>
      [⟨rideId, "accepted", "driver", some (rideStatusVersion "accepted")⟩]
  | _ => []

/-- `afterAccepted`, for a pool. -/
def AcceptOfferResult.publications : AcceptOfferResult → List PoolPublication
  | .ok (.shared poolId) _ false => [⟨.snapshots, poolId⟩]
  | _ => []

/-- `handleHardFail`, when the pool was aborted. -/
def hardFailPublications (poolId : PoolId) : Option (List RevokedOffer) → List PoolPublication
  | some _ => [⟨.snapshots, poolId⟩]
  | none => []

def Notice.rideEvent? : Notice → Option RideStateChanged
  | .rideStateChanged event => some event
  | _ => none

end Dispatch

namespace RideLifecycle

/-- A repeated confirmation changed nothing. -/
def StopConfirmResult.publications (poolId : PoolId) :
    StopConfirmResult → List PoolPublication
  | .ok confirmed => if confirmed.duplicate then [] else [⟨.snapshots, poolId⟩]
  | .failed _ => []

end RideLifecycle

/-- What a transaction returned, when it committed. -/
def Tx.result? {α : Type} : Tx α → Option α
  | .ok (_, a) => some a
  | .error _ => none

theorem Tx.ok_of_result? {α : Type} {x : Tx α} {a : α} (h : x.result? = some a) :
    ∃ db, x = .ok (db, a) := by
  cases x with
  | error e => cases h
  | ok p =>
      obtain rfl := Option.some.inj h
      exact ⟨p.1, rfl⟩

/-- The `ride_state_changed` that follow a step. -/
def Step.rideEvents (db : Db) : Step → List RideStateChanged
  | .acceptInTx t accounts offerId driverId trip =>
      (Dispatch.acceptInTx t db accounts offerId driverId trip).result?.toList.flatMap
        fun out ↦ out.result.rideEvents
  | .transition dateNow rideId driverId event =>
      (Rides.apply db dateNow rideId driverId event).2.2
  | .cancel t dateNow params => (Rides.cancelRide t db dateNow params).2.2
  | .markNoDriver t rideId generation =>
      (Dispatch.failSolo t db rideId generation).2.filterMap Dispatch.Notice.rideEvent?
  | _ => []

section Publications

variable {D : Type u} [LinearOrder D] (dist : Point → Point → D)

/-- The publications that follow a step. -/
def Step.publications (db : Db) : Step → List PoolPublication
  | .acceptInTx t accounts offerId driverId trip =>
      (Dispatch.acceptInTx t db accounts offerId driverId trip).result?.toList.flatMap
        fun out ↦ out.result.publications
  | .openPool t p =>
      (Matching.openPool dist t db p).result?.toList.flatMap (·.publications p.poolId)
  | .joinPool t p =>
      (Matching.joinPool dist t db p).result?.toList.flatMap (·.publications p.poolId)
  | .closeIfOpen t poolId =>
      (Matching.closeIfOpen dist t db poolId).result?.toList.flatMap (·.publications poolId)
  | .hardFailPool t poolId generation =>
      Dispatch.hardFailPublications poolId (Dispatch.hardFailPool t db poolId generation).2
  | .confirmStop t input =>
      (RideLifecycle.confirmStop t db input).result?.toList.flatMap (·.publications input.rideId)
  | _ => []

end Publications

end Rcab
