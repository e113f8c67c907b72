import Rcab.Outbox.Jobs
import Rcab.Outbox.Repository
import Rcab.Scheduled.Retry

/-!
# The reconciler

`dispatch-reconciler.service.ts`.  A pass runs four queries one after the other, and for each
row checks that the work of that trip is there; where it is not, it re-arms the outbox intent
or restores a timer.

The report and the outbox statistics decide nothing and are left out, and so are the boot and
the interval that start a pass.
-/

namespace Rcab.Outbox

open Scheduled (rearmScheduledRide)

/-- `ScheduledDispatchWindow`, as `scheduledWindowFromConfig` validates it. -/
structure ScheduledDispatchWindow where
  waveOneMs : Int
  hardFailMs : Int
  waveOneMs_pos : 1 ≤ waveOneMs
  waveOneMs_le : waveOneMs ≤ hardFailMs

/-- The windows, as the constructor reads them from the configuration. -/
structure Windows where
  waveOneTimeoutMs : Int
  hardFailMs : Int
  poolTimeoutMs : Int
  scheduledWindow : ScheduledDispatchWindow
  waveOneTimeoutMs_pos : 1 ≤ waveOneTimeoutMs
  hardFailMs_pos : 1 ≤ hardFailMs
  poolTimeoutMs_pos : 1 ≤ poolTimeoutMs

/-- The defaults of the keys. -/
def Windows.default : Windows where
  waveOneTimeoutMs := 30000
  hardFailMs := 60000
  poolTimeoutMs := 60000
  scheduledWindow := ⟨120000, 240000, by decide, by decide⟩
  waveOneTimeoutMs_pos := by decide
  hardFailMs_pos := by decide
  poolTimeoutMs_pos := by decide

/-- `RECONCILE_EVERY_MS`. -/
def reconcileEveryMs : Int := 5 * 60 * 1000

/-- `GRACE_MS`. -/
def graceMs : Int := 15000

/-- `MAX_PER_PASS`. -/
def maxPerPass : Nat := 500

/-- Postgres and Redis. -/
structure Backend where
  db : Db
  queue : Queue

/-- The clocks one trip is reconciled by: `Date.now()` where the scheduled window is judged
and where the timers are, and Postgres's. -/
structure ReconcileClock where
  windowNow : Time
  timerNow : Time
  tx : TxClock

/-! ## Re-arming an intent -/

/-- The key an intent has. -/
def OutboxMessage.key (m : OutboxMessage) : DedupeKey :=
  ⟨topicOf m.payload, m.aggregateId, m.generation⟩

/-- `rearm`, and `enqueueOutbox` when there is no row. -/
def rearmOrEnqueue (t : TxClock) (db : Db) (m : OutboxMessage) : Db :=
  let (outbox, existing) := rearm db.outbox t.now m.key
  if existing then { db with outbox } else enqueueOutbox t { db with outbox } m

/-! ## `reconcileDispatching` -/

/-- What is known of the trip besides its generation. -/
structure DispatchContext where
  scheduled : Bool
  idleSince : Time

structure OfferSummary where
  count : Nat
  firstOfferedAt : Option Time
deriving DecidableEq, Repr

def offerSummary (db : Db) (trip : TripRef) (generation : Nat) : OfferSummary :=
  let rows := db.dispatchOffer.filter fun o ↦ o.trip = trip ∧ o.dispatchGeneration = generation
  ⟨rows.length, (rows.map DispatchOffer.offeredAt).min?⟩

/-- The intent to dispatch the trip. -/
def dispatchIntent (trip : TripRef) (generation : Nat) : OutboxMessage :=
  match trip with
  | .solo rideId => ⟨.ride, rideId, generation, .rideDispatchRequested rideId, none⟩
  | .shared poolId =>
      ⟨.sharedRide, poolId, generation, .poolDispatchRequested poolId .closedTimeout, none⟩

def Windows.waveOneFor (cfg : Windows) (scheduled : Bool) : Int :=
  if scheduled then cfg.scheduledWindow.waveOneMs else cfg.waveOneTimeoutMs

def Windows.hardFailFor (cfg : Windows) (scheduled : Bool) : Int :=
  if scheduled then cfg.scheduledWindow.hardFailMs else cfg.hardFailMs

/-- Wave 1 ran: restore whichever timers were lost. -/
def restoreTimers (cfg : Windows) (now : Time) (queue : Queue) (trip : TripRef) (generation : Nat)
    (scheduled hasHardFail : Bool) (base : Time) : Queue :=
  let waveOneEndsAt := base + cfg.waveOneFor scheduled
  let queue :=
    if hasHardFail then queue
    else (queue.removeFinished (.hardFail trip generation)).add (.hardFail trip generation)
      (.hardFail trip (some generation)) (max 0 (base + cfg.hardFailFor scheduled - now))
  if now < waveOneEndsAt ∧ ¬ queue.hasLiveJob [.wave2 trip generation, .legacyWave2 trip] then
    (queue.removeFinished (.wave2 trip generation)).add (.wave2 trip generation)
      (.waveTimeout trip 2 (some generation)) (max 0 (waveOneEndsAt - now))
  else queue

def reconcileDispatching (cfg : Windows) (c : ReconcileClock) (b : Backend) (trip : TripRef)
    (generation : Nat) (ctx : DispatchContext) : Backend :=
  -- The start job still being scheduled or running is progress.
  if b.queue.hasLiveJob [.dispatchStart trip generation] then b
  else
  let offers := offerSummary b.db trip generation
  let hasHardFail := b.queue.hasLiveJob [.hardFail trip generation, .legacyHardFail trip]
  -- A scheduled ride is retried when its window is over and nothing will close it.
  if ctx.scheduled ∧ ¬ hasHardFail ∧
      (offers.firstOfferedAt.getD ctx.idleSince) + cfg.hardFailFor ctx.scheduled ≤ c.windowNow then
    { b with db := (rearmScheduledRide c.tx b.db trip.id (some generation)).1 }
  else if ¬ hasHardFail ∧ offers.count = 0 then
    -- Wave 1 never completed, or its timers were lost: start it again.
    { db := rearmOrEnqueue c.tx b.db (dispatchIntent trip generation)
      queue := (b.queue.removeFinished (.dispatchStart trip generation)).removeFinished
        (.hardFail trip generation) }
  else match offers.firstOfferedAt with
  | none => b
  | some base =>
      { b with
        queue := restoreTimers cfg c.timerNow b.queue trip generation ctx.scheduled hasHardFail base }

/-! ## The four queries -/

/-- Scheduled rides whose wake never became a job. -/
def UnwokenScheduled (r : Ride) : Prop :=
  r.type = .scheduled ∧ r.status = .requested ∧ r.dispatchGeneration = 0

instance : DecidablePred UnwokenScheduled := fun r ↦
  inferInstanceAs (Decidable (r.type = .scheduled ∧ r.status = .requested ∧ r.dispatchGeneration = 0))

/-- Solo rides dispatching: normal, or woken scheduled ones. -/
def SoloDispatching (r : Ride) : Prop := r.status = .requested ∧ 0 < r.dispatchGeneration

instance : DecidablePred SoloDispatching := fun r ↦
  inferInstanceAs (Decidable (r.status = .requested ∧ 0 < r.dispatchGeneration))

/-- Closed pools nobody claimed. -/
def PoolDispatching (s : SharedRide) : Prop :=
  s.poolState.Claimable ∧ s.claimedByDriverId = none ∧ 0 < s.dispatchGeneration

instance : DecidablePred PoolDispatching := fun s ↦
  inferInstanceAs (Decidable (s.poolState.Claimable ∧ s.claimedByDriverId = none ∧
    0 < s.dispatchGeneration))

/-- One row of the first query. -/
def reconcileUnwoken (c : ReconcileClock) (b : Backend) (r : Ride) : Backend :=
  match r.scheduledFor with
  | none => b
  | some scheduledFor =>
  if b.queue.hasLiveJob [.scheduledWake r.id 1, .legacyWake r.id] then b
  else
    { db := rearmOrEnqueue c.tx b.db ⟨.ride, r.id, 1, .rideWakeSchedule scheduledFor, none⟩
      queue := b.queue.removeFinished (.scheduledWake r.id 1) }

/-- One row of the second query, last touched at `updatedAt`. -/
def reconcileSolo (cfg : Windows) (c : ReconcileClock) (b : Backend) (r : Ride) (updatedAt : Time) :
    Backend :=
  reconcileDispatching cfg c b (.solo r.id) r.dispatchGeneration ⟨r.type = .scheduled, updatedAt⟩

/-- One row of the third query.  `openPool` records the planned close in `pool_closed_at`. -/
def reconcileOpen (cfg : Windows) (c : ReconcileClock) (b : Backend) (s : SharedRide)
    (poolOpenedAt : Time) : Backend :=
  if b.queue.hasLiveJob [.poolExpire s.rideId, .legacyPoolExpire s.rideId] then b
  else
    let expireAt := s.poolClosedAt.getD (poolOpenedAt + cfg.poolTimeoutMs)
    { db := rearmOrEnqueue c.tx b.db
        ⟨.sharedRide, s.rideId, 0, .poolExpireSchedule expireAt, none⟩
      queue := b.queue.removeFinished (.poolExpire s.rideId) }

/-- One row of the fourth query. -/
def reconcileClosed (cfg : Windows) (c : ReconcileClock) (b : Backend) (s : SharedRide) : Backend :=
  reconcileDispatching cfg c b (.shared s.rideId) s.dispatchGeneration ⟨false, c.windowNow⟩

end Rcab.Outbox
