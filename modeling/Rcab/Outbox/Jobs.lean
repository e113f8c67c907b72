import Rcab.Outbox.Relay

/-!
# The jobs

`outbox.jobs.ts`, and what the api uses of BullMQ: adding a job whose id exists is a no-op,
whatever the state of the job that holds the id, and a finished job may be retained.

The three queues are one map, because no two of them share a job id.  An id names its trip
by its uuid alone; a ride and a pool never have the same one, so here it names the trip.
-/

namespace Rcab

/-- The uuid of the trip. -/
def TripRef.id : TripRef → Uuid
  | .solo rideId => rideId
  | .shared sharedRideId => sharedRideId

namespace Outbox

inductive JobId where
  | dispatchStart (trip : TripRef) (generation : Nat)
  | wave2 (trip : TripRef) (generation : Nat)
  | hardFail (trip : TripRef) (generation : Nat)
  | scheduledWake (rideId : RideId) (generation : Nat)
  | poolExpire (poolId : PoolId)
  | legacyWave2 (trip : TripRef)
  | legacyHardFail (trip : TripRef)
  | legacyWake (rideId : RideId)
  | legacyPoolExpire (poolId : PoolId)
deriving DecidableEq, Repr

/-- What `getState` answers. -/
inductive JobState where
  | waiting | delayed | active | prioritized | waitingChildren
  | completed | failed | unknown
deriving DecidableEq, Repr

/-- `LIVE_STATES`: the job will still run, or is running. -/
def JobState.Live : JobState → Prop
  | .completed | .failed | .unknown => False
  | _ => True

instance : DecidablePred JobState.Live := fun s ↦ by
  cases s <;> unfold JobState.Live <;> infer_instance

inductive JobData where
  | dispatchStart (trip : TripRef) (generation : Nat)
  | waveTimeout (trip : TripRef) (waveNumber : Nat) (generation : Option Nat)
  | hardFail (trip : TripRef) (generation : Option Nat)
  | scheduledWake (rideId : RideId) (generation : Option Nat)
  | poolExpire (rideId : PoolId)
deriving DecidableEq, Repr

structure Job where
  data : JobData
  state : JobState
  delay : Int
deriving DecidableEq, Repr

abbrev Queue := JobId → Option Job

/-- A job as `add` makes it. -/
def newJob (data : JobData) (delay : Int) : Job :=
  ⟨data, if 0 < delay then .delayed else .waiting, delay⟩

theorem newJob_live (data : JobData) (delay : Int) : (newJob data delay).state.Live := by
  unfold newJob
  split_ifs <;> trivial

namespace Queue

/-- `queue.add(…, { jobId })`. -/
def add (q : Queue) (id : JobId) (data : JobData) (delay : Int) : Queue :=
  if (q id).isSome then q else Function.update q id (some (newJob data delay))

/-- The job will still run. -/
def LiveAt (q : Queue) (id : JobId) : Prop := ∃ job ∈ q id, job.state.Live

instance {q : Queue} {id : JobId} : Decidable (q.LiveAt id) :=
  inferInstanceAs (Decidable (∃ job ∈ q id, job.state.Live))

/-- One of the jobs will still run. -/
def hasLiveJob (q : Queue) (ids : List JobId) : Bool := ids.any fun id ↦ q.LiveAt id

/-- A finished job gives up its id. -/
def removeFinished (q : Queue) (id : JobId) : Queue :=
  if (q id).isSome ∧ ¬ q.LiveAt id then Function.update q id none else q

/-- `publish` of the relay; a wake fires `leadMs` before its ride. -/
def publish (q : Queue) (leadMs : Int) (now : Time) : Publication → Queue
  | .dispatchStart trip generation =>
      q.add (.dispatchStart trip generation) (.dispatchStart trip generation) 0
  | .scheduleWake rideId scheduledFor generation =>
      q.add (.scheduledWake rideId generation) (.scheduledWake rideId (some generation))
        (max 0 (scheduledFor - leadMs - now))
  | .poolExpire rideId expireAt =>
      q.add (.poolExpire rideId) (.poolExpire rideId) (max 0 (expireAt - now))

variable {q : Queue} {id id' : JobId} {ids : List JobId} {data : JobData} {delay : Int}

theorem hasLiveJob_iff : q.hasLiveJob ids = true ↔ ∃ id ∈ ids, q.LiveAt id := by
  simp [hasLiveJob]

/-- Adding a job stops no other. -/
theorem LiveAt.add (h : q.LiveAt id) : (q.add id' data delay).LiveAt id := by
  unfold Queue.add
  split_ifs with hs
  · exact h
  · have hne : id ≠ id' := by
      rintro rfl
      obtain ⟨job, hj, -⟩ := h
      exact hs (Option.isSome_iff_exists.mpr ⟨job, hj⟩)
    unfold LiveAt
    rwa [Function.update_of_ne hne]

/-- A job added under a free id runs. -/
theorem liveAt_add_self (h : q id = none) : (q.add id data delay).LiveAt id := by
  unfold Queue.add LiveAt
  rw [h, if_neg (by simp), Function.update_self]
  exact ⟨_, rfl, newJob_live data delay⟩

/-- Only finished jobs are removed. -/
theorem liveAt_removeFinished : (q.removeFinished id').LiveAt id ↔ q.LiveAt id := by
  unfold removeFinished
  split_ifs with h
  · by_cases hid : id = id'
    · subst hid
      refine ⟨fun hl ↦ ?_, fun hl ↦ absurd hl h.2⟩
      unfold LiveAt at hl
      rw [Function.update_self] at hl
      obtain ⟨job, hj, -⟩ := hl
      cases hj
    · unfold LiveAt
      rw [Function.update_of_ne hid]
  · exact Iff.rfl

/-- A job that does not run leaves its id free. -/
theorem removeFinished_self (h : ¬ q.LiveAt id) : q.removeFinished id id = none := by
  unfold removeFinished
  cases hq : q id with
  | none => simp [hq]
  | some job => simp [h]

end Queue

end Outbox

end Rcab
