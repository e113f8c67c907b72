import Rcab.Dispatch.Start
import Rcab.Outbox.Recovery

/-!
# The timers of a dispatching trip

While a trip is inside its wave-one window it should have both its timers: the escalation to
wave 2 and the hard-fail.  The reconciler restores them itself once wave 1 has offered the
trip, and before that starts wave 1 again, which arms them.

Two cases are left to others by design: a trip nobody was offered, whose hard-fail is there,
is left as it is, and a scheduled ride whose window ran out is moved to the next generation.
-/

namespace Rcab.Outbox

open Dispatch Scheduled

/-- A wave-2 job of the trip will still run. -/
def HasWave2 (q : Queue) (trip : TripRef) (g : ℕ) : Prop :=
  q.LiveAt (.wave2 trip g) ∨ q.LiveAt (.legacyWave2 trip)

/-- Both timers of the trip will still run. -/
def TimersLive (q : Queue) (trip : TripRef) (g : ℕ) : Prop :=
  HasWave2 q trip g ∧ HasHardFail q trip g

instance {q : Queue} {trip : TripRef} {g : ℕ} : Decidable (TimersLive q trip g) :=
  inferInstanceAs (Decidable ((_ ∨ _) ∧ (_ ∨ _)))

/-- No finished job holds the id. -/
def Unfinished (q : Queue) (id : JobId) : Prop := ∀ job ∈ q id, job.state.Live

/-- The window of a trip nobody was offered is over. -/
def WindowOver (cfg : Windows) (c : ReconcileClock) (ctx : DispatchContext) : Prop :=
  ctx.scheduled = true ∧ ctx.idleSince + cfg.hardFailFor ctx.scheduled ≤ c.windowNow

instance {cfg : Windows} {c : ReconcileClock} {ctx : DispatchContext} :
    Decidable (WindowOver cfg c ctx) := inferInstanceAs (Decidable (_ ∧ _))

/-- `reconcileDispatching` re-arms the intent: what `dispatchRearmed` counts. -/
def Restarts (cfg : Windows) (c : ReconcileClock) (b : Backend) (trip : TripRef) (g : ℕ)
    (ctx : DispatchContext) : Prop :=
  ¬ b.queue.LiveAt (.dispatchStart trip g) ∧ ¬ HasHardFail b.queue trip g ∧
    (offerSummary b.db trip g).firstOfferedAt = none ∧ ¬ WindowOver cfg c ctx

instance {cfg : Windows} {c : ReconcileClock} {b : Backend} {trip : TripRef} {g : ℕ}
    {ctx : DispatchContext} : Decidable (Restarts cfg c b trip g ctx) :=
  inferInstanceAs (Decidable (_ ∧ ¬ (_ ∨ _) ∧ _ ∧ ¬ _))

/-- The relay publishes the intent, whatever becomes of its row, and the start job runs. -/
def published (env : WaveEnv) (leadMs : Int) (now : Time) (outbox : Table OutboxRow.dedupeKey)
    (b : Backend) (trip : TripRef) (g : ℕ) : Backend × Except TxError StartOutcome :=
  start env
    ⟨{ b.db with outbox }, b.queue.publish leadMs now (.dispatchStart trip g)⟩ trip g

/-- The backend once the re-armed intent, if any, was published and started. -/
def settled (env : WaveEnv) (leadMs : Int) (now : Time) (outbox : Table OutboxRow.dedupeKey)
    (cfg : Windows) (c : ReconcileClock) (b : Backend) (trip : TripRef) (g : ℕ)
    (ctx : DispatchContext) : Backend :=
  let b' := reconcileDispatching cfg c b trip g ctx
  if Restarts cfg c b trip g ctx then (published env leadMs now outbox b' trip g).1 else b'

/-- Nobody was offered the trip, or its first wave is not over yet. -/
def InWaveOne (cfg : Windows) (c : ReconcileClock) (b : Backend) (trip : TripRef) (g : ℕ)
    (ctx : DispatchContext) : Prop :=
  ∀ base ∈ (offerSummary b.db trip g).firstOfferedAt,
    max c.windowNow c.timerNow < base + cfg.waveOneFor ctx.scheduled

/-! ## Wave 1 -/

section WaveOne

variable {env : WaveEnv} {b : Backend} {trip : TripRef} {g : ℕ} {q : Queue} {id : JobId}

/-- A job is there after its addition, unless a finished one holds the id. -/
theorem Unfinished.add (h : Unfinished q id) (data : JobData) (delay : Int) :
    (q.add id data delay).LiveAt id := by
  cases hq : q id with
  | none => exact Queue.liveAt_add_self hq
  | some job => exact Queue.LiveAt.add ⟨job, hq, h job hq⟩

/-- Adding another job leaves the id as it was. -/
theorem Unfinished.add_ne {id' : JobId} (h : Unfinished q id) (hne : id ≠ id') {data : JobData}
    {delay : Int} : Unfinished (q.add id' data delay) id := by
  unfold Queue.add
  split_ifs
  · exact h
  · unfold Unfinished
    rwa [Function.update_of_ne hne]

/-- Removing finished jobs makes none. -/
theorem Unfinished.removeFinished (h : Unfinished q id) (id' : JobId) :
    Unfinished (q.removeFinished id') id := by
  unfold Queue.removeFinished
  split_ifs
  · intro job hj
    by_cases hid : id = id'
    · rw [hid, Function.update_self] at hj
      cases hj
    · rw [Function.update_of_ne hid] at hj
      exact h job hj
  · exact h

/-- A finished job was removed. -/
theorem unfinished_removeFinished (q : Queue) (id : JobId) : Unfinished (q.removeFinished id) id := by
  by_cases hl : q.LiveAt id
  · obtain ⟨job, hj, hlive⟩ := hl
    refine Unfinished.removeFinished (fun job' hj' ↦ ?_) id
    obtain rfl := Option.some.inj (Option.mem_def.mp hj |>.symm.trans (Option.mem_def.mp hj'))
    exact hlive
  · intro job hj
    rw [Queue.removeFinished_self hl] at hj
    cases hj

/-- Both timers are armed, unless a finished job holds the id of one. -/
theorem timersLive_scheduleTimers (params : DispatchParams) (scheduled : Bool)
    (h2 : Unfinished q (.wave2 trip g)) (hh : Unfinished q (.hardFail trip g)) :
    TimersLive (scheduleTimers params q trip g scheduled) trip g :=
  ⟨Or.inl (h2.add _ _).add, Or.inl ((hh.add_ne (by simp)).add _ _)⟩

theorem createOffer_ne_error {t : TxClock} {db : Db} {newId : OfferId} {locked : List OfferId}
    {p : CreateOffer} {e : TxError} (hg : 1 ≤ p.generation) (hw : 1 ≤ p.waveNumber) :
    createOffer t db newId locked p ≠ .error e := by
  intro h
  unfold createOffer at h
  split at h
  · cases h
  dsimp only at h
  rw [if_neg (by omega), if_neg (by omega)] at h
  split_ifs at h

/-- No offer of a wave throws. -/
theorem offerEach_ok (call : DriverId → OfferCall) (trip : TripRef) {wave : ℕ}
    (hg : 1 ≤ g) (hw : 1 ≤ wave)
    (candidates : List DriverId) (db : Db) :
    (offerEach call trip g wave candidates db).2 = .ok () := by
  induction candidates generalizing db with
  | nil => rfl
  | cons driverId candidates ih =>
      unfold offerEach
      split
      · rename_i e he
        exact absurd he (createOffer_ne_error hg hw)
      · exact ih _

theorem runWave_one (env : WaveEnv) (b : Backend) (trip : TripRef) (hg : 1 ≤ g)
    (scheduled : Bool) (candidates : List DriverId) :
    ∃ db, runWave env b trip g .one scheduled candidates =
      (⟨db, scheduleTimers env.params b.queue trip g scheduled⟩, .ok ()) := by
  have hok := offerEach_ok env.call trip hg (Nat.le_refl 1) candidates b.db
  unfold runWave
  split
  · rename_i e he
    rw [show WaveNumber.one.toNat = 1 from rfl] at he
    rw [he] at hok
    cases hok
  · exact ⟨_, rfl⟩

/-- The start job of a dispatching trip runs wave 1. -/
theorem start_of_dispatchable (env : WaveEnv) (hd : Dispatchable b.db trip g) (hg : 1 ≤ g) :
    ∃ db scheduled, start env b trip g =
      (⟨db, scheduleTimers env.params b.queue trip g scheduled⟩, .ok .started) := by
  have hpos : ¬ g < 1 := by omega
  cases trip with
  | solo rideId =>
      obtain ⟨ride, hride, rfl, hstatus, -, rfl⟩ := hd
      obtain ⟨db, hdb⟩ := runWave_one env b (.solo ride.id) hg
        (ride.type = .scheduled) (selectCandidates env b.db (.solo ride.id) ride.dispatchGeneration
          ride.origin env.params.k1 env.params.r1Meters 1)
      refine ⟨db, ride.type = .scheduled, ?_⟩
      simp only [start, startSolo, Table.get_of_mem hride, hstatus, ne_eq, not_true_eq_false,
        or_self, ↓reduceIte, runSoloWave, hpos, DispatchParams.waveParams, hdb]
      rfl
  | shared poolId =>
      obtain ⟨pool, hpool, rfl, hstate, hfree, rfl⟩ := hd
      obtain ⟨db, hdb⟩ := runWave_one env b (.shared pool.rideId) hg false
        (if pool.seatCount < 1 ∨
            (Matching.findByRideId b.db pool.rideId).length ≠ 2 * pool.seatCount then []
          else selectCandidates env b.db (.shared pool.rideId) pool.dispatchGeneration pool.origin
            env.params.k1 env.params.r1Meters pool.seatCount)
      refine ⟨db, false, ?_⟩
      simp only [start, startPool, Table.get_of_mem hpool, hstate, hfree, and_self, ↓reduceIte,
        runPoolWave, hpos, DispatchParams.waveParams, hdb]
      rfl

end WaveOne

/-! ## Reconciling -/

section Reconciling

variable {cfg : Windows} {c : ReconcileClock} {b : Backend} {trip : TripRef} {g : ℕ}
  {ctx : DispatchContext}

/-- The wave-2 job of the trip stands after its timers were restored within wave 1. -/
theorem wave2_restoreTimers {now base : Time} {q : Queue} {scheduled hasHardFail : Bool}
    (h : now < base + cfg.waveOneFor scheduled) :
    HasWave2 (restoreTimers cfg now q trip g scheduled hasHardFail base) trip g := by
  have hlive : ∀ q : Queue,
      q.hasLiveJob [.wave2 trip g, .legacyWave2 trip] = true ↔ HasWave2 q trip g := fun q ↦ by
    simp [Queue.hasLiveJob_iff, HasWave2]
  unfold restoreTimers
  dsimp only
  generalize (if hasHardFail = true then q else _ : Queue) = q'
  split_ifs with h2
  · exact Or.inl (Queue.liveAt_renew fun hl ↦ h2.2 ((hlive q').mpr (Or.inl hl)))
  · exact (hlive q').mp (by simpa [h] using h2)

/-- The window of a scheduled ride ends no sooner than its first wave. -/
theorem Windows.waveOneFor_le (cfg : Windows) {scheduled : Bool} (h : scheduled = true) :
    cfg.waveOneFor scheduled ≤ cfg.hardFailFor scheduled := by
  subst h
  exact cfg.scheduledWindow.waveOneMs_le

/-- Within wave 1 the timers of a trip somebody was offered are restored. -/
theorem timersLive_of_offered {base : Time} (hl : ¬ b.queue.LiveAt (.dispatchStart trip g))
    (hbase : (offerSummary b.db trip g).firstOfferedAt = some base)
    (hwin : InWaveOne cfg c b trip g ctx) :
    TimersLive (reconcileDispatching cfg c b trip g ctx).queue trip g := by
  have hwindow := (le_max_left _ _).trans_lt (hwin base hbase)
  have htimer := (le_max_right _ _).trans_lt (hwin base hbase)
  have h := reconcileDispatching_reconciles cfg c b trip g ctx
  generalize reconcileDispatching cfg c b trip g ctx = b' at h ⊢
  cases h with
  | running hl' => exact absurd hl' hl
  | retried _ _ hs hlate =>
      -- The window cannot be over before its first wave is.
      have := cfg.waveOneFor_le hs
      rw [hbase, Option.getD_some] at hlate
      exact absurd (hlate.trans_lt hwindow) (not_lt.mpr (Int.add_le_add_left this base))
  | restarted _ _ _ hc =>
      rw [hbase] at hc
      cases hc
  | closing _ hc =>
      rw [hbase] at hc
      cases hc
  | restored base' hbase' =>
      obtain rfl := Option.some.inj (hbase.symm.trans hbase')
      exact ⟨wave2_restoreTimers htimer, hardFail_restoreTimers rfl⟩

/-- A trip that is started again: its intent, and its ids. -/
theorem reconcileDispatching_of_restarts (h : Restarts cfg c b trip g ctx) :
    reconcileDispatching cfg c b trip g ctx =
      ⟨rearmOrEnqueue c.tx b.db (dispatchIntent trip g),
        (b.queue.removeFinished (.dispatchStart trip g)).removeFinished (.hardFail trip g)⟩ := by
  obtain ⟨hl, hno, hc, hw⟩ := h
  have h := reconcileDispatching_reconciles cfg c b trip g ctx
  generalize reconcileDispatching cfg c b trip g ctx = b' at h ⊢
  cases h with
  | running hl' => exact absurd hl' hl
  | retried _ _ hs hlate =>
      rw [hc, Option.getD_none] at hlate
      exact absurd ⟨hs, hlate⟩ hw
  | restarted => rfl
  | closing hh => exact absurd hh hno
  | restored base hbase =>
      rw [hc] at hbase
      cases hbase

/-- A trip nobody was offered, whose hard-fail is there, is left as it is. -/
theorem reconcileDispatching_of_closing (hh : HasHardFail b.queue trip g)
    (hc : (offerSummary b.db trip g).firstOfferedAt = none) :
    reconcileDispatching cfg c b trip g ctx = b := by
  have h := reconcileDispatching_reconciles cfg c b trip g ctx
  generalize reconcileDispatching cfg c b trip g ctx = b' at h ⊢
  cases h with
  | running => rfl
  | retried _ hno => exact absurd hh hno
  | restarted _ hno => exact absurd hh hno
  | closing => rfl
  | restored base hbase =>
      rw [hc] at hbase
      cases hbase

/-- A scheduled ride nobody was offered, whose window is over, is re-armed. -/
theorem reconcileDispatching_of_windowOver (hl : ¬ b.queue.LiveAt (.dispatchStart trip g))
    (hno : ¬ HasHardFail b.queue trip g)
    (hc : (offerSummary b.db trip g).firstOfferedAt = none) (hw : WindowOver cfg c ctx) :
    (reconcileDispatching cfg c b trip g ctx).db =
      (rearmScheduledRide c.tx b.db trip.id (some g)).1 := by
  have h := reconcileDispatching_reconciles cfg c b trip g ctx
  generalize reconcileDispatching cfg c b trip g ctx = b' at h ⊢
  cases h with
  | running hl' => exact absurd hl' hl
  | retried => rfl
  | restarted _ _ hw' =>
      rw [hc, Option.getD_none] at hw'
      exact absurd hw hw'
  | closing hh => exact absurd hh hno
  | restored base hbase =>
      rw [hc] at hbase
      cases hbase

/-- Wave 1, started again, arms both timers, unless a finished job holds the wave-2 id. -/
theorem timersLive_of_restarts (hd : Dispatchable b.db trip g) (hg : 1 ≤ g)
    (h : Restarts cfg c b trip g ctx) (h2 : Unfinished b.queue (.wave2 trip g)) (env : WaveEnv)
    (leadMs : Int) (now : Time) (outbox : Table OutboxRow.dedupeKey) :
    TimersLive (published env leadMs now outbox (reconcileDispatching cfg c b trip g ctx) trip
      g).1.queue trip g := by
  rw [reconcileDispatching_of_restarts h]
  obtain ⟨outbox', hdb⟩ := rearmOrEnqueue_eq c.tx b.db (dispatchIntent trip g)
  rw [hdb]
  unfold published
  set q := (b.queue.removeFinished (.dispatchStart trip g)).removeFinished (.hardFail trip g)
  have hd' : Dispatchable { b.db with outbox } trip g := hd
  obtain ⟨db, scheduled, hst⟩ := start_of_dispatchable env
    (b := ⟨{ b.db with outbox }, q.publish leadMs now (.dispatchStart trip g)⟩) hd' hg
  rw [hst]
  exact timersLive_scheduleTimers env.params scheduled
    (((h2.removeFinished _).removeFinished _).add_ne (by simp))
    ((unfinished_removeFinished _ _).add_ne (by simp))

/-- Inside the wave-one window of a dispatching trip both timers end up live: the reconciler
restores them, or wave 1 arms them once the intent it re-armed is published and started.  A
trip nobody was offered is left alone while its hard-fail is there, and moved on when it is a
scheduled ride whose window is over; where wave 1 is started again, this is for a wave-2 id
no finished job holds. -/
theorem timers_settled (hd : Dispatchable b.db trip g) (hg : 1 ≤ g)
    (hs : ctx.scheduled = true ↔ ScheduledTrip b.db trip)
    (hl : ¬ b.queue.LiveAt (.dispatchStart trip g)) (hwin : InWaveOne cfg c b trip g ctx) :
    ((offerSummary b.db trip g).firstOfferedAt = none → HasHardFail b.queue trip g →
      reconcileDispatching cfg c b trip g ctx = b) ∧
    ((offerSummary b.db trip g).firstOfferedAt = none → ¬ HasHardFail b.queue trip g →
      WindowOver cfg c ctx → ∃ r ∈ (reconcileDispatching cfg c b trip g ctx).db.rides,
        trip = .solo r.id ∧ r.dispatchGeneration = g + 1) ∧
    (Restarts cfg c b trip g ctx →
      IntentPending (reconcileDispatching cfg c b trip g ctx).db (dispatchKey trip g)) ∧
    (((offerSummary b.db trip g).firstOfferedAt = none → ¬ HasHardFail b.queue trip g ∧
        ¬ WindowOver cfg c ctx ∧ Unfinished b.queue (.wave2 trip g)) →
      ∀ env leadMs now outbox,
        TimersLive (settled env leadMs now outbox cfg c b trip g ctx).queue trip g) := by
  refine ⟨fun hc hh ↦ reconcileDispatching_of_closing hh hc, fun hc hno hw ↦ ?_, fun h ↦ ?_,
    fun h env leadMs now outbox ↦ ?_⟩
  · obtain ⟨r₀, -, rfl, -⟩ := id (hs.mp hw.1)
    obtain ⟨r, hr, hret, rfl⟩ := retryable_of_dispatchable hd hg (hs.mp hw.1)
    rw [reconcileDispatching_of_windowOver hl hno hc hw]
    show ∃ r' ∈ (rearmScheduledRide c.tx b.db r₀.id _).1.rides, _
    rw [(rearmScheduledRide_of_retryable c.tx (some r.dispatchGeneration) hr hret
      (by simp)).1]
    have hget := get_rearmed (t := c.tx) hr
    exact ⟨_, Table.mem_of_get hget, congrArg TripRef.solo (Table.key_of_get hr).symm, rfl⟩
  · rw [reconcileDispatching_of_restarts h]
    exact rearmOrEnqueue_pending c.tx b.db (dispatchIntent trip g)
  · unfold settled
    dsimp only
    split_ifs with hre
    · exact timersLive_of_restarts hd hg hre (h hre.2.2.1).2.2 env leadMs now outbox
    · cases hbase : (offerSummary b.db trip g).firstOfferedAt with
      | none => exact absurd ⟨hl, (h hbase).1, hbase, (h hbase).2.1⟩ hre
      | some base => exact timersLive_of_offered hl hbase hwin

end Reconciling

/-! ## A hard-fail alone -/

/-- Shortly after the ride was woken. -/
def sampleSoon : ReconcileClock := ⟨20000, 20000, ⟨20000, 20000⟩⟩

/-- A city without drivers. -/
def sampleEnv : WaveEnv where
  params := ⟨5, 10, 2000, 4000, 30000, 60000, Windows.default.scheduledWindow⟩
  accounts := ⟨[], []⟩
  georadius _ _ _ := []
  clock := 0
  call _ := ⟨⟨0, 0⟩, 0, []⟩

theorem sampleBackend_timers :
    TimersLive (settled sampleEnv 600000 30000 .empty .default sampleSoon (sampleBackend .empty)
      (.solo 1) 1 ⟨true, 0⟩).queue (.solo 1) 1 :=
  (timers_settled sampleBackend_dispatchable (Nat.le_refl 1) (by simp [sampleBackend_scheduled])
    (by decide +kernel) (fun _ h ↦ by cases h)).2.2.2
      (fun _ ↦ ⟨by decide +kernel, by decide +kernel, fun _ h ↦ by cases h⟩)
      sampleEnv 600000 30000 .empty

/-- Only the hard-fail of the sample ride is left. -/
def sampleClosing : Backend :=
  ⟨(sampleBackend .empty).db, Queue.add (fun _ ↦ none) (.hardFail (.solo 1) 1)
    (.hardFail (.solo 1) (some 1)) 240000⟩

/-- While the hard-fail is there, a lost wave 2 of a trip nobody was offered stays lost. -/
theorem closing_not_settled :
    ¬ ∀ (cfg : Windows) (c : ReconcileClock) (b : Backend) (trip : TripRef) (g : ℕ)
      (ctx : DispatchContext), Dispatchable b.db trip g → 1 ≤ g →
        (ctx.scheduled = true ↔ ScheduledTrip b.db trip) →
        ¬ b.queue.LiveAt (.dispatchStart trip g) → InWaveOne cfg c b trip g ctx →
        ∀ env leadMs now outbox,
          TimersLive (settled env leadMs now outbox cfg c b trip g ctx).queue trip g := by
  intro h
  have hlive := h .default sampleSoon sampleClosing (.solo 1) 1 ⟨true, 0⟩
    sampleBackend_dispatchable (Nat.le_refl 1) ⟨fun _ ↦ sampleBackend_scheduled, fun _ ↦ rfl⟩
    (by decide +kernel) (fun _ h ↦ by cases h) sampleEnv 600000 30000 .empty
  revert hlive
  decide +kernel

end Rcab.Outbox
