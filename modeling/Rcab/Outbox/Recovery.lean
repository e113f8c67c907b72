import Rcab.Outbox.Durable
import Rcab.Scheduled.Rearm

/-!
# A dispatching trip is recovered

`reconcileDispatching` leaves the trip it is called for with durable work, whatever the jobs,
the offers and the outbox were, or moves a scheduled ride to the next generation.

The re-arm writes the next generation's intent with `ON CONFLICT DO NOTHING`.  An outbox that
already held that intent, settled, would leave it settled; no run of the system writes a
ride's intent ahead of its generation.
-/

namespace Rcab.Outbox

open Dispatch Scheduled

/-- The trip is a scheduled ride. -/
def ScheduledTrip (db : Db) (trip : TripRef) : Prop :=
  ∃ r ∈ db.rides, trip = .solo r.id ∧ r.type = .scheduled

/-- The trip has durable work at `g`, and nothing changed but the outbox and the jobs. -/
def Kept (b b' : Backend) (trip : TripRef) (g : ℕ) : Prop :=
  DurableWork b' trip g ∧ ∃ outbox, b'.db = { b.db with outbox }

/-- The scheduled ride was re-armed, and the intent of its newer generation is pending. -/
def Moved (t : TxClock) (b b' : Backend) (trip : TripRef) (g : ℕ) : Prop :=
  ∃ rideId, trip = .solo rideId ∧ b'.db = (rearmScheduledRide t b.db rideId (some g)).1 ∧
    ∃ r ∈ b'.db.rides.get rideId, r.type = .scheduled ∧ g < r.dispatchGeneration ∧
      IntentPending b'.db (dispatchKey trip r.dispatchGeneration)

/-- What reconciling a trip is for. -/
def Recovered (t : TxClock) (b b' : Backend) (trip : TripRef) (g : ℕ) : Prop :=
  (Kept b b' trip g ∨ Moved t b b' trip g) ∧ ∃ key, KeysKept key b.db b'.db

section Recovery

variable {c : ReconcileClock} {b : Backend} {trip : TripRef} {g : ℕ} {ctx : DispatchContext}

/-- The outbox as it was. -/
theorem KeysKept.same {key : DedupeKey} {db db' : Db} (h : db'.outbox = db.outbox) :
    KeysKept key db db' :=
  Or.inl (by rw [h])

/-- A dispatching scheduled ride can be re-armed. -/
theorem retryable_of_dispatchable {rideId : RideId} (hd : Dispatchable b.db (.solo rideId) g)
    (hg : 1 ≤ g) (hs : ScheduledTrip b.db (.solo rideId)) :
    ∃ r, b.db.rides.get rideId = some r ∧ Retryable r ∧ r.dispatchGeneration = g := by
  obtain ⟨r, hr, rfl, hstatus, hfree, rfl⟩ := hd
  obtain ⟨r', hr', htrip, htype⟩ := hs
  obtain rfl : r = r' := Table.unique hr hr' (TripRef.solo.inj htrip)
  exact ⟨r, Table.get_of_mem hr, ⟨htype, hstatus, hfree, hg⟩, rfl⟩

/-- The intent of the window a re-arm opens. -/
theorem intent_rearmed {t : TxClock} {db : Db} {rideId : RideId}
    (h : ∀ r ∈ db.outbox.get (dispatchKey (.solo rideId) (g + 1)), ¬ r.Settled) :
    IntentPending (rearmed t db rideId g) (dispatchKey (.solo rideId) (g + 1)) :=
  enqueueOutbox_pending (m := dispatchIntent (.solo rideId) (g + 1)) h

/-- The window of a scheduled ride is over: it moves on. -/
theorem recovered_retried (hd : Dispatchable b.db trip g) (hg : 1 ≤ g)
    (hs : ScheduledTrip b.db trip)
    (hnext : ∀ r ∈ b.db.outbox.get (dispatchKey trip (g + 1)), ¬ r.Settled) :
    Recovered c.tx b { b with db := (rearmScheduledRide c.tx b.db trip.id (some g)).1 } trip g := by
  obtain ⟨r₀, -, rfl, -⟩ := id hs
  obtain ⟨r, hr, hret, rfl⟩ := retryable_of_dispatchable hd hg hs
  have hdb := (rearmScheduledRide_of_retryable c.tx (some r.dispatchGeneration) hr hret
    (by simp)).1
  show Recovered c.tx b ⟨(rearmScheduledRide c.tx b.db r₀.id _).1, b.queue⟩ _ _
  rw [hdb]
  exact ⟨Or.inr ⟨r₀.id, rfl, hdb.symm, _, get_rearmed hr, hret.type, Nat.lt_succ_self _,
    intent_rearmed hnext⟩, _, keysKept_enqueueOutbox c.tx _ _⟩

/-- A trip keeps its generation and has durable work, or its ride is re-armed. -/
theorem reconcileDispatching_kept (cfg : Windows) (c : ReconcileClock) (b : Backend)
    (trip : TripRef) (g : ℕ) (ctx : DispatchContext) :
    Kept b (reconcileDispatching cfg c b trip g ctx) trip g ∧
        KeysKept (dispatchKey trip g) b.db (reconcileDispatching cfg c b trip g ctx).db ∨
      ctx.scheduled = true ∧ reconcileDispatching cfg c b trip g ctx =
        { b with db := (rearmScheduledRide c.tx b.db trip.id (some g)).1 } := by
  have h := reconcileDispatching_reconciles cfg c b trip g ctx
  generalize reconcileDispatching cfg c b trip g ctx = b' at h ⊢
  cases h with
  | running hl => exact Or.inl ⟨⟨Or.inl hl, b.db.outbox, rfl⟩, .same rfl⟩
  | retried hl hno hs => exact Or.inr ⟨hs, rfl⟩
  | restarted hl hno hw hc =>
      obtain ⟨outbox, hdb⟩ := rearmOrEnqueue_eq c.tx b.db (dispatchIntent trip g)
      exact Or.inl ⟨⟨Or.inr (Or.inr (rearmOrEnqueue_pending c.tx b.db _)), outbox, hdb⟩,
        keysKept_rearmOrEnqueue c.tx b.db _⟩
  | closing hh => exact Or.inl ⟨⟨Or.inr (Or.inl hh), b.db.outbox, rfl⟩, .same rfl⟩
  | restored base =>
      exact Or.inl ⟨⟨Or.inr (Or.inl (hardFail_restoreTimers rfl)), b.db.outbox, rfl⟩, .same rfl⟩

/-- Reconciling a dispatching trip recovers it, unless the outbox holds a settled intent of
the generation a scheduled ride would move to. -/
theorem reconcileDispatching_recovers (cfg : Windows) (c : ReconcileClock)
    (hd : Dispatchable b.db trip g) (hg : 1 ≤ g)
    (hs : ctx.scheduled = true ↔ ScheduledTrip b.db trip)
    (hnext : ctx.scheduled = true →
      ∀ r ∈ b.db.outbox.get (dispatchKey trip (g + 1)), ¬ r.Settled) :
    Recovered c.tx b (reconcileDispatching cfg c b trip g ctx) trip g := by
  rcases reconcileDispatching_kept cfg c b trip g ctx with ⟨hkept, hkeys⟩ | ⟨hsch, heq⟩
  · exact ⟨Or.inl hkept, _, hkeys⟩
  · rw [heq]
    exact recovered_retried hd hg (hs.mp hsch) (hnext hsch)

end Recovery

/-! ## An intent already settled -/

/-- A scheduled ride that was woken and never offered to anybody. -/
def sampleWoken : Ride where
  id := 1
  passengerId := 3
  origin := ⟨0, 0⟩
  dest := ⟨1, 1⟩
  fareCents := 900
  status := .requested
  type := .scheduled
  scheduledFor := some 1000000
  idempotencyKey := "k"
  idempotencyOperation := .scheduled
  requestFingerprint := none
  dispatchGeneration := 1

/-- The database of the woken ride, with these intents. -/
def sampleBackend (outbox : Table OutboxRow.dedupeKey) : Backend :=
  ⟨{ Db.empty with rides := Table.empty.insert sampleWoken, outbox }, fun _ ↦ none⟩

/-- An intent of generation 2, published. -/
def samplePublished : OutboxRow :=
  { dispatchIntent (.solo 1) 2 |>.row 0 with processedAt := some 0 }

/-- Long after the window. -/
def sampleLate : ReconcileClock := ⟨1000000, 1000000, ⟨1000000, 1000000⟩⟩

theorem sampleBackend_dispatchable {outbox : Table OutboxRow.dedupeKey} :
    Dispatchable (sampleBackend outbox).db (.solo 1) 1 :=
  ⟨sampleWoken, List.mem_singleton.mpr rfl, rfl, rfl, rfl, rfl⟩

theorem sampleBackend_scheduled {outbox : Table OutboxRow.dedupeKey} :
    ScheduledTrip (sampleBackend outbox).db (.solo 1) :=
  ⟨sampleWoken, List.mem_singleton.mpr rfl, rfl, rfl⟩

theorem sampleBackend_recovered :
    Recovered sampleLate.tx (sampleBackend .empty)
      (reconcileDispatching .default sampleLate (sampleBackend .empty) (.solo 1) 1 ⟨true, 0⟩)
      (.solo 1) 1 :=
  reconcileDispatching_recovers .default sampleLate sampleBackend_dispatchable (Nat.le_refl 1)
    (by simp [sampleBackend_scheduled]) fun _ r hr ↦ by cases hr

/-- With the next generation's intent already settled, the re-arm leaves nothing pending. -/
theorem settled_next_not_recovered :
    ¬ ∀ (cfg : Windows) (c : ReconcileClock) (b : Backend) (trip : TripRef) (g : ℕ)
      (ctx : DispatchContext), Dispatchable b.db trip g → 1 ≤ g →
        (ctx.scheduled = true ↔ ScheduledTrip b.db trip) →
        Recovered c.tx b (reconcileDispatching cfg c b trip g ctx) trip g := by
  intro h
  have hrec := h .default sampleLate (sampleBackend (Table.empty.insert samplePublished)) (.solo 1)
    1 ⟨true, 0⟩ sampleBackend_dispatchable (Nat.le_refl 1) (by simp [sampleBackend_scheduled])
  rcases hrec.1 with ⟨hwork, -⟩ | ⟨rideId, hid, -, r, hr, -, -, hpending⟩
  · revert hwork
    unfold DurableWork IntentPending
    decide +kernel
  · obtain rfl := TripRef.solo.inj hid
    revert hpending
    have hgen : r.dispatchGeneration = 2 := by
      have : ∀ r ∈ (reconcileDispatching .default sampleLate
          (sampleBackend (Table.empty.insert samplePublished)) (.solo 1) 1 ⟨true, 0⟩).db.rides.get 1,
          r.dispatchGeneration = 2 := by decide +kernel
      exact this r hr
    rw [hgen]
    unfold IntentPending
    decide +kernel

end Rcab.Outbox
