import Rcab.Pools.Membership

/-!
# A pool is closed once, and can be accepted

A pool leaves `open` at most once, however joins and timeouts race.  From then on it has the
one dispatch intent of its close and the itinerary of exactly its members, so no accept ever
finds the itinerary missing; and a late timeout changes nothing.
-/

universe u

namespace Rcab

open Dispatch Matching

/-- The pool is out of its open state. -/
def PoolView.Left (v : PoolView) : Prop := ∃ s, v.row = some s ∧ s.poolState ≠ .open_

/-- A pool never goes away. -/
theorem PoolStep.isSome {v v' : PoolView} (hst : PoolStep v v') (h : v.row.isSome) :
    v'.row.isSome := by
  cases hst with
  | idle => exact h
  | _ => rfl

/-- A pool is never opened again. -/
theorem PoolStep.left {v v' : PoolView} (hst : PoolStep v v') (h : v.Left) : v'.Left := by
  obtain ⟨s₀, hrow₀, hne⟩ := h
  -- The steps of an open pool, or of none, are no steps of this one.
  have hopen : ∀ s, v.row = some s → s.poolState ≠ .open_ := by
    intro s hrow
    rw [hrow₀, Option.some.injEq] at hrow
    exact hrow ▸ hne
  cases hst with
  | idle => exact ⟨s₀, hrow₀, hne⟩
  | opened s m hrow =>
      rw [hrow₀] at hrow
      cases hrow
  | joined s m hrow ho => exact absurd ho (hopen s hrow)
  | closed s reason now stops hrow ho => exact absurd ho (hopen s hrow)
  | retired s s' now hrow ho => exact absurd ho (hopen s hrow)
  | claimed s d now hrow => exact ⟨_, rfl, hopen s hrow⟩
  | aborted s s' now hrow hc hd hs => exact ⟨s', rfl, by simp [hs]⟩
  | confirmed s s' d i now hrow hd hf hmore hs => exact ⟨s', rfl, by simp [hs]⟩
  | completed s s' d i now hrow hd hf hlast hs => exact ⟨s', rfl, by simp [hs]⟩

/-- The pool is open. -/
def openAt (db : Db) (poolId : PoolId) : Bool :=
  (db.sharedRides.get poolId).any fun s ↦ s.poolState = .open_

section Runs

variable {D : Type u} [LinearOrder D] {dist : Point → Point → D} {db₀ db db' : Db}
  {tr : List (Db × Step)} {t : TxClock} {poolId : PoolId}

variable (dist) in
/-- The step took the pool out of its open state. -/
def leavesOpen (poolId : PoolId) (p : Db × Step) : Bool :=
  openAt p.1 poolId && !openAt (exec dist p.1 p.2) poolId

theorem openAt_of_left (h : (db.poolView poolId).Left) : openAt db poolId = false := by
  obtain ⟨s, hrow, hne⟩ := h
  have hrow : db.sharedRides.get poolId = some s := hrow
  simp [openAt, hrow, hne]

/-- A pool that was open and no longer is has left. -/
theorem left_of_leavesOpen (hi : PoolsInv db) {e : Step}
    (h : leavesOpen dist poolId (db, e) = true) :
    ((exec dist db e).poolView poolId).Left := by
  obtain ⟨ho, hn⟩ : openAt db poolId = true ∧ openAt (exec dist db e) poolId = false := by
    simpa [leavesOpen] using h
  have hsome : (db.poolView poolId).row.isSome := by
    obtain ⟨s, hs, -⟩ := (Option.any_eq_true _ _).mp ho
    exact Option.isSome_iff_exists.mpr ⟨s, hs⟩
  obtain ⟨s, hs⟩ := Option.isSome_iff_exists.mp
    ((poolSim_exec dist hi e).keeps (P := fun v ↦ v.row.isSome) (fun _ _ hst h ↦ hst.isSome h)
      poolId hsome)
  refine ⟨s, hs, fun hop ↦ ?_⟩
  have hs : (exec dist db e).sharedRides.get poolId = some s := hs
  simp [openAt, hs, hop] at hn

/-- The pool leaves its open state at most once. -/
theorem left_once (hi : PoolsInv db₀) (hr : Run (step dist) db₀ tr db) (poolId : PoolId) :
    tr.countP (leavesOpen dist poolId) ≤ 1 := by
  refine hr.countP_le_one (I := PoolsInv) (Q := fun db ↦ (db.poolView poolId).Left) hi
    (fun _ _ _ hi hst ↦ hi.step hst) ?_ ?_ ?_
  · rintro db e db' hi rfl hl
    exact left_of_leavesOpen hi hl
  · rintro db e db' hi rfl hleft
    exact (poolSim_exec dist hi e).keeps (fun _ _ hst h ↦ hst.left h) poolId hleft
  · intro db e db' _ _ hleft
    simp [leavesOpen, openAt_of_left hleft]

/-- Over a run, too, a pool is dispatched once. -/
theorem dispatchedOnce_of_run (hi : PoolsInv db₀)
    (hd : ∀ id, DispatchedOnce (db₀.poolView id)) (hr : Run (step dist) db₀ tr db) :
    PoolsInv db ∧ ∀ id, DispatchedOnce (db.poolView id) := by
  refine hr.invariant (I := fun db ↦ PoolsInv db ∧ ∀ id, DispatchedOnce (db.poolView id)) ?_ ⟨hi, hd⟩
  rintro db e db' ⟨hi, hd⟩ hst
  refine ⟨hi.step hst, fun id ↦ ?_⟩
  obtain rfl := hst
  exact ((poolSim_exec dist hi e).keeps (P := fun v ↦ PoolInv v ∧ DispatchedOnce v)
    (fun _ _ hst h ↦ ⟨h.1.step hst, h.1.dispatchedOnce h.2 hst⟩) id ⟨hi.pool id, hd id⟩).2

/-- A timeout for a pool that is not open changes nothing. -/
theorem closeIfOpen_of_not_open (h : ∀ s ∈ db.sharedRides, s.rideId = poolId → s.poolState ≠ .open_) :
    closeIfOpen dist t db poolId = .ok (db, .notOpen) := by
  unfold closeIfOpen
  cases hs : lockPool db poolId with
  | none => rfl
  | some s => simp only [h s (Table.mem_of_get hs) (Table.key_of_get hs), ne_eq, not_false_eq_true,
      ↓reduceIte]

end Runs

/-! ## Accepting a pool -/

section Accept

variable {db db' : Db} {t : TxClock} {accounts : Accounts} {offerId : OfferId}
  {driverId : DriverId} {trip : TripRef} {locked : LockedTrip} {out : AcceptOutcome}

/-- The itinerary of a pool that can be claimed is complete. -/
theorem seatsNeeded_ne_itineraryMissing (hi : PoolsInv db) (hl : lockTrip db trip = some locked) :
    seatsNeeded db locked ≠ .error .itineraryMissing := by
  cases trip with
  | solo rideId =>
      obtain ⟨r, -, rfl⟩ := Option.map_eq_some_iff.mp hl
      simp only [seatsNeeded]
      split_ifs <;> simp
  | shared poolId =>
      obtain ⟨s, hs, rfl⟩ := Option.map_eq_some_iff.mp hl
      have hid : s.rideId = poolId := Table.key_of_get hs
      have hrow : (db.poolView s.rideId).row = some s := by
        rw [hid]
        exact hs
      simp only [seatsNeeded]
      split_ifs with hd hc hn
      · simp
      · obtain ⟨hcount, hpos⟩ := (hi.pool s.rideId).seats s hrow
        have hopen : s.poolState ≠ .open_ := by
          intro ho
          rw [ho] at hc
          exact hc
        have hlen := ((hi.pool s.rideId).onceClosed s hrow hopen).2.2.length
        simp only [List.length_map] at hlen
        have hall : countAll db s.rideId = (db.poolView s.rideId).stops.length := rfl
        rcases hn with hn | hn
        · omega
        · exact absurd (by rw [hall, hlen, hcount]) hn
      · simp
      · simp

/-- Only the check of the itinerary answers that it is missing. -/
theorem acceptLive_itineraryMissing {o : DispatchOffer}
    (h : acceptLive t db accounts o driverId trip locked = .ok (db', out))
    (hout : out.result = .failed .itineraryMissing) :
    seatsNeeded db locked = .error .itineraryMissing := by
  have hres : ∀ {target : DispatchOfferState} {reason : AcceptOfferFailure},
      reason ≠ .itineraryMissing →
      ((resolveLive t db o.id target).andThen fun db _ ↦ .ok (db, rejected reason)) ≠
        .ok (db', out) := by
    intro target reason hne h
    obtain ⟨db₁, b, -, h⟩ := Tx.andThen_eq_ok.mp h
    obtain ⟨-, rfl⟩ := Tx.ok_inj h
    exact hne (AcceptOfferResult.failed.inj hout)
  have hrej : ∀ {db₁ : Db} {reason : AcceptOfferFailure}, reason ≠ .itineraryMissing →
      (.ok (db₁, rejected reason) : Tx AcceptOutcome) ≠ .ok (db', out) := by
    intro db₁ reason hne h
    obtain ⟨-, rfl⟩ := Tx.ok_inj h
    exact hne (AcceptOfferResult.failed.inj hout)
  unfold acceptLive at h
  split at h
  · exact absurd h (hres (by simp))
  split at h
  · exact absurd h (hres (by simp))
  split at h
  · rename_i reason hseats
    obtain ⟨-, rfl⟩ := Tx.ok_inj h
    rwa [AcceptOfferResult.failed.inj hout] at hseats
  split at h
  · exact absurd h (hrej (by simp))
  · exact absurd h (hrej (by simp))
  obtain ⟨db₁, guard, -, h⟩ := Tx.andThen_eq_ok.mp h
  cases guard with
  | ok =>
      obtain ⟨db₁, u₁, -, h⟩ := Tx.andThen_eq_ok.mp h
      obtain ⟨db₂, u₂, -, h⟩ := Tx.andThen_eq_ok.mp h
      obtain ⟨-, rfl⟩ := Tx.ok_inj h
      cases hout
  | driverBusy => exact absurd h (hrej (by simp))
  | tripTaken => exact absurd h (hrej (by simp))

theorem resolvedFailure_ne_itineraryMissing (state : DispatchOfferState) (takenBy : Option DriverId)
    (driverId : DriverId) : resolvedFailure state takenBy driverId ≠ .itineraryMissing := by
  unfold resolvedFailure
  split
  · split_ifs <;> simp
  · simp
  · simp

/-- No accept finds the itinerary missing. -/
theorem acceptInTx_ne_itineraryMissing (hi : PoolsInv db)
    (h : acceptInTx t db accounts offerId driverId trip = .ok (db', out)) :
    out.result ≠ .failed .itineraryMissing := by
  intro hout
  have hrej : ∀ {reason : AcceptOfferFailure}, reason ≠ .itineraryMissing →
      (.ok (db, rejected reason) : Tx AcceptOutcome) ≠ .ok (db', out) := by
    intro reason hne h
    obtain ⟨-, rfl⟩ := Tx.ok_inj h
    exact hne (AcceptOfferResult.failed.inj hout)
  unfold acceptInTx at h
  split at h
  · exact hrej (by simp) h
  rename_i locked hlock
  split at h
  · exact hrej (by simp) h
  split at h
  · exact hrej (by simp) h
  split at h
  · split at h
    · split at h
      · obtain ⟨-, rfl⟩ := Tx.ok_inj h
        cases hout
      · exact hrej (by simp) h
    · exact hrej (by simp) h
  split at h
  · exact hrej (resolvedFailure_ne_itineraryMissing _ _ _) h
  · exact seatsNeeded_ne_itineraryMissing hi hlock (acceptLive_itineraryMissing h hout)

end Accept

section Closed

variable {D : Type u} [LinearOrder D] {db₀ db : Db} {tr : List (Db × Step)}

/-- The itinerary of a closed pool is one pickup and one dropoff for each of its members. -/
theorem itinerary_of_closed (hi : PoolsInv db) {s : SharedRide} (hs : s ∈ db.sharedRides)
    (hne : s.poolState ≠ .open_) :
    (findByRideId db s.rideId).map RideStop.sequenceIndex = List.range (2 * s.seatCount) ∧
      ∀ p type, (findByRideId db s.rideId).countP (fun x ↦ x.passengerId = p ∧ x.type = type) =
        if db.poolMember.Any fun m ↦ m.poolId = s.rideId ∧ m.passengerId = p then 1 else 0 := by
  have hrow : (db.poolView s.rideId).row = some s := Table.get_of_mem hs
  obtain ⟨-, -, hit⟩ := (hi.pool s.rideId).onceClosed s hrow hne
  obtain ⟨hcount, -⟩ := (hi.pool s.rideId).seats s hrow
  rw [(hi.pool s.rideId).findByRideId_eq]
  constructor
  · have := hit.indexes
    rw [List.map_map, List.length_map, ← hcount] at this
    exact this
  · intro p type
    have hcp := hit.count p type
    rw [List.countP_map] at hcp
    refine (List.countP_congr fun x _ ↦ Iff.rfl).trans (hcp.trans ?_)
    -- A passenger has one row a pool.
    have hnodup : ((db.poolView s.rideId).members.map PoolMember.passengerId).Nodup :=
      Table.nodup_map_filter fun m m' hm hm' hp ↦ Prod.ext (hm.trans hm'.symm) hp
    have hmem : p ∈ (db.poolView s.rideId).members.map PoolMember.passengerId ↔
        db.poolMember.Any fun m ↦ m.poolId = s.rideId ∧ m.passengerId = p := by
      constructor
      · intro h
        obtain ⟨m, hm, hp⟩ := List.mem_map.mp h
        obtain ⟨hm, hpool⟩ := Table.mem_filter.mp hm
        exact ⟨m, hm, hpool, hp⟩
      · rintro ⟨m, hm, hpool, hp⟩
        exact List.mem_map.mpr ⟨m, Table.mem_filter.mpr ⟨hm, hpool⟩, hp⟩
    split_ifs with hany
    · exact List.count_eq_one_of_mem hnodup (hmem.mpr hany)
    · exact List.count_eq_zero.mpr (mt hmem.mp hany)

/-- The one intent of a closed pool. -/
theorem intent_of_closed (hi : PoolsInv db) (hd : ∀ id, DispatchedOnce (db.poolView id))
    {s : SharedRide} (hs : s ∈ db.sharedRides) (hne : s.poolState ≠ .open_) :
    (db.outbox.filter fun r ↦ r.dedupeKey.topic = .poolDispatchRequested ∧
      r.dedupeKey.aggregateId = s.rideId).map OutboxRow.dedupeKey =
        [⟨.poolDispatchRequested, s.rideId, 1⟩] := by
  have hrow : (db.poolView s.rideId).row = some s := Table.get_of_mem hs
  obtain ⟨-, hin, -⟩ := (hi.pool s.rideId).onceClosed s hrow hne
  have hkey : ∀ r ∈ db.outbox, r.dedupeKey.topic = .poolDispatchRequested ∧
      r.dedupeKey.aggregateId = s.rideId →
      r.dedupeKey = ⟨.poolDispatchRequested, s.rideId, 1⟩ := by
    rintro r hr ⟨ht, ha⟩
    have heq : r.dedupeKey = ⟨.poolDispatchRequested, s.rideId, r.dedupeKey.generation⟩ := by
      rw [← ht, ← ha]
    have hg := (hd s.rideId r.dedupeKey.generation
      (Option.isSome_iff_exists.mpr ⟨r, heq ▸ Table.get_of_mem hr⟩)).1
    rw [heq, hg]
  have hle := Table.length_filter_le_one (t := db.outbox)
    (q := fun r ↦ r.dedupeKey.topic = .poolDispatchRequested ∧ r.dedupeKey.aggregateId = s.rideId)
    fun r hr r' hr' hq hq' ↦ (hkey r hr hq).trans (hkey r' hr' hq').symm
  obtain ⟨r, hr⟩ := Option.isSome_iff_exists.mp hin
  have hk : r.dedupeKey = ⟨.poolDispatchRequested, s.rideId, 1⟩ := Table.key_of_get hr
  have hmem : r ∈ db.outbox.filter fun r ↦ r.dedupeKey.topic = .poolDispatchRequested ∧
      r.dedupeKey.aggregateId = s.rideId :=
    Table.mem_filter.mpr ⟨Table.mem_of_get hr, by simp [hk]⟩
  obtain ⟨r', hl⟩ := List.length_eq_one_iff.mp
    (le_antisymm hle (List.length_pos_of_mem hmem))
  rw [hl, List.mem_singleton] at hmem
  rw [hl, ← hmem, List.map_singleton, hk]

/-- **Closed once**: in every run, a pool leaves its open state at most once; a pool closed
full or by timeout is at generation 1, with one dispatch intent and the itinerary of exactly
its members; a timeout for a pool that is not open changes nothing; and no accept answers
that the itinerary is missing. -/
theorem closed_once (dist : Point → Point → D) (h₀ : db₀.NoPools)
    (hout : ∀ r ∈ db₀.outbox, r.dedupeKey.topic ≠ .poolDispatchRequested)
    (hr : Run (step dist) db₀ tr db) :
    (∀ poolId, tr.countP (leavesOpen dist poolId) ≤ 1) ∧
    (∀ s ∈ db.sharedRides, s.poolState = .closedFull ∨ s.poolState = .closedTimeout →
      s.dispatchGeneration = 1 ∧
      (db.outbox.filter fun r ↦ r.dedupeKey.topic = .poolDispatchRequested ∧
        r.dedupeKey.aggregateId = s.rideId).map OutboxRow.dedupeKey =
          [⟨.poolDispatchRequested, s.rideId, 1⟩] ∧
      (findByRideId db s.rideId).map RideStop.sequenceIndex = List.range (2 * s.seatCount) ∧
      ∀ p type, (findByRideId db s.rideId).countP (fun x ↦ x.passengerId = p ∧ x.type = type) =
        if db.poolMember.Any fun m ↦ m.poolId = s.rideId ∧ m.passengerId = p then 1 else 0) ∧
    (∀ t poolId, (∀ s ∈ db.sharedRides, s.rideId = poolId → s.poolState ≠ .open_) →
      closeIfOpen dist t db poolId = .ok (db, .notOpen)) ∧
    ∀ t accounts offerId driverId trip db' out,
      acceptInTx t db accounts offerId driverId trip = .ok (db', out) →
        out.result ≠ .failed .itineraryMissing := by
  have hi₀ := PoolsInv.of_noPools h₀
  have hd₀ : ∀ id, DispatchedOnce (db₀.poolView id) := by
    intro id g hg
    obtain ⟨r, hr⟩ := Option.isSome_iff_exists.mp hg
    have hk : r.dedupeKey = ⟨.poolDispatchRequested, id, g⟩ := Table.key_of_get hr
    exact absurd (by rw [hk]) (hout r (Table.mem_of_get hr))
  obtain ⟨hi, hd⟩ := dispatchedOnce_of_run hi₀ hd₀ hr
  refine ⟨left_once hi₀ hr, fun s hs hc ↦ ?_, fun t poolId h ↦ closeIfOpen_of_not_open h,
    fun t accounts offerId driverId trip db' out ↦ acceptInTx_ne_itineraryMissing hi⟩
  have hne : s.poolState ≠ .open_ := by
    rintro ho
    rw [ho] at hc
    rcases hc with hc | hc <;> cases hc
  exact ⟨((hi.pool s.rideId).onceClosed s (Table.get_of_mem hs) hne).1,
    intent_of_closed hi hd hs hne, itinerary_of_closed hi hs hne⟩

/-- The sample pool, closed by its timeout. -/
def sampleTimedOut : Db := exec (D := ℕ) (fun _ _ ↦ 0) samplePooled (.closeIfOpen ⟨60000, 60000⟩ 1)

theorem sampleTimedOut_dispatched : ∃ s ∈ sampleTimedOut.sharedRides,
    s.poolState = .closedTimeout ∧ s.dispatchGeneration = 1 := by
  have hany : sampleTimedOut.sharedRides.Any fun s ↦ s.poolState = .closedTimeout := by decide
  obtain ⟨s, hs, hc⟩ := hany
  have hopen : step (D := ℕ) (fun _ _ ↦ 0) .empty (.openPool ⟨0, 0⟩ samplePool) samplePooled := rfl
  have hclose : step (D := ℕ) (fun _ _ ↦ 0) samplePooled (.closeIfOpen ⟨60000, 60000⟩ 1)
      sampleTimedOut := rfl
  have hrun := (Run.single hopen).snoc hclose
  have hout : ∀ r ∈ Db.empty.outbox, r.dedupeKey.topic ≠ .poolDispatchRequested :=
    fun r hr ↦ absurd hr (Table.notMem_empty r)
  exact ⟨s, hs, hc, ((closed_once (D := ℕ) (fun _ _ ↦ 0) Db.empty_noPools hout hrun).2.1 s hs
    (Or.inr hc)).1⟩

end Closed

end Rcab
