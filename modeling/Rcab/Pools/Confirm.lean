import Rcab.Pools.Refine

/-!
# Stop confirmation

For a pool satisfying the invariant, `confirmStop` never throws: it refuses, answers a
confirmed stop again, or confirms the first pending stop, and then the pool's state, its
version and its members move together (`confirmStop_spec`).
-/

namespace Rcab

open Dispatch Matching RideLifecycle
open Relation (ReflTransGen)

/-! ## The itinerary as it is read -/

/-- In a sorted itinerary the first stop that is pending is the lowest. -/
theorem firstPending_of_find {stops : List RideStop}
    (hsorted : stops.Pairwise fun a b ↦ a.sequenceIndex ≤ b.sequenceIndex) {s : RideStop}
    (h : stops.find? (fun s ↦ s.confirmedAt = none) = some s) :
    FirstPending stops s.sequenceIndex := by
  obtain ⟨hs, as, bs, rfl, has⟩ := List.find?_eq_some_iff_append.mp h
  refine ⟨⟨s, by simp, rfl, by simpa using hs⟩, fun x hx hxn ↦ ?_⟩
  rcases List.mem_append.mp hx with hx | hx
  · exact absurd hxn (by simpa using has x hx)
  · rcases List.mem_cons.mp hx with rfl | hx
    · exact le_rfl
    · exact (List.pairwise_cons.mp (List.pairwise_append.mp hsorted).2.1).1 x hx

namespace PoolInv

variable {v : PoolView} {db : Db} {poolId : PoolId}

theorem sorted (h : PoolInv v) :
    v.stops.Pairwise fun a b ↦ a.sequenceIndex ≤ b.sequenceIndex := by
  have := List.pairwise_le_range (n := v.stops.length)
  rw [← h.range] at this
  exact List.pairwise_map.mp this

theorem nodup_stops (h : PoolInv v) : v.stops.Nodup := by
  have := List.nodup_range (n := v.stops.length)
  rw [← h.range] at this
  exact this.of_map _

/-- A stop is determined by its index. -/
theorem stop_ext (h : PoolInv v) {x y : RideStop} (hx : x ∈ v.stops) (hy : y ∈ v.stops)
    (hxy : x.sequenceIndex = y.sequenceIndex) : x = y := by
  have := List.nodup_range (n := v.stops.length)
  rw [← h.range] at this
  exact List.inj_on_of_nodup_map this hx hy hxy

/-- One more confirmation leaves nothing pending just when no other stop is pending. -/
theorem pending_iff (h : PoolInv v) {s : RideStop} (hs : s ∈ v.stops) (hn : s.confirmedAt = none) :
    (v.stops.filter fun s ↦ s.confirmedAt = none).length - 1 = 0 ↔
      ∀ x ∈ v.stops, x.confirmedAt = none → x.sequenceIndex = s.sequenceIndex := by
  have hmem : s ∈ v.stops.filter fun s ↦ s.confirmedAt = none := by simp [hs, hn]
  constructor
  · intro hlen x hx hxn
    have hx : x ∈ v.stops.filter fun s ↦ s.confirmedAt = none := by simp [hx, hxn]
    have hpos := List.length_pos_of_mem hmem
    obtain ⟨a, ha⟩ := List.length_eq_one_iff.mp
      (show (v.stops.filter fun s ↦ s.confirmedAt = none).length = 1 by omega)
    rw [ha, List.mem_singleton] at hx hmem
    rw [hx, hmem]
  · intro hall
    have hsub : (v.stops.filter fun s ↦ s.confirmedAt = none) ⊆ [s] := by
      intro x hx
      obtain ⟨hx, hxn⟩ := List.mem_filter.mp hx
      exact List.mem_singleton.mpr (h.stop_ext hx hs (hall x hx (by simpa using hxn)))
    have := (List.subperm_of_subset (h.nodup_stops.filter _) hsub).length_le
    simp only [List.length_singleton] at this
    omega

/-- The first stop of a pool is a pickup. -/
theorem first_pickup (h : PoolInv v) {s : SharedRide} (hrow : v.row = some s) {x : RideStop}
    (hx : x ∈ v.stops) (h0 : x.sequenceIndex = 0) : x.type = .pickup := by
  by_cases ho : s.poolState = .open_
  · rw [(h.whileOpen s hrow ho).2] at hx
    cases hx
  obtain ⟨-, -, hi⟩ := h.onceClosed s hrow ho
  obtain ⟨hcount, hpos⟩ := h.seats s hrow
  have hne : v.members.map PoolMember.passengerId ≠ [] := by
    rw [← List.length_pos_iff, List.length_map]
    omega
  obtain ⟨j, hj, rfl⟩ := List.getElem_of_mem hx
  have hj' : j < (v.stops.map RideStop.plan).length := by simpa using hj
  have hidx := hi.sequenceIndex hj'
  rw [List.getElem_map] at hidx
  obtain rfl : j = 0 := hidx.symm.trans h0
  have := (hi.head hne).2 hj'
  rwa [List.getElem_map] at this

/-- The rows are read in sequence order, as they are. -/
theorem findByRideId_eq (h : PoolInv (db.poolView poolId)) :
    findByRideId db poolId = (db.poolView poolId).stops :=
  List.Pairwise.insertionSort_eq h.sorted

end PoolInv

/-! ## One pool at a time -/

/-- The databases differ in one pool only, which is now `v`. -/
structure Only (poolId : PoolId) (v : PoolView) (db db' : Db) : Prop where
  here : db'.poolView poolId = v
  others : ∀ id, id ≠ poolId → db'.poolView id = db.poolView id
  activeOnce : ActiveOnce db → ActiveOnce db'

namespace Only

variable {poolId : PoolId} {v : PoolView} {db db' : Db} {now : Time} {f : SharedRide → SharedRide}
  {s : SharedRide}

theorem sim (h : Only poolId v db db') (hst : PoolStep (db.poolView poolId) v) : PoolSim db db' :=
  .of_step _ (h.here ▸ hst) h.others h.activeOnce

theorem get (h : Only poolId v db db') : db'.sharedRides.get poolId = v.row := by
  rw [← h.here]
  rfl

/-- An update that does not end the pool. -/
theorem update (h : Only poolId v db db') (hf : ∀ s, (f s).rideId = s.rideId)
    (hs : v.row = some s) (hlive : (f s).poolState.Terminal → s.poolState = (f s).poolState) :
    Only poolId
      ⟨some ((f s).withVersion (s.stateVersion + 1)), v.members, v.stops, v.dispatch, v.expire⟩
      db (db'.updatePool now poolId f hf) where
  here := by
    rw [poolView_updatePool_live (h.get.trans hs) hlive, h.here]
  others id hne := (poolView_updatePool_ne hne).trans (h.others id hne)
  activeOnce ha := (h.activeOnce ha).updatePool hf

/-- An update that ends the pool. -/
theorem finish (h : Only poolId v db db') (now : Time) (hf : ∀ s, (f s).rideId = s.rideId)
    (hs : v.row = some s) (ht : (f s).poolState.Terminal) (hne : s.poolState ≠ (f s).poolState) :
    Only poolId
      ⟨some ((f s).withVersion (s.stateVersion + 1)), releaseAll now v.members, v.stops, v.dispatch,
        v.expire⟩
      db (db'.updatePool now poolId f hf) where
  here := by
    rw [poolView_updatePool_over hf (h.get.trans hs) ht hne, h.here]
  others id hne' := (poolView_updatePool_ne hne').trans (h.others id hne')
  activeOnce ha := (h.activeOnce ha).updatePool hf

end Only

variable {t : TxClock} {db db' : Db} {poolId : PoolId}

/-- The stops of a pool after one stop of `poolId` was stamped. -/
theorem stops_confirm (t : TxClock) (db : Db) (poolId : PoolId) (i : ℕ) (id : PoolId) :
    (db.rideStops.update (fun x ↦ x.pkey = (poolId, i))
        fun x ↦ { x with confirmedAt := some t.now }).filter (fun x ↦ x.rideId = id) =
      if id = poolId then stamp i t.now (db.poolView id).stops else (db.poolView id).stops := by
  refine (Table.filter_update (f := fun x : RideStop ↦ { x with confirmedAt := some t.now })
    (fun _ ↦ rfl) fun _ _ _ ↦ Iff.rfl).trans ?_
  split_ifs with hid
  · subst hid
    refine List.map_congr_left fun x hx ↦ ?_
    have hx : x.rideId = id := (Table.mem_filter.mp hx).2
    simp only [RideStop.pkey, hx, Prod.mk.injEq, true_and]
  · conv_rhs => rw [← List.map_id (db.poolView id).stops]
    refine List.map_congr_left fun x hx ↦ if_neg fun hp ↦ hid ?_
    exact (Table.mem_filter.mp hx).2.symm.trans (congrArg Prod.fst hp)

/-- The stamp of one pending stop. -/
theorem confirm_pending {s : RideStop} (hs : s ∈ (db.poolView poolId).stops)
    (hn : s.confirmedAt = none) :
    ∃ db', confirm t db poolId s.sequenceIndex = (db', some { s with confirmedAt := some t.now }) ∧
      db'.driverActiveAssignment = db.driverActiveAssignment ∧
      Only poolId
        ⟨(db.poolView poolId).row, (db.poolView poolId).members,
          stamp s.sequenceIndex t.now (db.poolView poolId).stops, (db.poolView poolId).dispatch,
          (db.poolView poolId).expire⟩ db db' := by
  obtain ⟨hmem, hid⟩ := Table.mem_filter.mp hs
  have hget : db.rideStops.get (poolId, s.sequenceIndex) = some s :=
    Table.get_eq_some.mpr ⟨hmem, by rw [RideStop.pkey, hid]⟩
  have hfind : (db.rideStops.get (poolId, s.sequenceIndex)).filter (fun s ↦ s.confirmedAt = none) =
      some s := by
    rw [hget, Option.filter_some, if_pos (by simpa using hn)]
  unfold confirm
  rw [hfind]
  refine ⟨_, rfl, rfl, ?_, fun id hne ↦ ?_, id⟩
  · have := stops_confirm t db poolId s.sequenceIndex poolId
    rw [if_pos rfl] at this
    rw [← this]
    rfl
  · have := stops_confirm t db poolId s.sequenceIndex id
    rw [if_neg hne] at this
    exact congrArg (PoolView.mk (db.poolView id).row (db.poolView id).members ·
      (db.poolView id).dispatch (db.poolView id).expire) this

/-! ## The pool's part -/

/-- Confirming stop `i` of a claimed pool: it is in its closed state before the first stop,
and has started from then on. -/
theorem PoolInv.claimed_state {v : PoolView} (h : PoolInv v) {s : SharedRide} {d : DriverId}
    (hrow : v.row = some s) (hd : s.claimedByDriverId = some d) {i : ℕ}
    (hf : FirstPending v.stops i) :
    if i = 0 then s.poolState.Claimable else s.poolState = .closedStarted := by
  obtain ⟨-, hlt, hr⟩ := h.next hrow hf
  have hc := h.claimed s d hrow hd
  cases hst : s.poolState <;> rw [hst] at hr hc <;>
    simp_all [PoolState.Reached, PoolState.Closed, PoolState.Claimable]
  omega

variable {input : StopConfirmInput} {v : PoolView} {s : SharedRide}

/-- The first pickup starts the pool. -/
theorem only_markRideStarted (h : Only poolId v db db') (hs : v.row = some s)
    (hc : s.poolState.Claimable) :
    Only poolId
      ⟨some (s.start.withVersion (s.stateVersion + 1)), v.members, v.stops, v.dispatch, v.expire⟩
      db (markRideStarted t db' poolId) := by
  have hget := h.get.trans hs
  have hany : db'.sharedRides.Any fun s ↦ s.rideId = poolId ∧ s.poolState.Claimable :=
    ⟨s, Table.mem_of_get hget, Table.key_of_get hget, hc⟩
  rw [markRideStarted, if_pos hany]
  exact h.update SharedRide.start_rideId hs False.elim

/-- The last stop completes a started pool and releases its members. -/
theorem only_completeWhenDone (h : Only input.rideId v db db') (hs : v.row = some s)
    (hc : s.poolState = .closedStarted) :
    ∃ db'', completeWhenDone t db' input 0 = .ok (db'', ()) ∧ Only input.rideId
      ⟨some ((s.complete t.now).withVersion (s.stateVersion + 1)), releaseAll t.now v.members,
        v.stops, v.dispatch, v.expire⟩ db db'' := by
  have hget := h.get.trans hs
  have hany : db'.sharedRides.Any fun s ↦ s.rideId = input.rideId ∧ s.poolState.Closed :=
    ⟨s, Table.mem_of_get hget, Table.key_of_get hget, by rw [hc]; trivial⟩
  have hfin := h.finish t.now (SharedRide.complete_rideId t.now) hs trivial (by simp [hc])
  simp only [completeWhenDone, markRideCompleted, hany, ↓reduceIte]
  exact ⟨_, rfl, hfin.here, hfin.others, hfin.activeOnce⟩

/-- Every confirmation bumps the version once more. -/
theorem only_touchPool (h : Only poolId v db db') (hs : v.row = some s) :
    ∃ db'', touchPool t db' poolId = (db'', some (s.stateVersion + 1)) ∧ Only poolId
      ⟨some (s.withVersion (s.stateVersion + 1)), v.members, v.stops, v.dispatch, v.expire⟩
      db db'' := by
  refine ⟨_, by rw [touchPool, h.get.trans hs]; rfl, ?_⟩
  exact h.update (f := fun s ↦ s) (fun _ ↦ rfl) hs fun _ ↦ rfl

/-- What a confirmation can do. -/
inductive Confirms (db : Db) (input : StopConfirmInput) : Db → StopConfirmResult → Prop
  /-- Nothing. -/
  | refused (reason : StopConfirmFailure) : Confirms db input db (.failed reason)
  /-- A confirmed stop is answered again. -/
  | repeated (c : StopConfirmed) (hc : c.duplicate = true) : Confirms db input db (.ok c)
  /-- The first pending stop is confirmed. -/
  | confirmed (s s' : SharedRide) (db' : Db) (c : StopConfirmed)
      (hs : db.sharedRides.get input.rideId = some s)
      (hd : s.claimedByDriverId = some input.driverId)
      (hs' : db'.sharedRides.get input.rideId = some s')
      (hc : c.duplicate = false) (hv : c.version = s'.stateVersion)
      (hlt : s.stateVersion < s'.stateVersion)
      (hst : PoolStep (db.poolView input.rideId) (db'.poolView input.rideId))
      (hsim : PoolSim db db') : Confirms db input db' (.ok c)

/-- A started row is a claimed row, moved on. -/
theorem moves_of_started {s₁ s' : SharedRide} (now : Time)
    (h : s₁ = s ∨ s₁ = s.start.withVersion (s.stateVersion + 1))
    (h' : s' = s₁.withVersion (s₁.stateVersion + 1) ∨
      s' = ((s₁.complete now).withVersion (s₁.stateVersion + 1)).withVersion
        (s₁.stateVersion + 1 + 1)) :
    Moves s s' := by
  rcases h with rfl | rfl <;> rcases h' with rfl | rfl <;>
    refine ⟨rfl, rfl, rfl, rfl, ?_⟩ <;>
    simp only [SharedRide.withVersion, SharedRide.start] <;> omega

theorem confirmPending_spec (h : PoolInv (db.poolView input.rideId))
    (hrow : db.sharedRides.get input.rideId = some s)
    (hd : s.claimedByDriverId = some input.driverId) {target : RideStop}
    (ht : target ∈ (db.poolView input.rideId).stops)
    (hidx : target.sequenceIndex = input.sequenceIndex) (hty : target.type = input.type)
    (hn : target.confirmedAt = none)
    (hf : FirstPending (db.poolView input.rideId).stops target.sequenceIndex) :
    ∃ db' r, confirmPending t db input (db.poolView input.rideId).stops = .ok (db', r) ∧
      Confirms db input db' r := by
  obtain ⟨db₁, h₁, -, ho₁⟩ := confirm_pending (t := t) ht hn
  have hlast := h.pending_iff ht hn
  have hstate := h.claimed_state hrow hd hf
  obtain ⟨hconf, -, -⟩ := h.next hrow hf
  -- The pool starts with its first stop, which is a pickup.
  have hstart : (input.type = .pickup ∧
      (db.poolView input.rideId).stops.all (·.confirmedAt = none)) ↔ target.sequenceIndex = 0 := by
    rw [List.all_eq_true]
    constructor
    · rintro ⟨-, hall⟩
      by_contra h0
      obtain ⟨x, hx, hx0⟩ := (mem_of_range h.range).1 0 (List.length_pos_of_mem ht)
      have := (hconf x hx).mpr (by omega)
      exact this (by simpa using hall x hx)
    · intro h0
      refine ⟨hty ▸ h.first_pickup hrow ht h0, fun x hx ↦ ?_⟩
      have : ¬ x.confirmedAt ≠ none := fun hc ↦ by
        have := (hconf x hx).mp hc
        omega
      simpa using this
  obtain ⟨s₁, hs₁, hs₁s, ho₂⟩ : ∃ s₁ : SharedRide, s₁.poolState = .closedStarted ∧
      (s₁ = s ∨ s₁ = s.start.withVersion (s.stateVersion + 1)) ∧ Only input.rideId
        ⟨some s₁, (db.poolView input.rideId).members,
          stamp target.sequenceIndex t.now (db.poolView input.rideId).stops,
          (db.poolView input.rideId).dispatch, (db.poolView input.rideId).expire⟩ db
        (if input.type = .pickup ∧ (db.poolView input.rideId).stops.all (·.confirmedAt = none) then
          markRideStarted t db₁ input.rideId else db₁) := by
    by_cases h0 : target.sequenceIndex = 0
    · rw [if_pos h0] at hstate
      rw [if_pos (hstart.mpr h0)]
      exact ⟨_, rfl, Or.inr rfl, only_markRideStarted ho₁ hrow hstate⟩
    · rw [if_neg h0] at hstate
      rw [if_neg (mt hstart.mp h0)]
      have hrow' : (db.poolView input.rideId).row = some s := hrow
      exact ⟨s, hstate, Or.inl rfl, hrow' ▸ ho₁⟩
  unfold confirmPending
  rw [← hidx, h₁]
  dsimp only
  by_cases hall : ∀ x ∈ (db.poolView input.rideId).stops, x.confirmedAt = none →
      x.sequenceIndex = target.sequenceIndex
  · -- It is the last one.
    rw [hlast.mpr hall]
    obtain ⟨db₃, h₃, ho₃⟩ := only_completeWhenDone (t := t) ho₂ rfl hs₁
    obtain ⟨db₄, h₄, ho₄⟩ := only_touchPool (t := t) ho₃ rfl
    rw [h₃, Tx.andThen_ok, h₄]
    have hmv := moves_of_started t.now hs₁s (Or.inr rfl)
    have hst := PoolStep.completed s _ input.driverId _ t.now hrow hd hf hall rfl hmv
    exact ⟨_, _, rfl, .confirmed s _ db₄ _ hrow hd ho₄.get rfl rfl hmv.stateVersion
      (ho₄.here ▸ hst) (ho₄.sim hst)⟩
  · have hne := mt hlast.mp hall
    rw [completeWhenDone, if_neg hne, Tx.andThen_ok]
    obtain ⟨db₄, h₄, ho₄⟩ := only_touchPool (t := t) ho₂ rfl
    rw [h₄]
    have hmv := moves_of_started t.now hs₁s (Or.inl rfl)
    have hmore : ∃ x ∈ (db.poolView input.rideId).stops, x.confirmedAt = none ∧
        x.sequenceIndex ≠ target.sequenceIndex := by
      simpa using hall
    have hst := PoolStep.confirmed s (s₁.withVersion (s₁.stateVersion + 1)) input.driverId _ t.now
      hrow hd hf hmore hs₁ hmv
    exact ⟨_, _, rfl, .confirmed s _ db₄ _ hrow hd ho₄.get rfl rfl hmv.stateVersion
      (ho₄.here ▸ hst) (ho₄.sim hst)⟩

/-- A confirmation never throws. -/
theorem confirmStop_spec (h : PoolInv (db.poolView input.rideId)) :
    ∃ db' r, confirmStop t db input = .ok (db', r) ∧ Confirms db input db' r := by
  unfold confirmStop
  cases hrow : lockSharedTrip db input.rideId with
  | none => exact ⟨db, _, rfl, .refused _⟩
  | some pool =>
  dsimp only
  rw [h.findByRideId_eq]
  by_cases hd : pool.claimedByDriverId ≠ some input.driverId
  · rw [if_pos hd]
    exact ⟨db, _, rfl, .refused _⟩
  rw [if_neg hd]
  split
  · exact ⟨db, _, rfl, .refused _⟩
  rename_i target htarget
  have ht := List.mem_of_find?_eq_some htarget
  have hidx : target.sequenceIndex = input.sequenceIndex := by
    simpa using List.find?_some htarget
  split_ifs with hty hconf hfirst
  · exact ⟨db, _, rfl, .refused _⟩
  · exact ⟨db, _, rfl, .repeated _ rfl⟩
  · exact ⟨db, _, rfl, .refused _⟩
  · have hn : target.confirmedAt = none := by simpa using hconf
    obtain ⟨first, hfind, hi⟩ : ∃ first,
        (db.poolView input.rideId).stops.find? (fun s ↦ s.confirmedAt = none) = some first ∧
          first.sequenceIndex = input.sequenceIndex := by
      cases hfind : (db.poolView input.rideId).stops.find? fun s ↦ s.confirmedAt = none with
      | none => simp [hfind] at hfirst
      | some first => exact ⟨first, rfl, by simpa [hfind] using hfirst⟩
    have hf := firstPending_of_find h.sorted hfind
    rw [hi, ← hidx] at hf
    exact confirmPending_spec h hrow (not_not.mp hd) ht hidx (not_not.mp hty) hn hf

end Rcab
