import Rcab.Pools.Simulation
import Rcab.Realtime.DriverViews

/-!
# Versions tell confirmations

The version of a pool grows with every confirmation and none is ever taken back, so of two states
of a pool the one of the higher version confirms no less (`holds_of_version`).  The echo of a
confirmation carries the version of the state it led to (`confirmStop_echo`).
-/

universe u

namespace Rcab

open Matching RideLifecycle
open Relation (ReflTransGen)

/-- What can come true of an itinerary. -/
inductive TripFact where
  | confirmed (sequenceIndex : ℕ)
  | completed
deriving DecidableEq

/-- It came true of these stops. -/
def TripFact.Holds (stops : List RideStop) : TripFact → Prop
  | .confirmed i => ∃ x ∈ stops, x.sequenceIndex = i ∧ x.confirmedAt ≠ none
  | .completed => stops ≠ [] ∧ ∀ x ∈ stops, x.confirmedAt ≠ none

/-- The same itinerary, once there is one, with no confirmation lost. -/
structure Onward (stops stops' : List RideStop) : Prop where
  holds : ∀ f : TripFact, f.Holds stops → f.Holds stops'
  indexes : stops ≠ [] → stops'.map RideStop.sequenceIndex = stops.map RideStop.sequenceIndex

/-- `v'` is the same or a later state of the pool. -/
def PoolView.Later (v v' : PoolView) : Prop :=
  ∀ s, v.row = some s → ∃ s', v'.row = some s' ∧
    ((s' = s ∧ v'.stops = v.stops) ∨
      s.stateVersion < s'.stateVersion ∧ Onward v.stops v'.stops)

variable {v v' v'' : PoolView}

/-! ## One step -/

theorem TripFact.not_holds_nil (f : TripFact) : ¬ f.Holds [] := by
  cases f with
  | confirmed i => exact fun ⟨_, hx, _⟩ ↦ List.not_mem_nil hx
  | completed => exact fun h ↦ h.1 rfl

theorem TripFact.Holds.stamp {i : ℕ} {now : Time} {stops : List RideStop} {f : TripFact}
    (h : f.Holds stops) : f.Holds (stamp i now stops) := by
  have hkeep : ∀ x : RideStop, x.confirmedAt ≠ none →
      (if x.sequenceIndex = i then { x with confirmedAt := some now } else x).confirmedAt ≠ none := by
    intro x hx
    split_ifs
    · exact Option.some_ne_none _
    · exact hx
  cases f with
  | confirmed j =>
      obtain ⟨x, hx, hj, hc⟩ := h
      refine ⟨_, List.mem_map_of_mem hx, ?_, hkeep x hc⟩
      split_ifs <;> exact hj
  | completed =>
      obtain ⟨hne, hall⟩ := h
      refine ⟨fun hnil ↦ hne (List.map_eq_nil_iff.mp hnil), fun y hy ↦ ?_⟩
      obtain ⟨x, hx, rfl⟩ := List.mem_map.mp hy
      exact hkeep x (hall x hx)

theorem stamp_sequenceIndex (i : ℕ) (now : Time) (stops : List RideStop) :
    (stamp i now stops).map RideStop.sequenceIndex = stops.map RideStop.sequenceIndex := by
  rw [stamp, List.map_map]
  refine List.map_congr_left fun s _ ↦ ?_
  simp only [Function.comp_apply]
  split_ifs <;> rfl

namespace Onward

variable {stops stops' stops'' : List RideStop}

theorem refl : Onward stops stops := ⟨fun _ h ↦ h, fun _ ↦ rfl⟩

theorem of_nil (h : stops = []) : Onward stops stops' :=
  ⟨fun f hf ↦ absurd (h ▸ hf) f.not_holds_nil, fun hne ↦ absurd h hne⟩

theorem stamp (i : ℕ) (now : Time) : Onward stops (stamp i now stops) :=
  ⟨fun _ hf ↦ hf.stamp, fun _ ↦ stamp_sequenceIndex i now stops⟩

theorem trans (h : Onward stops stops') (h' : Onward stops' stops'') : Onward stops stops'' where
  holds f hf := h'.holds f (h.holds f hf)
  indexes hne := by
    have hne' : stops' ≠ [] := by
      rintro rfl
      exact hne (List.map_eq_nil_iff.mp (h.indexes hne).symm)
    rw [h'.indexes hne', h.indexes hne]

end Onward

theorem PoolStep.later (h : PoolStep v v') (hi : PoolInv v) : v.Later v' := by
  intro s hrow
  have heq : ∀ {s₀ : SharedRide}, v.row = some s₀ → s₀ = s := fun h₀ ↦
    Option.some.inj (h₀.symm.trans hrow)
  cases h with
  | idle => exact ⟨s, hrow, Or.inl ⟨rfl, rfl⟩⟩
  | opened _ _ hnone =>
      rw [hrow] at hnone
      cases hnone
  | joined s₀ _ h₀ => exact ⟨_, rfl, Or.inr ⟨heq h₀ ▸ Nat.lt_succ_self _, .refl⟩⟩
  | closed s₀ _ _ _ h₀ ho =>
      -- An open pool has no stops.
      exact ⟨_, rfl, Or.inr ⟨heq h₀ ▸ Nat.lt_succ_self _, .of_nil (hi.whileOpen s₀ h₀ ho).2⟩⟩
  | retired s₀ s' _ h₀ _ _ _ hmv =>
      exact ⟨_, rfl, Or.inr ⟨heq h₀ ▸ hmv.stateVersion, .refl⟩⟩
  | claimed s₀ _ _ h₀ => exact ⟨_, rfl, Or.inr ⟨heq h₀ ▸ Nat.lt_succ_self _, .refl⟩⟩
  | aborted s₀ s' _ h₀ _ _ _ hmv =>
      exact ⟨_, rfl, Or.inr ⟨heq h₀ ▸ hmv.stateVersion, .refl⟩⟩
  | confirmed s₀ s' _ _ _ h₀ _ _ _ _ hmv =>
      exact ⟨_, rfl, Or.inr ⟨heq h₀ ▸ hmv.stateVersion, .stamp _ _⟩⟩
  | completed s₀ s' _ _ _ h₀ _ _ _ _ hmv =>
      exact ⟨_, rfl, Or.inr ⟨heq h₀ ▸ hmv.stateVersion, .stamp _ _⟩⟩

namespace PoolView.Later

theorem refl : v.Later v := fun s hrow ↦ ⟨s, hrow, Or.inl ⟨rfl, rfl⟩⟩

theorem trans (h : v.Later v') (h' : v'.Later v'') : v.Later v'' := by
  intro s hrow
  obtain ⟨s₁, hrow₁, h₁⟩ := h s hrow
  obtain ⟨s₂, hrow₂, h₂⟩ := h' s₁ hrow₁
  refine ⟨s₂, hrow₂, ?_⟩
  rcases h₁ with ⟨rfl, hst⟩ | ⟨hlt, hon⟩ <;> rcases h₂ with ⟨rfl, hst'⟩ | ⟨hlt', hon'⟩
  · exact Or.inl ⟨rfl, hst'.trans hst⟩
  · exact Or.inr ⟨hlt', hst ▸ hon'⟩
  · exact Or.inr ⟨hlt, hst' ▸ hon⟩
  · exact Or.inr ⟨hlt.trans hlt', hon.trans hon'⟩

/-- What held of the earlier state holds of the later, over the same stops. -/
theorem onward (h : v.Later v') {s : SharedRide} (hrow : v.row = some s) :
    Onward v.stops v'.stops := by
  obtain ⟨s', -, h⟩ := h s hrow
  rcases h with ⟨-, hst⟩ | ⟨-, hon⟩
  · exact hst ▸ .refl
  · exact hon

/-- The earlier state is the same when its version is not lower. -/
theorem holds_of_le (h : v.Later v') {s s' : SharedRide} (hrow : v.row = some s)
    (hrow' : v'.row = some s') (hle : s'.stateVersion ≤ s.stateVersion) {f : TripFact}
    (hf : f.Holds v'.stops) : f.Holds v.stops := by
  obtain ⟨s₁, hrow₁, h⟩ := h s hrow
  obtain rfl := Option.some.inj (hrow'.symm.trans hrow₁)
  rcases h with ⟨-, hst⟩ | ⟨hlt, -⟩
  · exact hst ▸ hf
  · exact absurd hlt (not_lt.mpr hle)

end PoolView.Later

/-! ## Runs -/

/-- A committed state of the run. -/
def Committed (tr : List (Db × Step)) (s db : Db) : Prop := db = s ∨ ∃ x ∈ tr, x.1 = db

/-- Every pool is later in the second database. -/
def Later (db db' : Db) : Prop := ∀ id, (db.poolView id).Later (db'.poolView id)

section Exec

variable {D : Type u} [LinearOrder D] {dist : Point → Point → D} {db db' : Db}

theorem later_exec (hi : PoolsInv db) (e : Step) : Later db (exec dist db e) := by
  intro id
  have hkeep : ∀ v, ReflTransGen PoolStep (db.poolView id) v →
      PoolInv v ∧ (db.poolView id).Later v := by
    intro v hv
    induction hv with
    | refl => exact ⟨hi.pool id, .refl⟩
    | tail _ hst ih => exact ⟨ih.1.step hst, ih.2.trans (hst.later ih.1)⟩
  exact (hkeep _ ((poolSim_exec dist hi e).steps id)).2

theorem later_of_reachable (hi : PoolsInv db) (h : Reachable (step dist) db db') :
    Later db db' := by
  have key : PoolsInv db' ∧ Later db db' := by
    refine h.invariant (I := fun s ↦ PoolsInv s ∧ Later db s) ?_ ⟨hi, fun _ ↦ .refl⟩
    rintro t e u ⟨hi, hlater⟩ hst
    refine ⟨hi.step hst, fun id ↦ (hlater id).trans ?_⟩
    obtain rfl := hst
    exact later_exec hi e id
  exact key.2

/-- A run goes through each of its committed states. -/
theorem runs_of_committed {s₀ s : Db} {tr : List (Db × Step)} (hr : Run (step dist) s₀ tr s)
    (hc : Committed tr s db) :
    ∃ tr₁ tr₂, Run (step dist) s₀ tr₁ db ∧ Run (step dist) db tr₂ s := by
  rcases hc with rfl | ⟨x, hx, rfl⟩
  · exact ⟨tr, [], hr, .nil⟩
  · obtain ⟨tr₁, tr₂, rfl⟩ := List.append_of_mem hx
    obtain ⟨h₁, t', hst, h₂⟩ := hr.step_of_split
    exact ⟨tr₁, _, h₁, .cons hst h₂⟩

/-- Every committed state keeps the invariant of the pools. -/
theorem poolsInv_of_committed {s₀ s : Db} {tr : List (Db × Step)} (h₀ : s₀.NoPools)
    (hr : Run (step dist) s₀ tr s) (hc : Committed tr s db) : PoolsInv db := by
  obtain ⟨tr₁, -, h₁, -⟩ := runs_of_committed hr hc
  exact (PoolsInv.of_noPools h₀).run h₁

/-- The last state is the latest. -/
theorem later_last {s₀ s : Db} {tr : List (Db × Step)} (h₀ : s₀.NoPools)
    (hr : Run (step dist) s₀ tr s) (hc : Committed tr s db) : Later db s := by
  obtain ⟨-, tr₂, -, h₂⟩ := runs_of_committed hr hc
  exact later_of_reachable (poolsInv_of_committed h₀ hr hc) ⟨tr₂, h₂⟩

/-- Of two committed states of a run, one is later. -/
theorem later_or_later {s₀ s : Db} {tr : List (Db × Step)} (h₀ : s₀.NoPools)
    (hr : Run (step dist) s₀ tr s) (hc : Committed tr s db) (hc' : Committed tr s db') :
    Later db db' ∨ Later db' db :=
  (hr.reachable_or_reachable hc hc').imp (later_of_reachable (poolsInv_of_committed h₀ hr hc))
    (later_of_reachable (poolsInv_of_committed h₀ hr hc'))

/-- **Of two states of a pool, the one of the higher version confirms no less.** -/
theorem holds_of_version {s₀ s : Db} {tr : List (Db × Step)} (h₀ : s₀.NoPools)
    (hr : Run (step dist) s₀ tr s) (hc : Committed tr s db) (hc' : Committed tr s db')
    {id : PoolId} {row row' : SharedRide} (hrow : db.sharedRides.get id = some row)
    (hrow' : db'.sharedRides.get id = some row') (hle : row.stateVersion ≤ row'.stateVersion)
    {f : TripFact} (hf : f.Holds (db.poolView id).stops) : f.Holds (db'.poolView id).stops := by
  rcases later_or_later h₀ hr hc hc' with h | h
  · exact ((h id).onward hrow).holds f hf
  · exact (h id).holds_of_le hrow' hrow hle hf

/-- The stops of a pool stay the same ones. -/
theorem indexes_of_committed {s₀ s : Db} {tr : List (Db × Step)} (h₀ : s₀.NoPools)
    (hr : Run (step dist) s₀ tr s) (hc : Committed tr s db) (hc' : Committed tr s db')
    {id : PoolId} {row row' : SharedRide} (hrow : db.sharedRides.get id = some row)
    (hrow' : db'.sharedRides.get id = some row') (hne : (db.poolView id).stops ≠ [])
    (hne' : (db'.poolView id).stops ≠ []) :
    (db'.poolView id).stops.map RideStop.sequenceIndex =
      (db.poolView id).stops.map RideStop.sequenceIndex := by
  rcases later_or_later h₀ hr hc hc' with h | h
  · exact ((h id).onward hrow).indexes hne
  · exact (((h id).onward hrow').indexes hne').symm

/-- The state after a step of the run is committed. -/
theorem committed_exec {s₀ s : Db} {tr : List (Db × Step)} (hr : Run (step dist) s₀ tr s)
    {x : Db × Step} (hx : x ∈ tr) : Committed tr s (exec dist x.1 x.2) := by
  refine hr.invariant_trace
    (I := fun tr s ↦ ∀ x ∈ tr, Committed tr s (exec dist x.1 x.2)) ?_ (by simp) x hx
  intro tr t e u ih hst x hx
  rcases List.mem_append.mp hx with hx | hx
  · rcases ih x hx with heq | ⟨y, hy, heq⟩
    · exact Or.inr ⟨(t, e), List.mem_append_right _ (List.mem_singleton_self _), heq.symm⟩
    · exact Or.inr ⟨y, List.mem_append_left _ hy, heq⟩
  · rw [List.mem_singleton.mp hx]
    exact Or.inl hst

end Exec

/-! ## Echoes -/

section Echo

variable {t : TxClock} {db db' : Db} {input : StopConfirmInput} {c : StopConfirmed}

/-- A pool with stops is completed when they are all confirmed. -/
theorem PoolInv.completed_iff (h : PoolInv v) {s : SharedRide} (hrow : v.row = some s)
    (hne : v.stops ≠ []) : s.poolState = .completed ↔ TripFact.completed.Holds v.stops := by
  obtain ⟨k, hk, hconf, hr⟩ := h.progress s hrow
  obtain ⟨hall, hidx⟩ := mem_of_range h.range
  have hpos : 0 < v.stops.length := List.length_pos_iff.mpr hne
  constructor
  · intro hs
    rw [hs] at hr
    have hr : k = v.stops.length := hr
    exact ⟨hne, fun x hx ↦ (hconf x hx).mpr (hr ▸ hidx x hx)⟩
  · rintro ⟨-, hdone⟩
    obtain ⟨x, hx, hlast⟩ := hall (v.stops.length - 1) (by omega)
    have hlt := (hconf x hx).mp (hdone x hx)
    have hkn : k = v.stops.length := by omega
    cases hst : s.poolState <;> rw [hst] at hr <;> simp only [PoolState.Reached] at hr <;>
      first | rfl | omega

@[simp] theorem rideStops_markRideStarted {poolId : PoolId} :
    (markRideStarted t db poolId).rideStops = db.rideStops := by
  unfold markRideStarted
  split_ifs <;> rfl

theorem rideStops_completeWhenDone {pendingAfter : ℕ} {u : Unit}
    (h : completeWhenDone t db input pendingAfter = .ok (db', u)) :
    db'.rideStops = db.rideStops := by
  rcases completeWhenDone_cases h with rfl | ⟨-, rfl⟩ <;> rfl

/-- What follows the stamp of a confirmation leaves the stops alone. -/
theorem rideStops_confirmPending {stops : List RideStop}
    (h : confirmPending t db input stops = .ok (db', .ok c)) :
    db'.rideStops = (confirm t db input.rideId input.sequenceIndex).1.rideStops ∧
      c.duplicate = false ∧
        c.rideCompleted = decide ((stops.filter fun s ↦ s.confirmedAt = none).length - 1 = 0) := by
  obtain ⟨db₁, _, db₂, _, db₃, u, _, h₁, h₂, rfl, h₃, h₄, hr⟩ := confirmPending_cases h
  obtain rfl := StopConfirmResult.ok.inj hr
  have hstart : db₂.rideStops = db₁.rideStops := by
    rcases h₂ with rfl | rfl
    · rfl
    · exact rideStops_markRideStarted
  obtain ⟨rfl, -⟩ := Prod.mk.inj h₄
  rw [h₁]
  exact ⟨(rideStops_completeWhenDone h₃).trans hstart, rfl, rfl⟩

/-- **The echo tells the state it led to**: its version, the stop, and whether all are done. -/
theorem confirmStop_echo (hi : PoolInv (db.poolView input.rideId))
    (h : confirmStop t db input = .ok (db', .ok c)) :
    ∃ row, db'.sharedRides.get input.rideId = some row ∧ c.version = row.stateVersion ∧
      (TripFact.confirmed input.sequenceIndex).Holds (db'.poolView input.rideId).stops ∧
        (c.rideCompleted = true ↔ TripFact.completed.Holds (db'.poolView input.rideId).stops) := by
  obtain ⟨db₁, r, h₁, hcases⟩ := confirmStop_spec (t := t) hi
  obtain ⟨rfl, rfl⟩ := Tx.ok_inj (h₁.symm.trans h)
  unfold confirmStop at h
  split at h
  · obtain ⟨-, hr⟩ := Tx.ok_inj h
    cases hr
  rename_i pool hpool
  have hrow : db.sharedRides.get input.rideId = some pool := hpool
  dsimp only at h
  rw [hi.findByRideId_eq] at h
  by_cases hd : pool.claimedByDriverId ≠ some input.driverId
  · rw [if_pos hd] at h
    obtain ⟨-, hr⟩ := Tx.ok_inj h
    cases hr
  rw [if_neg hd] at h
  split at h
  · obtain ⟨-, hr⟩ := Tx.ok_inj h
    cases hr
  rename_i target htarget
  have ht := List.mem_of_find?_eq_some htarget
  have hidx : target.sequenceIndex = input.sequenceIndex := by
    simpa using List.find?_some htarget
  split_ifs at h with hty hconf hfirst
  · obtain ⟨-, hr⟩ := Tx.ok_inj h
    cases hr
  · -- A confirmed stop is answered with the present state.
    obtain ⟨rfl, hr⟩ := Tx.ok_inj h
    obtain rfl := StopConfirmResult.ok.inj hr
    refine ⟨pool, hrow, rfl, ⟨target, ht, hidx, Option.isSome_iff_ne_none.mp hconf⟩, ?_⟩
    rw [← hi.completed_iff (show (db.poolView input.rideId).row = some pool from hrow)
      (List.ne_nil_of_mem ht)]
    exact decide_eq_true_iff
  · obtain ⟨-, hr⟩ := Tx.ok_inj h
    cases hr
  · have hn : target.confirmedAt = none := by simpa using hconf
    obtain ⟨hstops, hdup, hdone⟩ := rideStops_confirmPending h
    obtain ⟨db₂, h₂, -, honly⟩ := confirm_pending (t := t) ht hn
    rw [hidx] at h₂ honly
    rw [h₂] at hstops
    have hview : (db₁.poolView input.rideId).stops =
        stamp input.sequenceIndex t.now (db.poolView input.rideId).stops := by
      refine Eq.trans ?_ (congrArg PoolView.stops honly.here)
      exact congrArg (fun rows : Table RideStop.pkey ↦ rows.filter fun s ↦ s.rideId = input.rideId)
        hstops
    cases hcases with
    | repeated c hc =>
        rw [hdup] at hc
        cases hc
    | confirmed s s' _ c hs hd' hs' hc hv hlt hst hsim =>
        refine ⟨s', hs', hv, ?_, ?_⟩
        · rw [hview]
          exact ⟨_, List.mem_map_of_mem ht, by rw [if_pos hidx]; exact hidx,
            by rw [if_pos hidx]; exact Option.some_ne_none _⟩
        · rw [hview, hdone, decide_eq_true_iff, hi.pending_iff ht hn, hidx]
          constructor
          · intro hlast
            refine ⟨fun hnil ↦ ?_, fun y hy ↦ ?_⟩
            · exact absurd (List.map_eq_nil_iff.mp hnil) (List.ne_nil_of_mem ht)
            · obtain ⟨x, hx, rfl⟩ := List.mem_map.mp hy
              split_ifs with hxi
              · exact Option.some_ne_none _
              · exact fun hxn ↦ hxi (hlast x hx hxn)
          · rintro ⟨-, hall⟩ x hx hxn
            by_contra hxi
            have := hall _ (List.mem_map_of_mem hx)
            rw [if_neg hxi] at this
            exact this hxn

end Echo

end Rcab
