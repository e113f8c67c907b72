import Rcab.Trips.Refine

/-!
# The pools' transactions as market steps

Open, join, close, hard-fail and stop confirmation.
-/

universe u

namespace Rcab

open Market (Phase Lax)
open Dispatch Matching

variable {lax : Lax} {t : TxClock} {db db' : Db} {poolId : PoolId}

/-! ## Pool rows -/

/-- The market does not see the seats of a pool. -/
@[simp] theorem SharedRide.phase_seatOne (s : SharedRide) : s.seatOne.phase = s.phase := by
  simp [SharedRide.phase]

/-- An update of a pool that keeps its phase. -/
theorem sim_updatePool {s : SharedRide} {f : SharedRide → SharedRide}
    {hf : ∀ s, (f s).rideId = s.rideId} (hs : db.sharedRides.get poolId = some s)
    (hp : (f s).phase = s.phase)
    (ho : (f s).poolState = .open_ → s.poolState = .open_ ∧
      (f s).claimedByDriverId = s.claimedByDriverId) :
    Sim lax db (db.updatePool t.now poolId f hf) := by
  refine .of_eq ?_ fun h ↦ h.updatePool _ _ fun s' hs' hk hop ↦ ?_
  · rw [market_updatePool _ hs hp]
    exact Market.State.setPhase_self (phase_shared hs)
  · obtain rfl : s' = s := Table.unique hs' (Table.mem_of_get hs) (hk.trans (Table.key_of_get hs).symm)
    obtain ⟨h₁, h₂⟩ := ho hop
    rw [h₂]
    exact h s' hs' h₁

/-- A pool's phase moves by one step of the market, into a state that is not open. -/
theorem sim_updatePool_step {s : SharedRide} {f : SharedRide → SharedRide} {φ : Phase DriverId}
    (hf : ∀ s, (f s).rideId = s.rideId) (hs : db.sharedRides.get poolId = some s)
    (hp : (f s).phase = φ) (ho : (f s).poolState ≠ .open_)
    (hst : Market.Step lax (market db) ((market db).setPhase (.shared poolId) φ)) :
    Sim lax db (db.updatePool t.now poolId f hf) := by
  refine .of_step (market_updatePool hf hs hp ▸ hst) fun h ↦
    h.updatePool _ hf fun s' hs' hk hop ↦ ?_
  obtain rfl : s' = s := Table.unique hs' (Table.mem_of_get hs) (hk.trans (Table.key_of_get hs).symm)
  exact absurd hop ho

theorem sim_insertOpenPool {p : OpenPoolRow} {at_ : Time}
    (h : insertOpenPool t db p = .ok (db', at_)) : Sim lax db db' := by
  obtain ⟨row, -, ho, -, -, -, -, hd, hfree, rfl⟩ := insertOpenPool_eq_ok h
  refine .of_eq ?_ fun hu s hs hop ↦ ?_
  · rw [market_sharedRides_insert hfree]
    refine Market.State.setPhase_self ?_
    rw [SharedRide.phase_eq_closed.mpr ⟨ho, hd⟩]
    simp [Db.phase, hfree]
  · rcases (Table.mem_insert hfree).mp hs with hs | rfl
    · exact hu s hs hop
    · exact hd

theorem sim_insertMember {m : NewPoolMember} {r : InsertMemberResult}
    (h : insertMember t db m = .ok (db', r)) : Sim lax db db' := by
  rcases insertMember_eq_ok h with ⟨-, rfl⟩ | ⟨pool, hpool, ho, -, -, -, -, rfl⟩
  · exact .refl
  · have hmem : Sim lax db { db with poolMember := db.poolMember.insert (m.row t.now) } :=
      .of_eq rfl id
    refine hmem.trans (sim_updatePool (s := pool) hpool (by simp) fun hop ↦ ⟨ho, by simp⟩)

theorem sim_enqueueOutbox {m : Outbox.OutboxMessage} : Sim lax db (Outbox.enqueueOutbox t db m) :=
  .of_eq rfl id

theorem sim_completeSeat {dateNow : Time} {i : Option SeatIdempotency} {o : SeatOutcome} :
    Sim lax db (completeSeat dateNow db i o) := by
  cases i with
  | none => exact .refl
  | some i => exact .of_eq rfl id

/-- Closing an open pool opens its window. -/
theorem sim_close {s : SharedRide} {reason : CloseReason}
    (hs : db.sharedRides.get poolId = some s) (ho : s.poolState = .open_) (hu : OpenUnclaimed db) :
    Sim lax db (db.updatePool t.now poolId (SharedRide.close reason.state t.now)
      (SharedRide.close_rideId reason.state t.now)) := by
  have hd := hu s (Table.mem_of_get hs) ho
  have hclosed : db.phase (.shared poolId) = .closed :=
    (phase_shared hs).trans (SharedRide.phase_eq_closed.mpr ⟨ho, hd⟩)
  refine sim_updatePool_step (SharedRide.close_rideId reason.state t.now) hs
    (φ := .window (s.dispatchGeneration + 1)) ?_ ?_ (.openWindow _ _ hclosed)
  · refine SharedRide.phase_eq_window.mpr ⟨?_, hd, rfl⟩
    cases reason <;> trivial
  · cases reason <;> simp [CloseReason.state]

section Close

variable {D : Type u} [LinearOrder D] {dist : Point → Point → D}

theorem sim_closeInTxn {pool : SharedRide} {reason : CloseReason} {g : Option ℕ}
    (h : closeInTxn dist t db pool reason = .ok (db', g)) (hu : OpenUnclaimed db) :
    Sim lax db db' := by
  rcases closeInTxn_cases h with ⟨rfl, -, -⟩ | ⟨s, _, u, db₁, hs, ho, -, rfl, h₁, rfl⟩
  · exact .refl
  obtain ⟨rideStops, rfl⟩ := insertItinerary_eq_ok h₁
  exact (sim_close hs ho hu).trans (.of_eq rfl id)

theorem sim_closeWhenFull {pool : SharedRide} {n : ℕ} {b : Bool}
    (h : closeWhenFull dist t db pool n = .ok (db', b)) (hu : OpenUnclaimed db) :
    Sim lax db db' := by
  rcases closeWhenFull_cases h with ⟨-, rfl, -⟩ | ⟨-, g, h₁, -⟩
  · exact .refl
  · exact sim_closeInTxn h₁ hu

theorem sim_openPool {p : OpenPoolParams} {r : OpenPoolResult}
    (h : openPool dist t db p = .ok (db', r)) : Sim lax db db' := by
  rcases openPool_cases h with ⟨-, rfl⟩ | ⟨db₁, at_, quote, db₂, n, outcome, h₁, h₂, -, -, rfl⟩
  · exact .refl
  · exact (((sim_insertOpenPool h₁).trans (sim_insertMember h₂)).trans sim_enqueueOutbox).trans
      sim_completeSeat

theorem sim_joinPool {p : JoinPoolParams} {r : JoinPoolResult}
    (h : joinPool dist t db p = .ok (db', r)) (hu : OpenUnclaimed db) : Sim lax db db' := by
  rcases joinPool_cases h with
    ⟨-, rfl⟩ | ⟨pool, quote, db₁, n, db₂, closedFull, outcome, -, -, -, h₁, h₂, -, -, rfl⟩
  · exact .refl
  have hsim : Sim lax db db₁ := sim_insertMember h₁
  exact (hsim.trans (sim_closeWhenFull h₂ (hsim.openUnclaimed hu))).trans sim_completeSeat

theorem sim_closeIfOpen {r : CloseIfOpenResult}
    (h : closeIfOpen dist t db poolId = .ok (db', r)) (hu : OpenUnclaimed db) :
    Sim lax db db' := by
  obtain ⟨rfl, -⟩ | ⟨pool, hget, ho, ⟨-, -, rfl⟩ | ⟨-, g, h₁, -⟩⟩ := closeIfOpen_eq_ok h
  · exact .refl
  · have hclosed : db.phase (.shared poolId) = .closed :=
      (phase_shared hget).trans
        (SharedRide.phase_eq_closed.mpr ⟨ho, hu pool (Table.mem_of_get hget) ho⟩)
    exact sim_updatePool_step _ hget (SharedRide.phase_eq_over_of_terminal trivial) (by simp)
      (.retire _ hclosed)
  · exact sim_closeInTxn h₁ hu

end Close

/-! ## Hard-fail -/

theorem sim_hardFailPool {generation : Option ℕ} :
    Sim lax db (hardFailPool t db poolId generation).1 := by
  rcases hardFailPool_cases t db poolId generation with h | ⟨s, hget, ⟨-, hd, hc, -⟩, h⟩ <;> rw [h]
  · exact .refl
  have hwin : db.phase (.shared poolId) = .window s.dispatchGeneration :=
    (phase_shared hget).trans (SharedRide.phase_eq_window.mpr ⟨hc, hd, rfl⟩)
  refine .of_step ?_ fun ho ↦ ho.updatePool t.now SharedRide.abort_rideId
    fun s' hs' hk hop ↦ by cases hop
  have hover : s.abort.phase = .over := SharedRide.phase_eq_over_of_terminal trivial
  rw [market_revokeLiveForTrip, market_updatePool _ hget hover]
  exact .close _ _ hwin

/-! ## Stop confirmation -/

section Confirm

open RideLifecycle

variable {input : StopConfirmInput}

/-- The first pickup of a held pool keeps it held by the same driver. -/
theorem sim_markRideStarted {pool : SharedRide} {d : DriverId}
    (hpool : db.sharedRides.get poolId = some pool) (hd : pool.claimedByDriverId = some d) :
    Sim lax db (markRideStarted t db poolId) ∧
      ∃ pool', (markRideStarted t db poolId).sharedRides.get poolId = some pool' ∧
        pool'.claimedByDriverId = some d := by
  rcases markRideStarted_cases t db poolId with he | ⟨⟨s, hs, hid, hc⟩, he⟩ <;> rw [he]
  · exact ⟨.refl, pool, hpool, hd⟩
  · obtain rfl : s = pool :=
      Table.unique hs (Table.mem_of_get hpool) (hid.trans (Table.key_of_get hpool).symm)
    have hheld : s.phase = .held d :=
      SharedRide.phase_eq_held.mpr ⟨hd, PoolState.closed_of_claimable hc⟩
    refine ⟨sim_updatePool hpool ?_ (by simp), _, Db.get_sharedRides_updatePool hpool, hd⟩
    rw [hheld]
    exact SharedRide.phase_eq_held.mpr ⟨hd, trivial⟩

/-- The last stop ends the pool and frees its driver. -/
theorem sim_completeWhenDone {pool : SharedRide} {n : ℕ} {u : Unit}
    (h : completeWhenDone t db input n = .ok (db', u))
    (hpool : db.sharedRides.get input.rideId = some pool)
    (hd : pool.claimedByDriverId = some input.driverId) (he : Market.Exclusive (market db)) :
    Sim lax db db' ∧ ∃ pool', db'.sharedRides.get input.rideId = some pool' := by
  rcases completeWhenDone_cases h with rfl | ⟨⟨s, hs, hid, hc⟩, rfl⟩
  · exact ⟨.refl, pool, hpool⟩
  obtain rfl : s = pool :=
    Table.unique hs (Table.mem_of_get hpool) (hid.trans (Table.key_of_get hpool).symm)
  have hget : (db.updatePool t.now input.rideId (SharedRide.complete t.now)
      (SharedRide.complete_rideId t.now)).sharedRides.get input.rideId = some _ :=
    Db.get_sharedRides_updatePool hpool
  refine ⟨?_, _, hget⟩
  have hheld : db.phase (.shared input.rideId) = .held input.driverId :=
    (phase_shared hpool).trans (SharedRide.phase_eq_held.mpr ⟨hd, hc⟩)
  obtain ⟨b, hb, hbj⟩ := he.guard_of_held (.shared input.rideId) input.driverId hheld
  have hover : (s.complete t.now).phase = .over := SharedRide.phase_eq_over_of_terminal trivial
  have hm : market (db.updatePool t.now input.rideId (SharedRide.complete t.now)
      (SharedRide.complete_rideId t.now)) = (market db).setPhase (.shared input.rideId) .over :=
    market_updatePool _ hpool hover
  refine .of_step ?_ fun ho ↦ ho.updatePool t.now (SharedRide.complete_rideId t.now)
    fun s' hs' hk hop ↦ by cases hop
  rw [market_release (b := b) (by rw [hm]; exact hb) hbj, hm]
  exact .finish _ _ b hheld hb hbj

theorem sim_touchPool {n : ℕ} (h : touchPool t db poolId = (db', some n)) : Sim lax db db' := by
  unfold touchPool at h
  obtain ⟨rfl, hn⟩ := Prod.mk.inj h
  obtain ⟨pool, hpool, -⟩ := Option.map_eq_some_iff.mp hn
  exact sim_updatePool hpool rfl fun ho ↦ ⟨ho, rfl⟩

theorem sim_confirmPending {pool : SharedRide} {stops : List RideStop} {r : StopConfirmResult}
    (h : confirmPending t db input stops = .ok (db', r))
    (hpool : db.sharedRides.get input.rideId = some pool)
    (hd : pool.claimedByDriverId = some input.driverId) (he : Market.Exclusive (market db)) :
    Sim lax db db' := by
  obtain ⟨db₁, _, db₂, _, db₃, u, _, h₁, h₂, -, h₃, h₄, -⟩ := confirmPending_cases h
  obtain ⟨rideStops, rfl⟩ := confirm_eq h₁
  have hs₁ : Sim lax db { db with rideStops } := .of_eq rfl id
  have hpool₁ : { db with rideStops }.sharedRides.get input.rideId = some pool := hpool
  obtain ⟨hs₂, pool₂, hpool₂, hd₂⟩ : Sim lax db db₂ ∧
      ∃ pool', db₂.sharedRides.get input.rideId = some pool' ∧
        pool'.claimedByDriverId = some input.driverId := by
    rcases h₂ with rfl | rfl
    · exact ⟨hs₁, pool, hpool, hd⟩
    · obtain ⟨hsim, hget⟩ := sim_markRideStarted (t := t) hpool₁ hd
      exact ⟨hs₁.trans hsim, hget⟩
  have hs₃ : Sim lax db₂ db₃ := (sim_completeWhenDone h₃ hpool₂ hd₂ (hs₂.exclusive he)).1
  exact (hs₂.trans hs₃).trans (sim_touchPool h₄)

theorem sim_confirmStop {r : StopConfirmResult} (h : confirmStop t db input = .ok (db', r))
    (he : Market.Exclusive (market db)) : Sim lax db db' := by
  rcases confirmStop_cases h with rfl | ⟨pool, hpool, hd, h⟩
  · exact .refl
  · exact sim_confirmPending h hpool hd he

end Confirm

end Rcab
