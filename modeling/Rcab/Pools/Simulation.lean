import Rcab.Pools.Confirm
import Rcab.Trips.AcceptRule
import Rcab.Trips.ConfirmRule

/-!
# Runs of the trips are runs of the pool machine

Every transaction takes every pool through steps of the machine (`poolSim_exec`), so the
invariant of the machine holds of every pool in every reachable state.
-/

universe u

namespace Rcab

open Dispatch Matching RideLifecycle

/-- A database without pools. -/
structure Db.NoPools (db : Db) : Prop where
  sharedRides : ∀ s, s ∉ db.sharedRides
  poolMember : ∀ m, m ∉ db.poolMember
  rideStops : ∀ s, s ∉ db.rideStops

variable {t : TxClock} {db db' : Db} {poolId : PoolId} {rideId : RideId}

/-! ## Claim, accept and hard-fail -/

/-- The state of a pool that can be claimed is not over. -/
theorem PoolState.Claimable.not_terminal {s : PoolState} (h : s.Claimable) : ¬ s.Terminal := by
  cases s <;> simp_all [Claimable, Terminal]

theorem poolSim_claimRow {trip : TripRef} {driverId : DriverId} {generation : ℕ} {u : Unit}
    (h : claimRow t db trip driverId generation = .ok (db', u)) : PoolSim db db' := by
  cases trip with
  | solo rideId =>
      simp only [claimRow, claimSoloRow] at h
      split_ifs at h
      obtain ⟨rfl, -⟩ := Tx.ok_inj h
      exact .of_eq rfl fun _ ↦ rfl
  | shared poolId =>
      simp only [claimRow, claimSharedRow] at h
      split_ifs at h with hc
      obtain ⟨rfl, -⟩ := Tx.ok_inj h
      obtain ⟨s, hs, hid, hd, hcl, -⟩ := hc
      have hget : db.sharedRides.get poolId = some s := hid ▸ Table.get_of_mem hs
      refine poolSim_updatePool (SharedRide.claim_rideId driverId t.now) ?_
      rw [poolView_updatePool_live hget fun ht ↦ absurd ht hcl.not_terminal]
      exact .claimed s driverId t.now hget hcl hd

theorem poolSim_acceptInTx {accounts : Accounts} {offerId : OfferId} {driverId : DriverId}
    {trip : TripRef} {out : AcceptOutcome}
    (h : acceptInTx t db accounts offerId driverId trip = .ok (db', out)) : PoolSim db db' :=
  AcceptRule.acceptInTx
    { refl := fun _ ↦ .refl
      trans := fun _ _ _ h h' ↦ h.trans h'
      offers := fun _ _ ↦ .of_eq rfl fun _ ↦ rfl
      guards := fun _ _ ↦ .of_eq rfl fun _ ↦ rfl
      claim := fun _ _ _ _ h _ ↦ poolSim_claimRow h } h

theorem poolSim_hardFailPool {generation : Option ℕ} :
    PoolSim db (hardFailPool t db poolId generation).1 := by
  rcases hardFailPool_cases t db poolId generation with h | ⟨s, hget, ⟨-, hd, hc, -⟩, h⟩ <;> rw [h]
  · exact .refl
  have hne : s.poolState ≠ s.abort.poolState := by
    rw [SharedRide.abort_poolState]
    intro h
    rw [h] at hc
    exact hc
  have hsim : PoolSim db (db.updatePool t.now poolId SharedRide.abort SharedRide.abort_rideId) := by
    refine poolSim_updatePool SharedRide.abort_rideId ?_
    rw [poolView_updatePool_over SharedRide.abort_rideId hget trivial hne]
    exact .aborted s _ t.now hget hc hd rfl ⟨rfl, rfl, rfl, rfl, Nat.lt_succ_self _⟩
  exact hsim.trans (.of_eq rfl fun _ ↦ rfl)

theorem poolSim_confirmStop {input : StopConfirmInput} {r : StopConfirmResult}
    (h : confirmStop t db input = .ok (db', r)) (hi : PoolInv (db.poolView input.rideId)) :
    PoolSim db db' := by
  obtain ⟨db₁, r₁, h₁, hc⟩ := confirmStop_spec (t := t) hi
  rw [h, Except.ok.injEq, Prod.mk.injEq] at h₁
  obtain ⟨rfl, rfl⟩ := h₁
  cases hc with
  | refused => exact .refl
  | repeated => exact .refl
  | confirmed s s' db' c hs hd hs' hc hv hlt hst hsim => exact hsim

/-! ## The rides' transactions -/

theorem poolSim_enqueueRide {m : Outbox.OutboxMessage}
    (h : Outbox.topicOf m.payload ≠ .poolDispatchRequested)
    (h' : Outbox.topicOf m.payload ≠ .poolExpireSchedule) :
    PoolSim db (Outbox.enqueueOutbox t db m) :=
  .of_eq rfl fun _ ↦ poolView_enqueueOutbox_ride h h'

/-- The intent of a new ride is not one of a pool's. -/
theorem Rides.CreateRide.intent_topic {params : Rides.CreateRide} {m : Outbox.OutboxMessage}
    (h : params.intent = .ok m) : Outbox.topicOf m.payload ≠ .poolDispatchRequested ∧
      Outbox.topicOf m.payload ≠ .poolExpireSchedule := by
  unfold Rides.CreateRide.intent at h
  split at h
  · split at h
    · cases h
    · obtain rfl := Except.ok.inj h
      simp [Outbox.topicOf]
  · obtain rfl := Except.ok.inj h
    simp [Outbox.topicOf]

theorem poolSim_create {params : Rides.CreateRide} {r : Rides.CreatedRide}
    (h : Rides.create t db params = .ok (db', r)) : PoolSim db db' := by
  obtain rfl | ⟨m, -, hm, rfl⟩ := Rides.create_eq_ok h
  · exact .refl
  obtain ⟨h₁, h₂⟩ := Rides.CreateRide.intent_topic hm
  have hrow : PoolSim db { db with rides := db.rides.insert params.row } := .of_eq rfl fun _ ↦ rfl
  exact hrow.trans (poolSim_enqueueRide h₁ h₂)

theorem poolSim_claimSolo {driverId : DriverId} {r : Option Ride}
    (h : Rides.claimSolo t db rideId driverId = .ok (db', r)) : PoolSim db db' := by
  obtain rfl | ⟨ride, db₁, db₂, u, -, -, h₁, h₂, rfl⟩ := Rides.claimSolo_eq_ok h
  · exact .refl
  have hguard : PoolSim db db₁ := by
    rcases acquire_eq_ok h₁ with ⟨-, rfl⟩ | ⟨-, -, rfl⟩
    · exact .refl
    · exact .of_eq rfl fun _ ↦ rfl
  have hclaim := poolSim_claimRow (show claimRow t _ (.solo rideId) _ _ = _ from h₂)
  exact (hguard.trans hclaim).trans (.of_eq rfl fun _ ↦ rfl)

theorem poolSim_markNoDriver {generation : Option ℕ} :
    PoolSim db (Rides.markNoDriver t db rideId generation).1 := by
  rcases Rides.markNoDriver_cases t db rideId generation with h | ⟨_, _, -, -, h⟩ <;> rw [h]
  · exact .refl
  · exact .of_eq rfl fun _ ↦ rfl

theorem poolSim_rearmScheduledRide {expectedGeneration : Option ℕ} :
    PoolSim db (Scheduled.rearmScheduledRide t db rideId expectedGeneration).1 := by
  rcases Scheduled.rearmScheduledRide_cases t db rideId expectedGeneration with
    h | ⟨ride, -, -, -, h⟩ <;> rw [h]
  · exact .refl
  · have hrow : PoolSim db (revokeLiveForTrip t { db with
        rides := db.rides.update
          (fun r ↦ r.id = rideId ∧ r.dispatchGeneration = ride.dispatchGeneration)
          fun r ↦ { r with dispatchGeneration := ride.dispatchGeneration + 1 } }
        (.solo rideId)).1 := .of_eq rfl fun _ ↦ rfl
    refine hrow.trans (poolSim_enqueueRide ?_ ?_) <;> simp [Outbox.topicOf]

theorem poolSim_transition {dateNow : Time} {driverId : DriverId} {source target : RideStatus} :
    PoolSim db (Rides.transition db dateNow rideId driverId source target).1 := by
  rcases Rides.transition_cases db dateNow rideId driverId source target with
    h | ⟨_, -, -, -, ⟨-, h⟩ | ⟨-, h⟩⟩ <;> rw [h]
  · exact .refl
  · exact .of_eq rfl fun _ ↦ rfl
  · exact .of_eq rfl fun _ ↦ rfl

theorem poolSim_cancel {dateNow : Time} {params : Rides.CancelRide} :
    PoolSim db (Rides.cancel t db dateNow params).1 := by
  rcases Rides.cancel_cases t db dateNow params with h | ⟨current, _, _, -, -, rfl, h⟩ <;> rw [h]
  · exact .refl
  · cases current.driverId <;> exact .of_eq rfl fun _ ↦ rfl

theorem poolSim_createOffer {newId : OfferId} {locked : List OfferId} {p : CreateOffer}
    {r : Option CreatedOffer} (h : createOffer t db newId locked p = .ok (db', r)) :
    PoolSim db db' := by
  rw [createOffer_eq h]
  exact .of_eq rfl fun _ ↦ rfl

theorem poolSim_decline {offerId : OfferId} {driverId : DriverId} :
    PoolSim db (decline t db offerId driverId).1 := by
  rw [decline_eq]
  exact .of_eq rfl fun _ ↦ rfl

/-! ## Every step, and every run -/

section System

variable {D : Type u} [LinearOrder D] {dist : Point → Point → D} {db₀ : Db} {tr : List (Db × Step)}

/-- Every pool of the database is in order. -/
structure PoolsInv (db : Db) : Prop where
  pool : ∀ id, PoolInv (db.poolView id)
  activeOnce : ActiveOnce db

variable (dist) in
/-- **Simulation**: every step of the system takes every pool through steps of the machine. -/
theorem poolSim_exec (hi : PoolsInv db) (e : Step) : PoolSim db (exec dist db e) := by
  cases e with
  | createRide t params => exact Tx.commit_of (fun _ _ h ↦ poolSim_create h) .refl
  | createOffer t newId locked p => exact Tx.commit_of (fun _ _ h ↦ poolSim_createOffer h) .refl
  | acceptInTx t accounts offerId driverId trip =>
      exact Tx.commit_of (fun _ _ h ↦ poolSim_acceptInTx h) .refl
  | decline t offerId driverId => exact poolSim_decline
  | expireLapsed t locked => exact .of_eq rfl fun _ ↦ rfl
  | claimSolo t rideId driverId => exact Tx.commit_of (fun _ _ h ↦ poolSim_claimSolo h) .refl
  | transition dateNow rideId driverId event => exact poolSim_transition
  | cancel t dateNow params => exact poolSim_cancel
  | markNoDriver t rideId generation => exact poolSim_markNoDriver
  | rearmScheduledRide t rideId expectedGeneration => exact poolSim_rearmScheduledRide
  | wakeScheduled rideId generation => exact .of_eq rfl fun _ ↦ rfl
  | openPool t p => exact Tx.commit_of (fun _ _ h ↦ poolSim_openPool h) .refl
  | joinPool t p => exact Tx.commit_of (fun _ _ h ↦ poolSim_joinPool h) .refl
  | closeIfOpen t poolId => exact Tx.commit_of (fun _ _ h ↦ poolSim_closeIfOpen h) .refl
  | hardFailPool t poolId generation => exact poolSim_hardFailPool
  | confirmStop t input =>
      exact Tx.commit_of (fun _ _ h ↦ poolSim_confirmStop h (hi.pool input.rideId)) .refl

namespace PoolsInv

theorem of_noPools (h : db.NoPools) : PoolsInv db where
  pool id := by
    refine .of_absent (Table.get_eq_none.mpr fun s hs ↦ absurd hs (h.sharedRides s)) ?_ ?_
    · exact List.eq_nil_iff_forall_not_mem.mpr fun m hm ↦ h.poolMember m (Table.mem_filter.mp hm).1
    · exact List.eq_nil_iff_forall_not_mem.mpr fun s hs ↦ h.rideStops s (Table.mem_filter.mp hs).1
  activeOnce m hm := absurd hm (h.poolMember m)

theorem step {e : Step} (h : PoolsInv db) (hst : step dist db e db') : PoolsInv db' := by
  obtain rfl := hst
  have hsim := poolSim_exec dist h e
  exact ⟨fun id ↦ hsim.keeps (fun _ _ hst hi ↦ hi.step hst) id (h.pool id),
    hsim.activeOnce h.activeOnce⟩

theorem run (h : PoolsInv db₀) (hr : Run (Rcab.step dist) db₀ tr db) : PoolsInv db :=
  hr.invariant (fun _ _ _ hi hst ↦ hi.step hst) h

end PoolsInv

end System

end Rcab
