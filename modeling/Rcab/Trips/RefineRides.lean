import Rcab.Trips.Refine

/-!
# The rides' transactions as market steps

Create, operator claim, give up, wake, re-arm, the forward lifecycle and cancellation.
-/

namespace Rcab

open Market (Phase Lax)
open Dispatch

variable {lax : Lax} {t : TxClock} {db db' : Db} {rideId : RideId}

/-- A new ride's window: a scheduled ride waits at generation 0. -/
theorem Rides.CreateRide.row_phase (params : Rides.CreateRide) :
    params.row.phase = .window (if params.type = .scheduled then 0 else 1) :=
  Ride.phase_eq_window.mpr ⟨rfl, rfl, rfl⟩

theorem sim_create {params : Rides.CreateRide} {r : Rides.CreatedRide}
    (h : Rides.create t db params = .ok (db', r)) : Sim lax db db' := by
  obtain rfl | ⟨m, hnone, -, rfl⟩ := Rides.create_eq_ok h
  · exact .refl
  · refine .of_step ?_ id
    show Market.Step lax (market db) (market { db with rides := db.rides.insert params.row })
    rw [market_rides_insert hnone, Rides.CreateRide.row_phase]
    exact .openWindow _ _ (by simp [Db.phase, hnone])

/-- The phase of an unassigned requested ride. -/
theorem phase_of_requested {ride : Ride} (hr : lockSoloTrip db rideId = some ride)
    (h : ¬ (ride.status ≠ .requested ∨ ride.driverId.isSome)) :
    db.phase (.solo rideId) = .window ride.dispatchGeneration := by
  rw [not_or, not_not] at h
  rw [phase_solo hr, Ride.phase_eq_window]
  exact ⟨h.1, by simpa using h.2, rfl⟩

theorem sim_claimSolo {driverId : DriverId} {r : Option Ride}
    (h : Rides.claimSolo t db rideId driverId = .ok (db', r)) : Sim lax db db' := by
  obtain rfl | ⟨ride, db₁, db₂, u, hr, hc, h₁, h₂, rfl⟩ := Rides.claimSolo_eq_ok h
  · exact .refl
  obtain ⟨hne, -⟩ | ⟨-, hfree, rfl⟩ := acquire_eq_ok h₁
  · exact absurd rfl hne
  obtain ⟨-, hm, hu, -⟩ := claimRow_eq_ok (show claimRow t _ (.solo rideId) _ _ = _ from h₂)
  refine .of_step ?_ hu
  have hm' : market (revokeLiveForTrip t db₂ (.solo rideId)).1 =
      (((market db).settle ((market db).on (.solo rideId))).setPhase (.solo rideId)
        (.held driverId)).setGuard driverId
          (some ⟨.solo rideId, none, max ride.dispatchGeneration 1⟩) := by
    rw [market_revokeLiveForTrip, hm, market_acquire hfree]
    rfl
  rw [hm']
  exact .assign _ _ _ _ (phase_of_requested hr hc) (market_guard_eq_none.mpr hfree)

theorem sim_markNoDriver {generation : Option ℕ} :
    Sim lax db (Rides.markNoDriver t db rideId generation).1 := by
  rcases Rides.markNoDriver_cases t db rideId generation with h | ⟨ride, _, hr, hc, h⟩ <;> rw [h]
  · exact .refl
  refine .of_step ?_ id
  have hid : ride.id = rideId := Table.key_of_get hr
  have hphase : Ride.phase { ride with status := .noDriver } = .over :=
    Ride.phase_eq_over (by simp) (Or.inr (by simp [RideStatus.Active]))
  have hm := market_rides_update (p := fun r ↦ r.id = rideId)
    (f := fun r ↦ { r with status := .noDriver }) (fun _ ↦ rfl) hr (fun _ h ↦ h) hid hphase
  show Market.Step lax (market db) (market (revokeLiveForTrip t _ (.solo rideId)).1)
  rw [market_revokeLiveForTrip, hm]
  exact .close _ _ (phase_of_requested hr hc)

theorem sim_rearmScheduledRide {expectedGeneration : Option ℕ} :
    Sim lax db (Scheduled.rearmScheduledRide t db rideId expectedGeneration).1 := by
  rcases Scheduled.rearmScheduledRide_cases t db rideId expectedGeneration with
    h | ⟨ride, hr, hret, -, h⟩ <;> rw [h]
  · exact .refl
  refine .of_step ?_ id
  have hid : ride.id = rideId := Table.key_of_get hr
  have hopen : db.phase (.solo rideId) = .window ride.dispatchGeneration :=
    (phase_solo hr).trans (Ride.phase_eq_window.mpr ⟨hret.status, hret.free, rfl⟩)
  have hphase : Ride.phase { ride with dispatchGeneration := ride.dispatchGeneration + 1 } =
      .window (ride.dispatchGeneration + 1) :=
    Ride.phase_eq_window.mpr ⟨hret.status, hret.free, rfl⟩
  have hm := market_rides_update
    (p := fun r ↦ r.id = rideId ∧ r.dispatchGeneration = ride.dispatchGeneration)
    (f := fun r ↦ { r with dispatchGeneration := ride.dispatchGeneration + 1 })
    (fun _ ↦ rfl) hr (fun _ h ↦ h.1) ⟨hid, rfl⟩ hphase
  show Market.Step lax (market db)
    (market (Outbox.enqueueOutbox t (revokeLiveForTrip t _ (.solo rideId)).1 _))
  rw [market_enqueueOutbox, market_revokeLiveForTrip, hm]
  exact .reopen _ _ _ hopen

/-- The irregularity of a wake: it is not the first, so it may move a window under its
live offers. -/
def wakeLax (generation : ℕ) : Lax := ⟨generation ≠ 1, False⟩

theorem sim_wakeScheduled {generation : ℕ} :
    Sim (wakeLax generation) db (Scheduled.wakeScheduled db rideId generation).1 := by
  by_cases hany : ∃ r ∈ db.rides, Scheduled.Wakeable rideId generation r
  · obtain ⟨ride, hride, hw⟩ := hany
    obtain ⟨hid, htype, hst, hgen⟩ := hw
    have hr : db.rides.get rideId = some ride := hid ▸ Table.get_of_mem hride
    cases hd : ride.driverId with
    | none =>
        have hphase : Ride.phase { ride with dispatchGeneration := generation } =
            .window generation := Ride.phase_eq_window.mpr ⟨hst, hd, rfl⟩
        have hm := market_rides_update
          (p := Scheduled.Wakeable rideId generation)
          (f := fun r ↦ { r with dispatchGeneration := generation }) (fun _ ↦ rfl) hr
          (fun _ h ↦ h.1) ⟨hid, htype, hst, hgen⟩ hphase
        refine .of_step ?_ id
        show Market.Step _ (market db) (market { db with rides := _ })
        rw [hm]
        refine .wake _ ride.dispatchGeneration _ ?_ ?_
        · rw [market_phase, phase_solo hr, Ride.phase_eq_window]
          exact ⟨hst, hd, rfl⟩
        · by_cases h1 : generation = 1
          · rcases hgen with hgen | hgen
            · exact Or.inr (Or.inl (by omega))
            · exact Or.inr (Or.inr hgen)
          · exact Or.inl h1
    | some d =>
        -- A requested ride never has a driver; such a row would stay out of the market.
        have hover : ∀ r : Ride, r.status = .requested → r.driverId = some d → r.phase = .over :=
          fun r hs hd ↦ Ride.phase_eq_over (by simp [hd]) (Or.inr (by simp [hs, RideStatus.Active]))
        have hm := market_rides_update
          (p := Scheduled.Wakeable rideId generation)
          (f := fun r ↦ { r with dispatchGeneration := generation }) (fun _ ↦ rfl) hr
          (fun _ h ↦ h.1) ⟨hid, htype, hst, hgen⟩ (hover _ hst hd)
        refine .of_eq ?_ id
        show market { db with rides := _ } = _
        rw [hm]
        refine Market.State.setPhase_self ?_
        rw [market_phase, phase_solo hr, hover ride hst hd]
  · refine .of_eq ?_ id
    show market { db with rides := _ } = _
    rw [Table.update_eq_self fun r hr hw ↦ hany ⟨r, hr, hw⟩]

/-! ## The forward lifecycle and cancellation -/

/-- The bound driver of an active ride holds it. -/
theorem phase_of_active {r : Ride} {d : DriverId} (hr : db.rides.get rideId = some r)
    (hd : r.driverId = some d) (ha : r.status.Active) : db.phase (.solo rideId) = .held d := by
  rw [phase_solo hr, Ride.phase_eq_held]
  exact ⟨hd, ha⟩

/-- The forward transitions start from, and but for the last lead to, a status in which
the driver holds the ride. -/
theorem Rides.transitions_active (event : Rides.RideEvent) :
    (Rides.transitions event).source.Active ∧
      ((Rides.transitions event).target.Active ∨ (Rides.transitions event).target = .completed) := by
  cases event <;> simp [Rides.transitions, RideStatus.Active]

theorem sim_transition {dateNow : Time} {driverId : DriverId} (event : Rides.RideEvent)
    (he : Market.Exclusive (market db)) :
    Sim lax db (Rides.transition db dateNow rideId driverId (Rides.transitions event).source
      (Rides.transitions event).target).1 := by
  obtain ⟨hsrc, htgt⟩ := Rides.transitions_active event
  generalize (Rides.transitions event).source = source at *
  generalize (Rides.transitions event).target = target at *
  rcases Rides.transition_cases db dateNow rideId driverId source target with
    h | ⟨current, hr, hd, hs, hcase⟩
  · rw [h]
    exact .refl
  have hheld := phase_of_active hr hd (hs ▸ hsrc)
  have hid : current.id = rideId := Table.key_of_get hr
  rcases hcase with ⟨hterm, h⟩ | ⟨hterm, h⟩ <;> rw [h]
  · -- The ride is completed and its driver released.
    have hover : (Rides.advance dateNow target current).phase = .over := by
      refine Ride.phase_eq_over ?_ (Or.inr ?_) <;> rw [Rides.advance_status] <;>
        rcases htgt with ht | rfl <;>
        first
          | (cases target <;> simp_all [RideStatus.Active, Rides.TerminalStatus])
          | simp [RideStatus.Active]
    have hm := market_rides_update (p := fun r ↦ r.id = rideId)
      (f := Rides.advance dateNow target) (Rides.advance_id dateNow target) hr
      (fun _ h ↦ h) hid hover
    obtain ⟨b, hb, hbj⟩ := he.guard_of_held (.solo rideId) driverId hheld
    refine .of_step ?_ id
    show Market.Step lax (market db) (market (Dispatch.release _ driverId (.solo rideId)).1)
    rw [market_release (b := b) (by rw [hm]; exact hb) hbj, hm]
    exact .finish _ _ b hheld hb hbj
  · -- The driver still holds the ride.
    have ht : target.Active := htgt.resolve_right fun h ↦ hterm (h ▸ trivial)
    have hm := market_rides_update (p := fun r ↦ r.id = rideId)
      (f := Rides.advance dateNow target) (Rides.advance_id dateNow target) hr
      (fun _ h ↦ h) hid
      (Ride.phase_eq_held.mpr ⟨(Rides.advance_driverId ..).trans hd, by simpa using ht⟩)
    refine .of_eq ?_ id
    show market { db with rides := _ } = _
    rw [hm]
    exact Market.State.setPhase_self hheld

/-- Where a cancellation leads: nowhere the trip is offerable or held. -/
theorem Rides.cancelTarget_eq_ok {params : Rides.CancelRide} {dateNow : Time} {current : Ride}
    {target : RideStatus} (h : Rides.cancelTarget params dateNow current = .ok target) :
    target = .noShow ∨ target = .cancelled := by
  unfold Rides.cancelTarget at h
  split_ifs at h
  · split at h
    · cases h
    · split_ifs at h
      exact Or.inl (Except.ok.inj h).symm
  · exact Or.inr (Except.ok.inj h).symm

/-- The row a cancellation writes. -/
theorem Rides.cancelled_phase {r : Ride} {target : RideStatus}
    (ht : target = .noShow ∨ target = .cancelled) (hs : r.status = target) : r.phase = .over := by
  refine Ride.phase_eq_over ?_ (Or.inr ?_) <;> rcases ht with rfl | rfl <;>
    simp [hs, RideStatus.Active]

theorem sim_cancel {dateNow : Time} {params : Rides.CancelRide}
    (he : Market.Exclusive (market db)) :
    Sim lax db (Rides.cancel t db dateNow params).1 := by
  rcases Rides.cancel_cases t db dateNow params with h | ⟨current, target, _, hr, htarget, rfl, h⟩ <;>
    rw [h]
  · exact .refl
  have ht := Rides.cancelTarget_eq_ok htarget
  have hid : current.id = params.rideId := Table.key_of_get hr
  have hm := market_rides_update
    (p := fun r ↦ r.id = params.rideId)
    (f := fun r ↦ { r with
      status := target
      cancelledAt := some dateNow
      cancelledBy := some params.actor
      cancelReason := params.reason }) (fun _ ↦ rfl) hr (fun _ h ↦ h) hid
    (Rides.cancelled_phase ht rfl)
  -- The market after the row is written and the offers are revoked.
  generalize hdb : ({ db with rides := _ } : Db) = db₁ at hm ⊢
  have hopen : db₁.sharedRides = db.sharedRides := by rw [← hdb]
  have hrev : market (revokeLiveForTrip t db₁ (.solo params.rideId)).1 =
      ((market db).settle ((market db).on (.solo params.rideId))).setPhase (.solo params.rideId)
        .over := by
    rw [market_revokeLiveForTrip, hm]
    rfl
  have hu : OpenUnclaimed db → OpenUnclaimed (revokeLiveForTrip t db₁ (.solo params.rideId)).1 := by
    intro ho s hs
    exact ho s (hopen ▸ hs)
  have hphase : db.phase (.solo params.rideId) = current.phase := phase_solo hr
  -- A ride that is neither offerable nor held only loses its live offers.
  have hidle : current.phase = .over →
      market (revokeLiveForTrip t db₁ (.solo params.rideId)).1 =
        (market db).settle ((market db).on (.solo params.rideId)) := fun hover ↦
    hrev.trans (Market.State.setPhase_self (hphase.trans hover))
  cases hd : current.driverId with
  | none =>
      by_cases hs : current.status = .requested
      · have hw : current.phase = .window current.dispatchGeneration :=
          Ride.phase_eq_window.mpr ⟨hs, hd, rfl⟩
        exact .of_step (hrev ▸ .close _ _ (hphase.trans hw)) hu
      · have hover := Ride.phase_eq_over (r := current) (fun h ↦ hs h.1) (Or.inl hd)
        exact .of_step (hidle hover ▸ .settle _) hu
  | some d =>
      by_cases ha : current.status.Active
      · -- The holder gives the ride up.
        have hheld := phase_of_active hr hd ha
        obtain ⟨b, hb, hbj⟩ := he.guard_of_held (.solo params.rideId) d hheld
        refine ⟨.tail (.single (.settle ((market db).on (.solo params.rideId)))) ?_, hu⟩
        have hrel := market_release
          (b := b) (by rw [hrev]; exact hb) hbj
        rw [hrev] at hrel
        exact hrel ▸ .finish _ _ b hheld hb hbj
      · have hover := Ride.phase_eq_over (r := current) (by simp [hd]) (Or.inr ha)
        refine .of_step ?_ hu
        have hrel := market_release_of_not
          fun b hb hbj ↦ by
            rw [hrev] at hb
            have := he.held_of_guard d b hb
            rw [hbj, market_phase, hphase, hover] at this
            cases this
        exact (hrel.trans (hidle hover)) ▸ .settle _

end Rcab
