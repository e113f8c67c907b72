import Rcab.Scheduled.Retry

/-!
# What a re-arm does

`rearmScheduledRide` opens the next window of a ride that is scheduled, requested and free,
at the generation the caller expects, or does nothing at all.
-/

namespace Rcab.Scheduled

open Dispatch (revokeLiveForTrip RevokedOffer Live)
open Outbox (enqueueOutbox)

/-- The ride's window at this generation can be closed by a re-arm. -/
structure Retryable (r : Ride) : Prop where
  type : r.type = .scheduled
  status : r.status = .requested
  free : r.driverId = none
  woken : 1 ≤ r.dispatchGeneration

/-- The database with the window after `g` open. -/
def rearmed (t : TxClock) (db : Db) (rideId : RideId) (g : ℕ) : Db :=
  enqueueOutbox t (revokeLiveForTrip t { db with
    rides := db.rides.update (fun r ↦ r.id = rideId ∧ r.dispatchGeneration = g)
      fun r ↦ { r with dispatchGeneration := g + 1 } } (.solo rideId)).1
    ⟨.ride, rideId, g + 1, .rideDispatchRequested rideId, none⟩

variable {t : TxClock} {db : Db} {rideId : RideId} {r : Ride}

/-- A retryable ride at the expected generation is re-armed. -/
theorem rearmScheduledRide_of_retryable (t : TxClock) (expected : Option ℕ)
    (hr : db.rides.get rideId = some r) (h : Retryable r)
    (he : ∀ g ∈ expected, g = r.dispatchGeneration) :
    (rearmScheduledRide t db rideId expected).1 = rearmed t db rideId r.dispatchGeneration ∧
      ∃ res, (rearmScheduledRide t db rideId expected).2 = some res ∧
        res.previousGeneration = r.dispatchGeneration ∧
        res.generation = r.dispatchGeneration + 1 ∧ res.passengerId = r.passengerId ∧
        res.firstRetry = decide (r.dispatchGeneration = 1) := by
  have hany : ¬ expected.any (· ≠ r.dispatchGeneration) = true := by
    cases expected with
    | none => simp
    | some g => simp [he g rfl]
  have hwoken : ¬ r.dispatchGeneration < 1 := by
    have := h.woken
    omega
  unfold rearmScheduledRide
  simp only [hr, h.type, h.status, h.free, ne_eq, not_true_eq_false, Option.isSome_none,
    Bool.false_eq_true, or_self, if_false, hwoken, hany]
  exact ⟨rfl, _, rfl, rfl, rfl, rfl, decide_eq_decide.mpr (by omega)⟩

/-- Every re-arm does nothing or closes the window of a retryable ride. -/
theorem rearmScheduledRide_cases (t : TxClock) (db : Db) (rideId : RideId) (expected : Option ℕ) :
    rearmScheduledRide t db rideId expected = (db, none) ∨
      ∃ r, db.rides.get rideId = some r ∧ Retryable r ∧
        (∀ g ∈ expected, g = r.dispatchGeneration) ∧
        (rearmScheduledRide t db rideId expected).1 = rearmed t db rideId r.dispatchGeneration := by
  cases hr : db.rides.get rideId with
  | none => exact Or.inl (by unfold rearmScheduledRide; rw [hr])
  | some r =>
      by_cases h : Retryable r ∧ ∀ g ∈ expected, g = r.dispatchGeneration
      · exact Or.inr ⟨r, rfl, h.1, h.2, (rearmScheduledRide_of_retryable t expected hr h.1 h.2).1⟩
      left
      unfold rearmScheduledRide
      rw [hr]
      dsimp only
      split_ifs with h₁ h₂ h₃
      · rfl
      · rfl
      · rfl
      · refine absurd ⟨⟨?_, ?_, ?_, by omega⟩, fun g hg ↦ ?_⟩ h
        · by_contra hne
          exact h₁ (Or.inl hne)
        · by_contra hne
          exact h₁ (Or.inr (Or.inl hne))
        · by_contra hne
          exact h₁ (Or.inr (Or.inr (Option.isSome_iff_ne_none.mpr hne)))
        · rw [Option.mem_def.mp hg] at h₃
          simpa using h₃

/-- A re-arm that answers closed the ride's window. -/
theorem rearmScheduledRide_eq_some {expected : Option ℕ} {res : ScheduledRetryResult}
    (h : (rearmScheduledRide t db rideId expected).2 = some res) :
    ∃ r, db.rides.get rideId = some r ∧ Retryable r ∧
      (rearmScheduledRide t db rideId expected).1 = rearmed t db rideId r.dispatchGeneration ∧
      res.previousGeneration = r.dispatchGeneration ∧ res.generation = r.dispatchGeneration + 1 ∧
      res.passengerId = r.passengerId ∧ res.firstRetry = decide (r.dispatchGeneration = 1) := by
  rcases rearmScheduledRide_cases t db rideId expected with hno | ⟨r, hr, hret, he, -⟩
  · rw [hno] at h
    cases h
  · obtain ⟨hdb, res', hres, hprev, hgen, hp, hfirst⟩ :=
      rearmScheduledRide_of_retryable t expected hr hret he
    obtain rfl := Option.some.inj (h.symm.trans hres)
    exact ⟨r, hr, hret, hdb, hprev, hgen, hp, hfirst⟩

/-- A re-arm for another generation than the ride's does nothing. -/
theorem rearmScheduledRide_of_ne (t : TxClock) (hr : db.rides.get rideId = some r) {g : ℕ}
    (hg : g ≠ r.dispatchGeneration) : rearmScheduledRide t db rideId (some g) = (db, none) := by
  rcases rearmScheduledRide_cases t db rideId (some g) with hno | ⟨r', hr', -, he, -⟩
  · exact hno
  · obtain rfl := Option.some.inj (hr.symm.trans hr')
    exact absurd (he g rfl) hg

theorem rearmed_rides {g : ℕ} : (rearmed t db rideId g).rides =
    db.rides.update (fun r ↦ r.id = rideId ∧ r.dispatchGeneration = g)
      fun r ↦ { r with dispatchGeneration := g + 1 } := rfl

theorem rearmed_dispatchOffer {g : ℕ} : (rearmed t db rideId g).dispatchOffer =
    (revokeLiveForTrip t db (.solo rideId)).1.dispatchOffer := rfl

theorem rearmed_outbox {g : ℕ} : (rearmed t db rideId g).outbox =
    (enqueueOutbox t db ⟨.ride, rideId, g + 1, .rideDispatchRequested rideId, none⟩).outbox := rfl

/-- The ride after its re-arm. -/
theorem get_rearmed (hr : db.rides.get rideId = some r) :
    (rearmed t db rideId r.dispatchGeneration).rides.get rideId =
      some { r with dispatchGeneration := r.dispatchGeneration + 1 } := by
  have hid : r.id = rideId := Table.key_of_get hr
  rw [rearmed_rides, Table.get_update, hr, Option.map_some, if_pos ⟨hid, rfl⟩]

/-- The other rides after it. -/
theorem get_rearmed_ne (t : TxClock) (db : Db) (g : ℕ) {id : RideId} (h : id ≠ rideId) :
    (rearmed t db rideId g).rides.get id = db.rides.get id := by
  rw [rearmed_rides]
  exact Table.get_update_key (f := fun r : Ride ↦ { r with dispatchGeneration := g + 1 })
    (fun _ ↦ rfl) (fun _ hp ↦ hp.1) h

/-- No live offer of the ride is left. -/
theorem not_live_rearmed {g : ℕ} {o : DispatchOffer}
    (ho : o ∈ (rearmed t db rideId g).dispatchOffer) (htrip : o.trip = .solo rideId) : ¬ Live o := by
  simp only [rearmed_dispatchOffer, revokeLiveForTrip, Dispatch.resolveWhere,
    Table.mem_update] at ho
  obtain ⟨a, -, rfl⟩ := ho
  split_ifs at htrip ⊢ with ha
  · simp [Live, Dispatch.resolve]
  · exact fun hl ↦ ha ⟨hl, htrip, by simp⟩

end Rcab.Scheduled
