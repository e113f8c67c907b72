import Rcab.Trips.Exclusivity

/-!
# No live offer outlives its window

Every path that ends or moves a trip revokes its live offers in the same transaction, and
`createOffer` re-checks the trip; so in every reachable state a live offer is for a trip
that can still be dispatched at the offer's own generation.
-/

universe u

namespace Rcab

open Dispatch

variable {D : Type u} [LinearOrder D]

/-- A window of a generation is a dispatchable trip. -/
theorem dispatchable_of_phase {db : Db} {trip : TripRef} {g : ℕ} (h : db.phase trip = .window g) :
    Dispatchable db trip g := by
  cases trip with
  | solo rideId =>
      cases hg : db.rides.get rideId with
      | none => simp [Db.phase, hg] at h
      | some r =>
          rw [phase_solo hg, Ride.phase_eq_window] at h
          exact ⟨r, Table.mem_of_get hg, Table.key_of_get hg, h⟩
  | shared poolId =>
      cases hg : db.sharedRides.get poolId with
      | none => simp [Db.phase, hg] at h
      | some s =>
          rw [phase_shared hg, SharedRide.phase_eq_window] at h
          exact ⟨s, Table.mem_of_get hg, Table.key_of_get hg, h⟩

/-- In every state reachable from one without trips, by any steps of which only the wakes
are limited to generation 1: a live offer's trip is dispatchable at the offer's generation,
a driver has at most one live offer, and at most one offer of a trip's generation. -/
theorem live_offers_current (dist : Point → Point → D) {db₀ db : Db} (h₀ : db₀.NoTrips)
    (h : Reachable (only (step dist) Step.FirstWake) db₀ db) :
    (∀ o ∈ db.dispatchOffer, Live o → Dispatchable db o.trip o.dispatchGeneration) ∧
    (∀ o ∈ db.dispatchOffer, ∀ o' ∈ db.dispatchOffer, Live o → Live o' →
      o.driverId = o'.driverId → o = o') ∧
    (∀ o ∈ db.dispatchOffer, ∀ o' ∈ db.dispatchOffer, o.trip = o'.trip →
      o.dispatchGeneration = o'.dispatchGeneration → o.driverId = o'.driverId → o = o') := by
  obtain ⟨tr, hr⟩ := h
  obtain ⟨-, hf⟩ := fresh_of_run h₀ hr
  have row : ∀ o ∈ db.dispatchOffer, (market db).offer o.id = some o.view := fun o ho ↦
    market_offer_eq_some.mpr ⟨o, ho, rfl, rfl⟩
  refine ⟨?_, ?_, ?_⟩
  · intro o ho hl
    exact dispatchable_of_phase (hf.current o.id o.view (offerIs_of_live ho hl))
  · intro o ho o' ho' hl hl' hd
    exact Table.unique ho ho'
      (hf.one_live _ _ _ _ (offerIs_of_live ho hl) (offerIs_of_live ho' hl') hd)
  · intro o ho o' ho' ht hg hd
    exact Table.unique ho ho' (hf.unique _ _ _ _ (row o ho) (row o' ho') ht hg hd)

/-- The sample ride is offered to driver 7. -/
def sampleOffered : Db :=
  exec (D := ℕ) (fun _ _ ↦ 0)
    (exec (D := ℕ) (fun _ _ ↦ 0) .empty (.createRide ⟨0, 0⟩ sampleRide))
    (.createOffer ⟨5, 5⟩ 20 [] ⟨.solo 1, 7, 1, 1, 12000⟩)

theorem sampleOffered_current :
    ∃ o ∈ sampleOffered.dispatchOffer, Live o ∧
      Dispatchable sampleOffered o.trip o.dispatchGeneration := by
  have h : sampleOffered.dispatchOffer.Any Live := by decide
  obtain ⟨o, ho, hl⟩ := h
  exact ⟨o, ho, hl, (live_offers_current (D := ℕ) (fun _ _ ↦ 0) Db.empty_noTrips
    ((Reachable.refl.tail (e := .createRide ⟨0, 0⟩ sampleRide) ⟨rfl, trivial⟩).tail
      (e := .createOffer ⟨5, 5⟩ 20 [] ⟨.solo 1, 7, 1, 1, 12000⟩) ⟨rfl, trivial⟩)).1 o ho hl⟩

end Rcab
