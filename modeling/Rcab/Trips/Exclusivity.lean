import Rcab.Trips.Simulation

/-!
# One driver, one trip

`driver_active_assignment` says of every trip exactly what the trip's own row says, in
every reachable state; so the guard's two unique keys, one per driver and one per trip,
are facts about the trips.
-/

universe u

namespace Rcab

/-- The guard binds the driver to the trip. -/
def Bound (db : Db) (d : DriverId) (trip : TripRef) : Prop :=
  db.driverActiveAssignment.Any fun a ↦ a.driverId = d ∧ a.trip = trip

/-- The trip's own row says the driver holds it. -/
def Holds (db : Db) (d : DriverId) : TripRef → Prop
  | .solo rideId => db.rides.Any fun r ↦ r.id = rideId ∧ r.driverId = some d ∧ r.status.Active
  | .shared poolId => db.sharedRides.Any fun s ↦
      s.rideId = poolId ∧ s.claimedByDriverId = some d ∧ s.poolState.Closed

section

variable {db : Db} {d : DriverId} {trip : TripRef}

instance : Decidable (Bound db d trip) := inferInstanceAs (Decidable (Table.Any _ _))

theorem bound_iff_guard :
    Bound db d trip ↔ ∃ b, (market db).guard d = some b ∧ b.job = trip := by
  constructor
  · rintro ⟨a, ha, hd, ht⟩
    exact ⟨a.view, market_guard_eq_some.mpr ⟨a, ha, hd, rfl⟩, ht⟩
  · rintro ⟨b, hb, hj⟩
    obtain ⟨a, ha, hd, rfl⟩ := market_guard_eq_some.mp hb
    exact ⟨a, ha, hd, hj⟩

theorem holds_iff_phase : Holds db d trip ↔ db.phase trip = .held d := by
  cases trip with
  | solo rideId =>
      constructor
      · rintro ⟨r, hr, rfl, hd, ha⟩
        exact (phase_solo (Table.get_of_mem hr)).trans (Ride.phase_eq_held.mpr ⟨hd, ha⟩)
      · intro h
        cases hg : db.rides.get rideId with
        | none => simp [Db.phase, hg] at h
        | some r =>
            rw [phase_solo hg, Ride.phase_eq_held] at h
            exact ⟨r, Table.mem_of_get hg, Table.key_of_get hg, h⟩
  | shared poolId =>
      constructor
      · rintro ⟨s, hs, rfl, hd, ha⟩
        exact (phase_shared (Table.get_of_mem hs)).trans (SharedRide.phase_eq_held.mpr ⟨hd, ha⟩)
      · intro h
        cases hg : db.sharedRides.get poolId with
        | none => simp [Db.phase, hg] at h
        | some s =>
            rw [phase_shared hg, SharedRide.phase_eq_held] at h
            exact ⟨s, Table.mem_of_get hg, Table.key_of_get hg, h⟩

/-- Exclusivity of the market, in the words of the tables. -/
theorem bound_iff_holds (h : Market.Exclusive (market db)) : Bound db d trip ↔ Holds db d trip := by
  rw [bound_iff_guard, holds_iff_phase]
  constructor
  · rintro ⟨b, hb, rfl⟩
    exact h.held_of_guard d b hb
  · intro hp
    exact h.guard_of_held trip d hp

end

variable {D : Type u} [LinearOrder D]

/-- In every state reachable from one without trips, the guard binds a driver to a trip if
and only if the trip's row does.  So no driver holds two trips, of either kind, and no trip
is held by two drivers. -/
theorem assignment_iff_active (dist : Point → Point → D) {db₀ db : Db} (h₀ : db₀.NoTrips)
    (h : Reachable (step dist) db₀ db) :
    (∀ d trip, Bound db d trip ↔ Holds db d trip) ∧
    (∀ d trip trip', Holds db d trip → Holds db d trip' → trip = trip') ∧
    (∀ d d' trip, Holds db d trip → Holds db d' trip → d = d') := by
  obtain ⟨tr, hr⟩ := h
  have hi : TripsInv db := (TripsInv.of_noTrips h₀).run hr
  have hiff : ∀ d trip, Bound db d trip ↔ Holds db d trip := fun d trip ↦
    bound_iff_holds hi.exclusive
  refine ⟨hiff, ?_, ?_⟩
  · intro d trip trip' h h'
    obtain ⟨b, hb, rfl⟩ := bound_iff_guard.mp ((hiff d trip).mpr h)
    obtain ⟨b', hb', rfl⟩ := bound_iff_guard.mp ((hiff d trip').mpr h')
    rw [hb, Option.some.injEq] at hb'
    rw [hb']
  · intro d d' trip h h'
    rw [holds_iff_phase] at h h'
    rw [h] at h'
    injection h'

/-- A ride to run the system on. -/
def sampleRide : Rides.CreateRide where
  newId := 1
  passengerId := 10
  origin := ⟨0, 0⟩
  dest := ⟨1, 1⟩
  fareCents := 900
  idempotencyKey := "k"

/-- An operator assigns driver 7 to it. -/
def sampleClaimed : Db :=
  exec (D := ℕ) (fun _ _ ↦ 0)
    (exec (D := ℕ) (fun _ _ ↦ 0) .empty (.createRide ⟨0, 0⟩ sampleRide)) (.claimSolo ⟨5, 5⟩ 1 7)

theorem sampleClaimed_holds : Bound sampleClaimed 7 (.solo 1) ∧ Holds sampleClaimed 7 (.solo 1) :=
  have h : Bound sampleClaimed 7 (.solo 1) := by decide
  ⟨h, ((assignment_iff_active (D := ℕ) (fun _ _ ↦ 0) Db.empty_noTrips
    ((Reachable.refl.tail rfl).tail rfl)).1 7 (.solo 1)).mp h⟩

end Rcab
