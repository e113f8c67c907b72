import Rcab.Trips.Accepts
import Rcab.Trips.Rejected

/-!
# No accept ends in an unexplained error

What `acceptInTx` and `claimSolo` assert while they bind a trip was checked before on the locked
rows, or holds of every reachable database.
-/

universe u

namespace Rcab

open Dispatch

variable {t : TxClock} {db db' : Db} {accounts : Accounts} {driverId : DriverId} {trip : TripRef}
  {g : ℕ}

/-- A dispatchable trip can be claimed at its generation. -/
theorem claimRow_of_dispatchable (t : TxClock) (driverId : DriverId) (h : Dispatchable db trip g) :
    ∃ db', claimRow t db trip driverId g = .ok (db', ()) := by
  cases trip with
  | solo rideId =>
      obtain ⟨r, hr, hid, hs, hd, -⟩ := h
      have hany : db.rides.Any fun r ↦ r.id = rideId ∧ r.status = .requested ∧ r.driverId = none :=
        ⟨r, hr, hid, hs, hd⟩
      simp only [claimRow, claimSoloRow]
      rw [if_pos hany]
      exact ⟨_, rfl⟩
  | shared poolId =>
      obtain ⟨s, hs, hid, hc, hd, hg⟩ := h
      have hany : db.sharedRides.Any (Unclaimed poolId g) := ⟨s, hs, hid, hd, hc, hg⟩
      simp only [claimRow, claimSharedRow]
      rw [if_pos hany]
      exact ⟨_, rfl⟩

/-- A guard is taken or refused for one of the three reasons, unless another guard has its
offer. -/
theorem acquire_ok (t : TxClock) (p : Acquire) (hg : 1 ≤ p.generation)
    (ho : ∀ a ∈ db.driverActiveAssignment, a.offerId.isSome → a.offerId ≠ p.offerId) :
    ∃ r, acquire t db p = .ok r := by
  have hnot : ¬ db.driverActiveAssignment.Any fun a ↦ a.offerId.isSome ∧ a.offerId = p.offerId := by
    rintro ⟨a, ha, hsome, heq⟩
    exact ho a ha hsome heq
  unfold acquire
  rw [if_neg (Nat.not_lt.mpr hg)]
  split_ifs
  · exact ⟨_, rfl⟩
  · exact ⟨_, rfl⟩
  · exact ⟨_, rfl⟩

/-- A live offer is accepted, unless its trip has another accepted one at its generation. -/
theorem markAccepted_ok (t : TxClock) {o : DispatchOffer}
    (ho : db.dispatchOffer.get o.id = some o) (hl : Live o) (hc : ¬ AcceptConflict db o) :
    ∃ db', markAccepted t db o.id = .ok (db', ()) := by
  have hnot : ¬ (DispatchOfferState.accepted = .accepted ∧ AcceptConflict db o) := fun h ↦ hc h.2
  unfold markAccepted resolveLive
  rw [ho]
  dsimp only
  rw [if_neg (not_not.mpr hl), if_neg hnot]
  exact ⟨_, rfl⟩

/-- Resolving an offer otherwise violates nothing. -/
theorem resolveLive_ok (t : TxClock) (db : Db) (offerId : OfferId) {target : DispatchOfferState}
    (ht : target ≠ .accepted) :
    ∃ r, resolveLive t db offerId target = .ok r := by
  have hnot : ∀ o, ¬ (target = .accepted ∧ AcceptConflict db o) := fun o h ↦ ht h.1
  unfold resolveLive
  split
  · exact ⟨_, rfl⟩
  · rw [if_neg (hnot _)]
    split_ifs <;> exact ⟨_, rfl⟩

/-- What the binding of a trip rests on. -/
structure Bindable (db : Db) : Prop where
  named : Market.Named (market db)
  single : Market.Single (market db)

namespace Bindable

/-- No guard names a live offer. -/
theorem no_guard (h : Bindable db) {o : DispatchOffer} (ho : o ∈ db.dispatchOffer) (hl : Live o) :
    ∀ a ∈ db.driverActiveAssignment, a.offerId.isSome → a.offerId ≠ some o.id := by
  intro a ha _ heq
  obtain ⟨v, hv⟩ := h.named.accepted a.driverId a.view o.id
    (market_guard_eq_some.mpr ⟨a, ha, rfl, rfl⟩) heq
  cases (offerIs_of_live ho hl).state_eq hv

/-- A trip in a window has no accepted offer. -/
theorem no_accepted (h : Bindable db) {o : DispatchOffer} (hp : db.phase o.trip = .window g) :
    ¬ AcceptConflict db o := by
  rintro ⟨a, ha, -, hacc, htrip, -⟩
  have hphase : (market db).phase a.view.job = .window g := by
    rw [market_phase, show a.view.job = o.trip from htrip]
    exact hp
  rcases h.single.settled a.id a.view (offerIs_of_accepted ha hacc) with hover | ⟨hheld, -⟩
  · cases hphase.symm.trans hover
  · cases hphase.symm.trans hheld

theorem gen_pos (h : Bindable db) {o : DispatchOffer} (ho : o ∈ db.dispatchOffer) :
    1 ≤ o.dispatchGeneration :=
  h.named.gen_pos o.id o.view (market_offer_eq_some.mpr ⟨o, ho, rfl, rfl⟩)

/-- A live offer's trip is bound to its driver, from the state in which the guard is taken. -/
theorem bindTrip_ok {o : DispatchOffer} {guards : Table DriverActiveAssignment.driverId}
    (h : Bindable db) (ho : db.dispatchOffer.get o.id = some o) (hl : Live o)
    (hp : db.phase o.trip = .window o.dispatchGeneration) :
    ∃ r, bindTrip t { db with driverActiveAssignment := guards } o driverId o.trip = .ok r := by
  have hdisp : Dispatchable { db with driverActiveAssignment := guards } o.trip
      o.dispatchGeneration := by
    have hdb := dispatchable_of_phase hp
    cases htrip : o.trip <;> rw [htrip] at hdb <;> exact hdb
  obtain ⟨db₁, h₁⟩ := claimRow_of_dispatchable t driverId hdisp
  obtain ⟨-, -, -, hoffers⟩ := claimRow_eq_ok h₁
  have hconflict : ¬ AcceptConflict db₁ o := by
    unfold AcceptConflict
    rw [hoffers]
    exact h.no_accepted hp
  have ho₁ : db₁.dispatchOffer.get o.id = some o := by
    rw [hoffers]
    exact ho
  obtain ⟨db₂, h₂⟩ := markAccepted_ok t ho₁ hl hconflict
  unfold bindTrip
  rw [h₁]
  simp only [Tx.andThen, h₂]
  exact ⟨_, rfl⟩

/-- From the checks of a live offer on. -/
theorem acceptLive_ok {o : DispatchOffer} {locked : LockedTrip} (h : Bindable db)
    (ho : db.dispatchOffer.get o.id = some o) (hl : Live o)
    (hlock : lockTrip db o.trip = some locked) :
    ∃ r, acceptLive t db accounts o driverId o.trip locked = .ok r := by
  have hres : ∀ {target : DispatchOfferState} {reason : AcceptOfferFailure}, target ≠ .accepted →
      ∃ r, ((resolveLive t db o.id target).andThen fun db _ ↦ .ok (db, rejected reason)) =
        .ok r := by
    intro target reason ht
    obtain ⟨⟨db₁, b⟩, h₁⟩ := resolveLive_ok t db o.id ht
    rw [h₁]
    exact ⟨_, rfl⟩
  unfold acceptLive
  by_cases hlapsed : Lapsed t.clockTimestamp o
  · rw [if_pos hlapsed]
    exact hres (by simp)
  rw [if_neg hlapsed]
  by_cases hgen : o.dispatchGeneration ≠ locked.dispatchGeneration
  · rw [if_pos hgen]
    exact hres (by simp)
  rw [if_neg hgen]
  cases hseats : seatsNeeded db locked with
  | error reason => exact ⟨_, rfl⟩
  | ok seats =>
  dsimp only
  cases driverEligibility accounts driverId seats with
  | driverIneligible => exact ⟨_, rfl⟩
  | vehicleCapacity => exact ⟨_, rfl⟩
  | ok =>
  dsimp only
  have hp : db.phase o.trip = .window o.dispatchGeneration := by
    rw [not_not.mp hgen]
    exact phase_of_lockTrip hlock hseats
  have hmem : o ∈ db.dispatchOffer := Table.mem_of_get ho
  obtain ⟨⟨db₁, guard⟩, h₁⟩ := acquire_ok t
    ⟨driverId, o.trip, some o.id, o.dispatchGeneration⟩ (h.gen_pos hmem) (h.no_guard hmem hl)
  rw [h₁]
  rcases acquire_eq_ok h₁ with ⟨hne, rfl⟩ | ⟨rfl, -, rfl⟩
  · cases guard with
    | ok => exact absurd rfl hne
    | driverBusy => exact ⟨_, rfl⟩
    | tripTaken => exact ⟨_, rfl⟩
  · exact h.bindTrip_ok ho hl hp

/-- An accept for the trip of the presented offer answers. -/
theorem acceptInTx_ok {offerId : OfferId} (h : Bindable db)
    (htrip : ∀ o, findForDriver db offerId driverId = some o → o.trip = trip) :
    ∃ r, acceptInTx t db accounts offerId driverId trip = .ok r := by
  unfold acceptInTx
  cases hlock : lockTrip db trip with
  | none => exact ⟨_, rfl⟩
  | some locked =>
  dsimp only
  cases ho : lockForUpdate db offerId with
  | none => exact ⟨_, rfl⟩
  | some o =>
  dsimp only
  by_cases hd : o.driverId ≠ driverId
  · rw [if_pos hd]
    exact ⟨_, rfl⟩
  rw [if_neg hd]
  by_cases ha : o.state = .accepted
  · rw [if_pos ha]
    split
    · split_ifs <;> exact ⟨_, rfl⟩
    · exact ⟨_, rfl⟩
  rw [if_neg ha]
  by_cases hl : Live o
  · rw [if_neg (not_not.mpr hl)]
    have hget : db.dispatchOffer.get offerId = some o := ho
    obtain rfl : o.trip = trip := by
      refine htrip o ?_
      unfold findForDriver
      rw [hget]
      simpa using hd
    exact h.acceptLive_ok ((Table.key_of_get hget : o.id = offerId) ▸ hget) hl hlock
  · rw [if_pos hl]
    exact ⟨_, rfl⟩

end Bindable

/-- An operator's claim answers, in whatever state. -/
theorem claimSolo_ok (t : TxClock) (db : Db) (rideId : RideId) (driverId : DriverId) :
    ∃ r, Rides.claimSolo t db rideId driverId = .ok r := by
  unfold Rides.claimSolo
  cases hlock : lockSoloTrip db rideId with
  | none => exact ⟨_, rfl⟩
  | some ride =>
  dsimp only
  by_cases hfree : ride.status ≠ .requested ∨ ride.driverId.isSome
  · rw [if_pos hfree]
    exact ⟨_, rfl⟩
  rw [if_neg hfree]
  obtain ⟨hs, hd⟩ := not_or.mp hfree
  -- It presents no offer, so no guard can have it.
  obtain ⟨⟨db₁, guard⟩, h₁⟩ := acquire_ok t
    ⟨driverId, .solo rideId, none, max ride.dispatchGeneration 1⟩ (Nat.le_max_right _ _)
    (fun a _ hsome heq ↦ by rw [heq] at hsome; cases hsome)
  rw [h₁]
  rcases acquire_eq_ok h₁ with ⟨hne, rfl⟩ | ⟨rfl, -, rfl⟩
  · cases guard with
    | ok => exact absurd rfl hne
    | driverBusy => exact ⟨_, rfl⟩
    | tripTaken => exact ⟨_, rfl⟩
  · have hany : db.rides.Any fun r ↦ r.id = rideId ∧ r.status = .requested ∧ r.driverId = none :=
      ⟨ride, Table.mem_of_get hlock, Table.key_of_get hlock, not_not.mp hs, by simpa using hd⟩
    simp only [Tx.andThen, claimSoloRow]
    rw [if_pos hany]
    exact ⟨_, rfl⟩

variable {D : Type u} [LinearOrder D]

/-- In every reachable state, an accept for the trip that was read from the offer at any earlier
time and an operator's claim commit an answer: no statement of theirs throws, and no constraint is
violated other than those that `acquire` answers for. -/
theorem never_throws (dist : Point → Point → D) {db₀ seenIn : Db} {tr tr' : List (Db × Step)}
    (h₀ : db₀.NoTrips) (hr : Run (only (step dist) Step.Derived) db₀ tr seenIn)
    (hr' : Run (only (step dist) Step.Derived) seenIn tr' db) :
    (∀ t accounts offerId driverId seen, findForDriver seenIn offerId driverId = some seen →
      ∃ r, acceptInTx t db accounts offerId driverId seen.trip = .ok r) ∧
    ∀ t rideId driverId, ∃ r, Rides.claimSolo t db rideId driverId = .ok r := by
  obtain ⟨-, hsingle⟩ := single_of_run h₀ (hr.trans hr')
  have hnamed := named_of_run h₀ (hr.trans hr').of_only
  refine ⟨fun t accounts offerId driverId seen hseen ↦ ?_,
    fun t rideId driverId ↦ claimSolo_ok t db rideId driverId⟩
  refine Bindable.acceptInTx_ok ⟨hnamed, hsingle⟩ fun o ho ↦ ?_
  obtain ⟨hget, -⟩ := Option.filter_eq_some_iff.mp ho
  exact trip_of_seen h₀ hr.of_only hseen hr'.of_only hget

/-- Driver 7 accepts the sample offer in time. -/
theorem sampleOffered_answers :
    ∃ r, acceptInTx ⟨6, 6⟩ sampleOffered sampleAccounts 20 7 (.solo 1) = .ok r := by
  have hsome : (findForDriver sampleOffered 20 7).map DispatchOffer.trip = some (.solo 1) := by
    decide
  obtain ⟨seen, hseen, htrip⟩ := Option.map_eq_some_iff.mp hsome
  have hcreate : only (step (D := ℕ) fun _ _ ↦ 0) Step.Derived .empty
    (.createRide ⟨0, 0⟩ sampleRide)
    (exec (D := ℕ) (fun _ _ ↦ 0) .empty (.createRide ⟨0, 0⟩ sampleRide)) := ⟨rfl, trivial⟩
  have hoffer : only (step (D := ℕ) fun _ _ ↦ 0) Step.Derived _
    (.createOffer ⟨5, 5⟩ 20 [] ⟨.solo 1, 7, 1, 1, 12000⟩) sampleOffered := ⟨rfl, trivial⟩
  rw [← htrip]
  exact (never_throws (fun _ _ ↦ 0) Db.empty_noTrips ((Run.single hcreate).snoc hoffer) .nil).1 _ _
    20 7 seen hseen

end Rcab
