import Rcab.DriverApp.SharedRide
import Rcab.Pools.Confirmations

/-!
# What one call does to the notifier

A call takes up an itinerary of the server (`Takes`), turns the offer shown into the assignment
(`Starts`), confirms one stop, or shows no more of any trip than before (`apply_cases`).
-/

namespace Rcab.DriverApp

open Realtime (DriverStopView)
open RideLifecycle (StopEcho)

/-! ## What is shown -/

/-- The state tells that it came true. -/
def SharedRideState.Tells (s : SharedRideState) : TripFact → Prop
  | .confirmed i => ∃ x ∈ s.stops, x.stop.sequenceIndex = i ∧ x.status = .confirmed
  | .completed => s.completed = true

/-- The state tells the opposite. -/
def SharedRideState.Denies (s : SharedRideState) : TripFact → Prop
  | .confirmed i => ∃ x ∈ s.stops, x.stop.sequenceIndex = i ∧ x.status = .pending
  | .completed => s.completed = false

instance {s : SharedRideState} : DecidablePred s.Tells
  | .confirmed _ => inferInstanceAs (Decidable (∃ x ∈ s.stops, _))
  | .completed => inferInstanceAs (Decidable (_ = true))

instance {s : SharedRideState} : DecidablePred s.Denies
  | .confirmed _ => inferInstanceAs (Decidable (∃ x ∈ s.stops, _))
  | .completed => inferInstanceAs (Decidable (_ = false))

namespace SharedRideNotifier

/-- It is shown of this trip. -/
def Shows (n : SharedRideNotifier) (tripId : Uuid) (f : TripFact) : Prop :=
  n.state.sharedRideId = some tripId ∧ n.state.Tells f

/-- The trip is shown as one to drive, without it. -/
def TakesBack (n : SharedRideNotifier) (tripId : Uuid) (f : TripFact) : Prop :=
  n.state.sharedRideId = some tripId ∧ n.state.isAssigned ∧ n.state.Denies f

instance {n : SharedRideNotifier} {tripId : Uuid} {f : TripFact} : Decidable (n.Shows tripId f) :=
  inferInstanceAs (Decidable (_ ∧ _))

instance {n : SharedRideNotifier} {tripId : Uuid} {f : TripFact} :
    Decidable (n.TakesBack tripId f) :=
  inferInstanceAs (Decidable (_ ∧ _ ∧ _))

/-- The itinerary a call replaces the state by. -/
def Takes (n : SharedRideNotifier) : Input → DriverAssignment → Prop
  | .applyAssignment (some b), a =>
      b = a ∧ a.isShared ∧ ¬ n.isOlder a.tripId (some a.version) ∧
        ¬ n.revertsCompleted a.tripId a.version
  | .applyOutcome outcome, a =>
      outcome.kind = .assigned ∧ outcome.tripKind ≠ some .solo ∧ outcome.assignment = some a ∧
        a.isShared ∧
          if n.Matches outcome then n.state.sharedRideId = some a.tripId
          else a.offerId = some outcome.offerId ∧ ¬ n.isOlder a.tripId (some a.version) ∧
            ¬ n.revertsCompleted a.tripId a.version
  | _, _ => False

/-- The call makes the offer shown the assignment, with the stops of the offer. -/
def Starts (n : SharedRideNotifier) : Input → Prop
  | .applyOutcome outcome =>
      outcome.kind = .assigned ∧ outcome.tripKind ≠ some .solo ∧ n.Matches outcome ∧
        ¬ n.state.isAssigned ∧
        ∀ a, outcome.assignment = some a → a.isShared → n.state.sharedRideId ≠ some a.tripId
  | _ => False

/-- An echo was applied. -/
structure Echoed (n : SharedRideNotifier) (echo : StopEcho) (n' : SharedRideNotifier) : Prop where
  trip : n.state.sharedRideId = some echo.rideId
  assigned : n.state.isAssigned
  newer : ¬ n.isOlder echo.rideId echo.version
  versionTripId : n'.versionTripId = (n.noteVersion echo.rideId echo.version).versionTripId
  appliedVersion : n'.appliedVersion = (n.noteVersion echo.rideId echo.version).appliedVersion
  trip' : n'.state.sharedRideId = some echo.rideId
  assigned' : n'.state.isAssigned
  /-- No stop, or the first of its index, which was pending. -/
  stops : n'.state = n.state ∨ ∃ l₁ x l₂, n.state.stops = l₁ ++ x :: l₂ ∧
    x.stop.sequenceIndex = echo.sequenceIndex ∧ x.status = .pending ∧
      n'.state.stops = l₁ ++ { x with
        status := .confirmed, confirmedAt := some echo.confirmedAt } :: l₂ ∧
      (n'.state.completed = true ↔
        echo.rideCompleted = true ∨ ∀ y ∈ n'.state.stops, y.status = .confirmed)
  told : echo.sequenceIndex ∈ n.state.stops.map (fun y ↦ y.stop.sequenceIndex) →
    n'.state.Tells (.confirmed echo.sequenceIndex)

/-- No more is shown of any trip than before, and none newly assigned. -/
structure Kept (n n' : SharedRideNotifier) : Prop where
  versionTripId : n'.versionTripId = n.versionTripId
  appliedVersion : n'.appliedVersion = n.appliedVersion
  shows : ∀ tripId f, n'.Shows tripId f → n.Shows tripId f
  assigned : n'.state.isAssigned → n'.state = n.state

/-- The offer became the assignment. -/
structure Started (n n' : SharedRideNotifier) : Prop where
  assigned : n'.state.isAssigned
  versionTripId : n'.versionTripId = n.versionTripId
  sharedRideId : n'.state.sharedRideId = n.state.sharedRideId
  stops : n'.state.stops = n.state.stops
  completed : n'.state.completed = n.state.completed

/-- Where the stops of the state come from. -/
inductive StopsOf (n n' : SharedRideNotifier) : Input → Prop
  /-- They stay. -/
  | kept {i : Input} (hid : n'.state.sharedRideId = n.state.sharedRideId)
      (hstops : n'.state.stops = n.state.stops) : StopsOf n n' i
  /-- There are none. -/
  | none {i : Input} (hid : n'.state.sharedRideId = none) (hstops : n'.state.stops = []) :
      StopsOf n n' i
  /-- They are those of an offer. -/
  | offer (o : SharedRideOffer) (hid : n'.state.sharedRideId = some o.sharedRideId)
      (hstops : n'.state.stops = sortStops (o.stops.map fun s ↦ { stop := s, status := .pending })) :
      StopsOf n n' (.applyOffer o)

variable {n n' : SharedRideNotifier}

/-! ## The versions noted -/

theorem noteVersion_versionTripId (n : SharedRideNotifier) (tripId : Uuid) (version : ℕ) :
    (n.noteVersion tripId (some version)).versionTripId = some tripId := by
  unfold noteVersion
  dsimp only
  split_ifs with h h'
  · rfl
  · exact not_not.mp h
  · exact not_not.mp h

theorem le_noteVersion (n : SharedRideNotifier) (tripId : Uuid) (version : ℕ) :
    version ≤ (n.noteVersion tripId (some version)).appliedVersion := by
  unfold noteVersion
  dsimp only
  split_ifs with h h'
  · exact Nat.le_refl _
  · exact Nat.le_refl _
  · exact not_lt.mp h'

@[simp] theorem noteVersion_state (n : SharedRideNotifier) (tripId : Uuid) (version : Option ℕ) :
    (n.noteVersion tripId version).state = n.state := by
  cases version with
  | none => rfl
  | some version =>
      unfold noteVersion
      dsimp only
      split_ifs <;> rfl

/-! ## An itinerary taken up -/

theorem mem_sortStops {stops : List StopState} {x : StopState} :
    x ∈ sortStops stops ↔ x ∈ stops := List.mem_insertionSort _

theorem sortStops_perm (stops : List StopState) : (sortStops stops).Perm stops :=
  List.perm_insertionSort _ _

section Hydrate

variable {a : DriverAssignment}

@[simp] theorem hydrate_sharedRideId : (n.hydrate a).state.sharedRideId = some a.tripId := rfl

@[simp] theorem hydrate_stops :
    (n.hydrate a).state.stops = sortStops (a.stops.map restoredStop) := rfl

theorem hydrate_versionTripId : (n.hydrate a).versionTripId = some a.tripId := by
  unfold hydrate
  dsimp only
  split_ifs <;> exact noteVersion_versionTripId n a.tripId a.version

theorem hydrate_appliedVersion : (n.hydrate a).appliedVersion =
    (n.noteVersion a.tripId (some a.version)).appliedVersion := by
  unfold hydrate
  dsimp only
  split_ifs <;> rfl

theorem mem_hydrate_stops {x : StopState} :
    x ∈ (n.hydrate a).state.stops ↔ ∃ j ∈ a.stops, restoredStop j = x := by
  rw [hydrate_stops, mem_sortStops, List.mem_map]

theorem restoredStop_status {j : DriverStopView} :
    (restoredStop j).status = .confirmed ↔ j.confirmed = true := by
  unfold restoredStop
  dsimp only
  split_ifs with h <;> simp [h]

theorem hydrate_completed : (n.hydrate a).state.completed = true ↔
    a.stops ≠ [] ∧ ∀ j ∈ a.stops, j.confirmed = true := by
  have hnil : sortStops (a.stops.map restoredStop) = [] ↔ a.stops = [] := by
    rw [← List.map_eq_nil_iff (f := restoredStop)]
    exact ⟨fun h ↦ List.Perm.eq_nil (h ▸ (sortStops_perm _).symm), fun h ↦ by rw [h]; rfl⟩
  have hpending : (sortStops (a.stops.map restoredStop)).findIdx? (fun s ↦ s.status = .pending) = none ↔
      ∀ j ∈ a.stops, j.confirmed = true := by
    rw [List.findIdx?_eq_none_iff]
    constructor
    · intro h j hj
      have hj' := h _ (mem_sortStops.mpr (List.mem_map_of_mem hj))
      rw [← restoredStop_status]
      cases hst : (restoredStop j).status with
      | pending => simp [hst] at hj'
      | confirmed => rfl
    · intro h x hx
      obtain ⟨j, hj, rfl⟩ := List.mem_map.mp (mem_sortStops.mp hx)
      rw [restoredStop_status.mpr (h j hj)]
      rfl
  show decide _ = true ↔ _
  rw [decide_eq_true_iff, ne_eq, hnil, hpending]

end Hydrate

/-! ## A stop confirmed -/

section Confirm

variable {echo : StopEcho} {idx : ℕ}

theorem confirmAt_versionTripId : (n.confirmAt echo idx).versionTripId = n.versionTripId := by
  unfold confirmAt
  dsimp only
  split_ifs <;> rfl

theorem confirmAt_appliedVersion : (n.confirmAt echo idx).appliedVersion = n.appliedVersion := by
  unfold confirmAt
  dsimp only
  split_ifs <;> rfl

theorem confirmAt_sharedRideId :
    (n.confirmAt echo idx).state.sharedRideId = n.state.sharedRideId := by
  unfold confirmAt
  dsimp only
  split_ifs <;> rfl

theorem confirmAt_isAssigned : (n.confirmAt echo idx).state.isAssigned ↔ n.state.isAssigned := by
  unfold confirmAt
  dsimp only
  split_ifs <;> rfl

theorem confirmAt_stops : (n.confirmAt echo idx).state.stops = n.state.stops.modify idx fun s ↦
    { s with status := .confirmed, confirmedAt := some echo.confirmedAt } := by
  unfold confirmAt
  dsimp only
  split_ifs <;> rfl

theorem confirmAt_completed : (n.confirmAt echo idx).state.completed = true ↔
    echo.rideCompleted = true ∨ ∀ y ∈ (n.confirmAt echo idx).state.stops, y.status = .confirmed := by
  have hall : ∀ stops : List StopState, stops.findIdx? (fun s ↦ s.status = .pending) = none ↔
      ∀ y ∈ stops, y.status = .confirmed := by
    intro stops
    rw [List.findIdx?_eq_none_iff]
    refine forall₂_congr fun y _ ↦ ?_
    cases y.status <;> decide
  rw [← hall, confirmAt_stops]
  unfold confirmAt
  dsimp only
  exact decide_eq_true_iff

end Confirm

/-- **An echo of the trip to drive is applied**, unless it is older than what was. -/
theorem echoed_applyServerEcho {echo : StopEcho} (hid : n.state.sharedRideId = some echo.rideId)
    (hassigned : n.state.isAssigned) (holder : ¬ n.isOlder echo.rideId echo.version) :
    n.Echoed echo (n.applyServerEcho echo) := by
  have htrip : ¬ (n.state.sharedRideId ≠ some echo.rideId ∨ ¬ n.state.isAssigned) :=
    not_or.mpr ⟨not_not.mpr hid, not_not.mpr hassigned⟩
  unfold applyServerEcho
  rw [if_neg htrip, if_neg holder]
  have hnoted (htold : echo.sequenceIndex ∈ n.state.stops.map (fun y ↦ y.stop.sequenceIndex) →
      n.state.Tells (.confirmed echo.sequenceIndex)) :
      n.Echoed echo (n.noteVersion echo.rideId echo.version) :=
    ⟨hid, hassigned, holder, rfl, rfl, by simpa using hid, by simpa using hassigned,
      Or.inl (noteVersion_state ..), by simpa using htold⟩
  dsimp only
  split
  · rename_i hnone
    rw [noteVersion_state, List.findIdx?_eq_none_iff] at hnone
    refine hnoted fun hmem ↦ ?_
    obtain ⟨y, hy, hyi⟩ := List.mem_map.mp hmem
    simpa [hyi] using hnone y hy
  rename_i idx hidx
  rw [noteVersion_state] at hidx
  obtain ⟨hlt, hp, -⟩ := List.findIdx?_eq_some_iff_getElem.mp hidx
  have hp := of_decide_eq_true hp
  split_ifs with hdone
  · rw [noteVersion_state, List.getElem?_eq_getElem hlt] at hdone
    exact hnoted fun _ ↦ ⟨_, List.getElem_mem hlt, hp, of_decide_eq_true hdone⟩
  rw [noteVersion_state] at hdone
  obtain ⟨l₁, x, l₂, hl, hlen, hmod⟩ := List.exists_of_modify
    (fun s : StopState ↦ { s with status := .confirmed, confirmedAt := some echo.confirmedAt }) hlt
  have hx : n.state.stops[idx] = x := by
    subst hlen
    simp only [hl, List.getElem_append_right (Nat.le_refl _), Nat.sub_self, List.getElem_cons_zero]
  rw [hx] at hp
  have hpending : x.status = .pending := by
    rw [List.getElem?_eq_getElem hlt, hx] at hdone
    cases hst : x.status with
    | pending => rfl
    | confirmed => simp [hst] at hdone
  have hstops : ((n.noteVersion echo.rideId echo.version).confirmAt echo idx).state.stops =
      l₁ ++ { x with status := .confirmed, confirmedAt := some echo.confirmedAt } :: l₂ := by
    rw [confirmAt_stops, noteVersion_state]
    exact hmod
  refine ⟨hid, hassigned, holder, confirmAt_versionTripId, confirmAt_appliedVersion, ?_, ?_,
    Or.inr ⟨l₁, x, l₂, hl, hp, hpending, hstops, confirmAt_completed⟩, fun _ ↦ ?_⟩
  · rw [confirmAt_sharedRideId, noteVersion_state]
    exact hid
  · rw [confirmAt_isAssigned, noteVersion_state]
    exact hassigned
  · refine ⟨{ x with status := .confirmed, confirmedAt := some echo.confirmedAt }, ?_, hp, rfl⟩
    rw [hstops]
    exact List.mem_append_right _ List.mem_cons_self

theorem Echoed.indexes {echo : StopEcho} (h : n.Echoed echo n') :
    (n'.state.stops.map fun y ↦ y.stop.sequenceIndex) =
      n.state.stops.map fun y ↦ y.stop.sequenceIndex := by
  rcases h.stops with hstate | ⟨l₁, x, l₂, hl, -, -, hl', -⟩
  · rw [hstate]
  · rw [hl, hl', List.map_append, List.map_append, List.map_cons, List.map_cons]

theorem applyServerEcho_cases (n : SharedRideNotifier) (echo : StopEcho) :
    n.applyServerEcho echo = n ∨ n.Echoed echo (n.applyServerEcho echo) := by
  by_cases htrip : n.state.sharedRideId ≠ some echo.rideId ∨ ¬ n.state.isAssigned
  · exact Or.inl (if_pos htrip)
  by_cases holder : n.isOlder echo.rideId echo.version
  · refine Or.inl ?_
    unfold applyServerEcho
    rw [if_neg htrip, if_pos holder]
  · rw [not_or, not_not, not_not] at htrip
    exact Or.inr (echoed_applyServerEcho htrip.1 htrip.2 holder)

/-! ## Any call -/

/-- A state that shows nothing is kept back to. -/
theorem Kept.of_setState {state : SharedRideState} (hassigned : ¬ state.isAssigned)
    (h : ∀ tripId f, state.sharedRideId = some tripId → state.Tells f →
      n.state.sharedRideId = some tripId ∧ n.state.Tells f) : Kept n (n.setState state) where
  versionTripId := rfl
  appliedVersion := rfl
  shows tripId f hf := h tripId f hf.1 hf.2
  assigned ha := absurd ha hassigned

theorem Kept.refl : Kept n n := ⟨rfl, rfl, fun _ _ h ↦ h, fun _ ↦ rfl⟩

/-- The empty state shows nothing. -/
theorem Kept.empty : Kept n (n.setState .empty) :=
  .of_setState (by decide) fun _ _ h ↦ by cases h

/-- An offer shows nothing as done. -/
theorem Kept.applyOffer (o : SharedRideOffer) : Kept n (n.applyOffer o) := by
  unfold SharedRideNotifier.applyOffer
  split_ifs
  · exact .refl
  refine .of_setState (fun h ↦ by cases h) fun tripId f _ hf ↦ ?_
  cases f with
  | confirmed i =>
      obtain ⟨x, hx, -, hc⟩ := hf
      obtain ⟨s, -, rfl⟩ := List.mem_map.mp (mem_sortStops.mp hx)
      cases hc
  | completed => cases hf

/-- A call that only moves the phase of an offer. -/
theorem kept_phase {phase : SharedRidePhase} (secondsLeft : Int) (outcomeReason : Option String)
    {i : Input} (hphase : phase ≠ .assigned) :
    Kept n (n.setState { n.state with phase, secondsLeft, outcomeReason }) ∧
      StopsOf n (n.setState { n.state with phase, secondsLeft, outcomeReason }) i := by
  refine ⟨.of_setState hphase fun tripId f h hf ↦ ⟨h, ?_⟩, .kept rfl rfl⟩
  cases f with
  | confirmed j => exact hf
  | completed => exact hf

theorem stopsOf_refl {i : Input} : StopsOf n n i := .kept rfl rfl

theorem stopsOf_empty {i : Input} : StopsOf n (n.setState .empty) i := .none rfl rfl

/-- What a snapshot can do. -/
theorem applyAssignment_cases (n : SharedRideNotifier) (a : Option DriverAssignment) :
    (∃ b, n.Takes (.applyAssignment a) b ∧ (n.applyAssignment a).1 = n.hydrate b) ∨
      (a = none ∧ n.state.isAssigned ∧ (n.applyAssignment a).1 = n.setState .empty) ∨
        (n.applyAssignment a).1 = n := by
  cases a with
  | none =>
      unfold applyAssignment
      dsimp only
      split_ifs with h
      · exact Or.inr (Or.inl ⟨rfl, h.1, rfl⟩)
      · exact Or.inr (Or.inr rfl)
  | some a =>
      unfold applyAssignment
      dsimp only
      by_cases hshared : a.isShared
      · rw [if_neg (not_not.mpr hshared)]
        by_cases hold : n.isOlder a.tripId (some a.version) ∨ n.revertsCompleted a.tripId a.version
        · rw [if_pos hold]
          exact Or.inr (Or.inr rfl)
        · rw [if_neg hold]
          rw [not_or] at hold
          exact Or.inl ⟨a, ⟨rfl, hshared, hold⟩, rfl⟩
      · rw [if_pos hshared]
        exact Or.inr (Or.inr rfl)

/-- What an assigned outcome can do. -/
theorem applyAssigned_cases (n : SharedRideNotifier) {outcome : OfferOutcome}
    (hkind : outcome.kind = .assigned) :
    (∃ a, n.Takes (.applyOutcome outcome) a ∧ (n.applyAssigned outcome).1 = n.hydrate a) ∨
      (n.Starts (.applyOutcome outcome) ∧ Started n (n.applyAssigned outcome).1) ∨
        (n.applyAssigned outcome).1 = n := by
  unfold applyAssigned
  by_cases hsolo : outcome.tripKind = some .solo
  · rw [if_pos hsolo]
    exact Or.inr (Or.inr rfl)
  rw [if_neg hsolo]
  by_cases hmatch : n.Matches outcome
  · rw [if_neg (not_not.mpr hmatch)]
    split
    · rename_i a ha
      obtain ⟨ha, hp⟩ := Option.filter_eq_some_iff.mp ha
      obtain ⟨hshared, hid⟩ := of_decide_eq_true hp
      exact Or.inl ⟨a, ⟨hkind, hsolo, ha, hshared, by rw [if_pos hmatch]; exact hid.symm⟩, rfl⟩
    · rename_i hnone
      split_ifs with hassigned
      · exact Or.inr (Or.inr rfl)
      · refine Or.inr (Or.inl ⟨⟨hkind, hsolo, hmatch, hassigned, fun a ha hshared hid ↦ ?_⟩,
          ⟨rfl, rfl, rfl, rfl, rfl⟩⟩)
        have := Option.filter_eq_none_iff.mp hnone a ha
        exact this (decide_eq_true ⟨hshared, hid.symm⟩)
  · rw [if_pos hmatch]
    split
    · exact Or.inr (Or.inr rfl)
    · rename_i a ha
      split_ifs with hown
      · rcases n.applyAssignment_cases (some a) with ⟨b, hb, heq⟩ | ⟨hnone, -⟩ | heq
        · obtain ⟨rfl, hshared, hnew⟩ := hb
          refine Or.inl ⟨_, ⟨hkind, hsolo, ha, hshared, ?_⟩, heq⟩
          rw [if_neg hmatch]
          exact ⟨hown.2, hnew⟩
        · cases hnone
        · exact Or.inr (Or.inr heq)
      · exact Or.inr (Or.inr rfl)

/-- **An itinerary that is taken up replaces the state.** -/
theorem apply_of_takes {i : Input} {a : DriverAssignment} (h : n.Takes i a) :
    n.apply i = n.hydrate a := by
  have hsnapshot : ∀ {b : DriverAssignment}, b.isShared → ¬ n.isOlder b.tripId (some b.version) →
      ¬ n.revertsCompleted b.tripId b.version → (n.applyAssignment (some b)).1 = n.hydrate b := by
    intro b hshared hold hrev
    unfold applyAssignment
    dsimp only
    rw [if_neg (not_not.mpr hshared), if_neg (not_or.mpr ⟨hold, hrev⟩)]
  cases i with
  | applyAssignment b =>
      cases b with
      | none => exact h.elim
      | some b =>
          obtain ⟨rfl, hshared, hold, hrev⟩ := h
          exact hsnapshot hshared hold hrev
  | applyOutcome outcome =>
      obtain ⟨hkind, hsolo, ha, hshared, hnew⟩ := h
      show (n.applyOutcome outcome).1 = _
      unfold applyOutcome applyAssigned
      rw [if_pos hkind, if_neg hsolo]
      by_cases hmatch : n.Matches outcome
      · rw [if_pos hmatch] at hnew
        have hfilter : (outcome.assignment.filter fun a ↦
            a.isShared ∧ some a.tripId = n.state.sharedRideId) = some a :=
          Option.filter_eq_some_iff.mpr ⟨ha, decide_eq_true ⟨hshared, hnew.symm⟩⟩
        rw [if_neg (not_not.mpr hmatch), hfilter]
      · rw [if_neg hmatch] at hnew
        rw [if_pos hmatch, ha]
        dsimp only
        rw [if_pos ⟨hshared, hnew.1⟩]
        exact hsnapshot hshared hnew.2.1 hnew.2.2
  | _ => exact h.elim

/-- A refusal moves the phase of an offer at most. -/
theorem applyOutcome_refused {outcome : OfferOutcome} (hkind : outcome.kind ≠ .assigned) :
    Kept n (n.applyOutcome outcome).1 ∧
      StopsOf n (n.applyOutcome outcome).1 (.applyOutcome outcome) := by
  have same : ∀ {j}, Kept n n ∧ StopsOf n n j := ⟨.refl, stopsOf_refl⟩
  have hloss : ∀ kind, lossPhase kind ≠ .assigned := by
    intro kind
    cases kind <;> decide
  unfold applyOutcome
  rw [if_neg hkind]
  by_cases hown : n.OwnOffer outcome
  · rw [if_neg (not_not.mpr hown)]
    split
    · split_ifs
      · exact same
      · exact kept_phase _ _ (by decide)
    · exact same
    · exact same
    · by_cases hoffer : n.state.isOffer
      · rw [if_neg (not_not.mpr hoffer)]
        exact kept_phase _ _ (hloss outcome.kind)
      · rw [if_pos hoffer]
        exact same
  · rw [if_pos hown]
    exact same

/-- **What a call can do.** -/
theorem apply_cases (n : SharedRideNotifier) (i : Input) :
    (∃ a, n.Takes i a ∧ n.apply i = n.hydrate a) ∨
      (n.Starts i ∧ Started n (n.apply i)) ∨
        (∃ echo, i = .applyServerEcho echo ∧ n.Echoed echo (n.apply i)) ∨
          Kept n (n.apply i) ∧ StopsOf n (n.apply i) i := by
  have same : ∀ {j}, Kept n n ∧ StopsOf n n j := ⟨.refl, stopsOf_refl⟩
  have cleared : ∀ {j}, Kept n (n.setState .empty) ∧ StopsOf n (n.setState .empty) j :=
    ⟨.empty, stopsOf_empty⟩
  cases i with
  | applyOffer o =>
      refine Or.inr (Or.inr (Or.inr ⟨.applyOffer o, ?_⟩))
      show StopsOf n (n.applyOffer o) _
      unfold applyOffer
      split_ifs
      · exact stopsOf_refl
      · exact .offer o rfl rfl
  | accept =>
      refine Or.inr (Or.inr (Or.inr ?_))
      unfold apply accept
      dsimp only
      split_ifs
      · exact same
      · exact same
      · exact kept_phase _ _ (by decide)
  | decline =>
      refine Or.inr (Or.inr (Or.inr ?_))
      unfold apply decline
      dsimp only
      split_ifs
      · exact cleared
      · exact same
  | tick =>
      refine Or.inr (Or.inr (Or.inr ?_))
      unfold apply tick
      dsimp only
      split_ifs with hphase
      · exact same
      · exact kept_phase _ _ (by decide)
      · exact kept_phase _ _ fun h ↦ by cases (not_not.mp hphase).symm.trans h
  | ackTimedOut =>
      refine Or.inr (Or.inr (Or.inr ?_))
      unfold apply ackTimedOut
      dsimp only
      split_ifs
      · exact same
      · exact kept_phase _ _ (by decide)
      · exact kept_phase _ _ (by decide)
  | resolveUndecidedAccept =>
      refine Or.inr (Or.inr (Or.inr ?_))
      unfold apply resolveUndecidedAccept
      dsimp only
      split_ifs
      · exact same
      · exact cleared
  | applyOutcome outcome =>
      by_cases hkind : outcome.kind = .assigned
      · have happly : n.apply (.applyOutcome outcome) = (n.applyAssigned outcome).1 :=
          congrArg Prod.fst (if_pos hkind)
        rw [happly]
        rcases n.applyAssigned_cases hkind with h | h | h
        · exact Or.inl h
        · exact Or.inr (Or.inl h)
        · rw [h]
          exact Or.inr (Or.inr (Or.inr same))
      · exact Or.inr (Or.inr (Or.inr (applyOutcome_refused hkind)))
  | applyAssignment a =>
      rcases n.applyAssignment_cases a with h | ⟨-, -, h⟩ | h
      · exact Or.inl h
      · rw [show n.apply (.applyAssignment a) = n.setState .empty from h]
        exact Or.inr (Or.inr (Or.inr cleared))
      · rw [show n.apply (.applyAssignment a) = n from h]
        exact Or.inr (Or.inr (Or.inr same))
  | applyServerEcho echo =>
      rcases n.applyServerEcho_cases echo with h | h
      · refine Or.inr (Or.inr (Or.inr ?_))
        rw [show n.apply (.applyServerEcho echo) = n from h]
        exact same
      · exact Or.inr (Or.inr (Or.inl ⟨echo, rfl, h⟩))
  | reset => exact Or.inr (Or.inr (Or.inr cleared))

end SharedRideNotifier

end Rcab.DriverApp
