import Rcab.Trips.LiveOffers

/-!
# A trip is accepted at most once

Over a whole run, with accepts in any order and as often as they like: a trip has at most
one offer that is ever accepted, over all its generations; of the accepts of one offer at
most one binds the trip; a later one changes nothing and answers what the guard still says.
-/

universe u

namespace Rcab

open Dispatch

variable {D : Type u} [LinearOrder D]

/-- The accept answered success for the first time. -/
def firstSuccess (r : Tx AcceptOutcome) : Bool :=
  match r with
  | .ok (_, ⟨.ok _ _ false, _⟩) => true
  | _ => false

/-- An entry of a trace that is a first success for the offer. -/
def freshAccept (offerId : OfferId) (p : Db × Step) : Bool :=
  match p.2 with
  | .acceptInTx t accounts o driverId trip =>
      o = offerId ∧ firstSuccess (acceptInTx t p.1 accounts o driverId trip)
  | _ => false

/-- The databases a run went through, the last one included. -/
def visited (tr : List (Db × Step)) (db : Db) : List Db := tr.map Prod.fst ++ [db]

section

variable {t : TxClock} {db db' : Db} {accounts : Accounts} {offerId : OfferId}
  {driverId : DriverId} {trip : TripRef} {out : AcceptOutcome}

/-- A first success found the offer live and leaves it accepted. -/
theorem offer_of_fresh (h : firstSuccess (acceptInTx t db accounts offerId driverId trip) = true) :
    (∃ v, (market db).OfferIs offerId .live v) ∧
      ∃ v, (market ((acceptInTx t db accounts offerId driverId trip).commit db)).OfferIs
        offerId .accepted v := by
  cases hr : acceptInTx t db accounts offerId driverId trip with
  | error e => simp [hr, firstSuccess] at h
  | ok r =>
      obtain ⟨db', out⟩ := r
      rw [hr] at h
      cases acceptInTx_eq_ok hr with
      | refused reason => simp [firstSuccess, rejected] at h
      | replayed o ho hd ha => simp [firstSuccess] at h
      | resolved o ho hd hl target ht reason => simp [firstSuccess, rejected] at h
      | bound o _ revoked ho hd hl hp hg hm hu =>
          obtain rfl : o.id = offerId := Table.key_of_get ho
          refine ⟨⟨o.view, offerIs_of_live (Table.mem_of_get ho) hl⟩,
            { o.view with state := .accepted }, ?_⟩
          rw [Tx.commit_ok, hm]
          exact Market.State.offerIs_accepted_settle.mpr
            (Market.State.offerIs_setOffer.mpr (Or.inl ⟨rfl, rfl, rfl⟩))

/-- The guard still binds the offer's driver to its trip at its generation. -/
def StillBound (db : Db) (o : DispatchOffer) : Prop :=
  db.driverActiveAssignment.Any fun a ↦
    a.driverId = o.driverId ∧ a.trip = o.trip ∧ a.dispatchGeneration = o.dispatchGeneration

instance {o : DispatchOffer} : Decidable (StillBound db o) :=
  inferInstanceAs (Decidable (Table.Any _ _))

/-- What a replay answers. -/
def replayResult (db : Db) (o : DispatchOffer) : AcceptOfferResult :=
  if StillBound db o then .ok o.trip o.dispatchGeneration true else .failed .tripNotClaimable

/-- A guard's trip exists. -/
theorem lockTrip_of_guard (he : Market.Exclusive (market db)) {a : DriverActiveAssignment}
    (ha : a ∈ db.driverActiveAssignment) : ∃ locked, lockTrip db a.trip = some locked := by
  have hheld : db.phase a.trip = .held a.driverId :=
    he.held_of_guard a.driverId a.view (market_guard_eq_some.mpr ⟨a, ha, rfl, rfl⟩)
  cases htrip : a.trip with
  | solo rideId =>
      rw [htrip] at hheld
      cases hg : db.rides.get rideId with
      | none => simp [Db.phase, hg] at hheld
      | some r => exact ⟨.ride r, by simp [lockTrip, lockSoloTrip, hg]⟩
  | shared poolId =>
      rw [htrip] at hheld
      cases hg : db.sharedRides.get poolId with
      | none => simp [Db.phase, hg] at hheld
      | some s => exact ⟨.pool s, by simp [lockTrip, lockSharedTrip, hg]⟩

/-- The guard of a trip is the one row naming it. -/
theorem findByTrip_eq_some (he : Market.Exclusive (market db)) {a : DriverActiveAssignment}
    (ha : a ∈ db.driverActiveAssignment) : findByTrip db a.trip = some a := by
  cases hf : findByTrip db a.trip with
  | none =>
      have := List.find?_eq_none.mp hf a ha
      simp at this
  | some b =>
      have hb : b ∈ db.driverActiveAssignment := List.mem_of_find?_eq_some hf
      have hbt : b.trip = a.trip := by simpa using List.find?_some hf
      have hheld : ∀ c ∈ db.driverActiveAssignment, db.phase c.trip = .held c.driverId :=
        fun c hc ↦ he.held_of_guard c.driverId c.view (market_guard_eq_some.mpr ⟨c, hc, rfl, rfl⟩)
      have h₁ := hheld a ha
      rw [← hbt, hheld b hb] at h₁
      injection h₁ with h₁
      rw [Table.unique hb ha h₁]

/-- An accepted offer accepted again changes nothing. -/
theorem acceptInTx_of_accepted (he : Market.Exclusive (market db)) {o : DispatchOffer}
    (ho : o ∈ db.dispatchOffer) (ha : o.state = .accepted) :
    acceptInTx t db accounts o.id o.driverId o.trip = .ok (db, ⟨replayResult db o, []⟩) := by
  have hget : lockForUpdate db o.id = some o := Table.get_of_mem ho
  unfold acceptInTx
  cases hlock : lockTrip db o.trip with
  | none =>
      have hnot : ¬ StillBound db o := by
        rintro ⟨a, haa, -, htrip, -⟩
        obtain ⟨locked, hl⟩ := lockTrip_of_guard he haa
        simp [htrip, hlock] at hl
      simp [replayResult, hnot, rejected]
  | some locked =>
      simp only [hget, ne_eq, not_true_eq_false, ↓reduceIte, ha]
      cases hf : findByTrip db o.trip with
      | none =>
          have hnot : ¬ StillBound db o := by
            rintro ⟨a, haa, -, htrip, -⟩
            have := findByTrip_eq_some he haa
            simp [htrip, hf] at this
          simp [replayResult, hnot, rejected]
      | some guard =>
          have hg : guard ∈ db.driverActiveAssignment := List.mem_of_find?_eq_some hf
          have hgt : guard.trip = o.trip := by simpa using List.find?_some hf
          by_cases hb : guard.driverId = o.driverId ∧ guard.dispatchGeneration = o.dispatchGeneration
          · have hstill : StillBound db o := ⟨guard, hg, hb.1, hgt, hb.2⟩
            simp [hb, replayResult, hstill]
          · have hnot : ¬ StillBound db o := by
              rintro ⟨a, haa, had, htrip, hag⟩
              have := findByTrip_eq_some he haa
              rw [htrip, hf, Option.some.injEq] at this
              subst this
              exact hb ⟨had, hag⟩
            simp [hb, replayResult, hnot, rejected]

/-- After an accept that succeeded, for the first time or again, the guard binds the driver. -/
theorem guard_of_ok {trip' : TripRef} {generation : ℕ} {replay : Bool} {revoked : List RevokedOffer}
    (h : acceptInTx t db accounts offerId driverId trip =
      .ok (db', ⟨.ok trip' generation replay, revoked⟩)) :
    ∃ b, (market db').guard driverId = some b ∧ b.job = trip := by
  have hcases := acceptInTx_eq_ok h
  generalize hout : (⟨.ok trip' generation replay, revoked⟩ : AcceptOutcome) = out at hcases
  cases hcases with
  | refused reason => cases hout
  | resolved o ho hd hl target ht reason => cases hout
  | bound o db' revoked ho hd hl hp hg hm hu =>
      exact ⟨⟨trip, some offerId, o.dispatchGeneration⟩, by simp [hm], rfl⟩
  | replayed o ho hd ha =>
      have ho : lockForUpdate db offerId = some o := ho
      unfold acceptInTx at h
      split at h
      · cases h
      rw [ho] at h
      dsimp only at h
      rw [if_neg (not_not.mpr hd), if_pos ha] at h
      split at h
      · rename_i guard hf
        split_ifs at h with hguard
        · have hmem : guard ∈ db.driverActiveAssignment := List.mem_of_find?_eq_some hf
          have htrip : guard.trip = trip := by simpa using List.find?_some hf
          exact ⟨guard.view, market_guard_eq_some.mpr ⟨guard, hmem, hguard.1, rfl⟩, htrip⟩
        · cases h
      · cases h

end

/-- For every run with accepts for the trips their offers name: (a) the offers of one trip
that are ever accepted are one; (b) an offer is accepted for the first time at most once;
(c) an accept of an accepted offer by its driver changes nothing, and succeeds as a replay
exactly while the guard still binds the driver to the trip at the offer's generation; (d)
while the trip of an accepted offer is active, its guard names the offer, its driver and its
generation. -/
theorem accepted_once (dist : Point → Point → D) {db₀ db : Db} {tr : List (Db × Step)}
    (h₀ : db₀.NoTrips) (h : Run (only (step dist) Step.Derived) db₀ tr db) :
    (∀ s₁ ∈ visited tr db, ∀ s₂ ∈ visited tr db, ∀ o₁ ∈ s₁.dispatchOffer, ∀ o₂ ∈ s₂.dispatchOffer,
      o₁.state = .accepted → o₂.state = .accepted → o₁.trip = o₂.trip → o₁.id = o₂.id) ∧
    (∀ offerId, tr.countP (freshAccept offerId) ≤ 1) ∧
    (∀ o ∈ db.dispatchOffer, o.state = .accepted → ∀ t accounts,
      acceptInTx t db accounts o.id o.driverId o.trip = .ok (db, ⟨replayResult db o, []⟩)) ∧
    (∀ o ∈ db.dispatchOffer, o.state = .accepted → ∀ d, Holds db d o.trip →
      d = o.driverId ∧ ∃ a ∈ db.driverActiveAssignment, a.trip = o.trip ∧
        a.driverId = o.driverId ∧ a.offerId = some o.id ∧
          a.dispatchGeneration = o.dispatchGeneration) := by
  have hi₀ : TripsInv db₀ := .of_noTrips h₀
  obtain ⟨hi, hs⟩ := single_of_run h₀ h
  refine ⟨?_, ?_, ?_, ?_⟩
  · -- Accepted offers stay accepted, so both are accepted at the end.
    have atEnd : ∀ s ∈ visited tr db, ∀ o ∈ s.dispatchOffer, o.state = .accepted →
        (market db).OfferIs o.id .accepted o.view := by
      intro s hsv o ho ha
      have hacc := offerIs_of_accepted ho ha
      rcases List.mem_append.mp hsv with hm | hm
      · obtain ⟨⟨s', e⟩, hmem, rfl⟩ := List.mem_map.mp hm
        obtain ⟨tr₁, tr₂, rfl⟩ := List.append_of_mem hmem
        obtain ⟨h₁, s'', hst, h₂⟩ := h.step_of_split
        exact accepted_of_run (hi₀.run h₁.of_only) hacc (Run.cons hst.1 h₂.of_only)
      · rw [List.mem_singleton] at hm
        exact hm ▸ hacc
    intro s₁ hs₁ s₂ hs₂ o₁ ho₁ o₂ ho₂ ha₁ ha₂ htrip
    exact hs.unique _ _ _ _ (atEnd s₁ hs₁ o₁ ho₁ ha₁) (atEnd s₂ hs₂ o₂ ho₂ ha₂) htrip
  · intro offerId
    -- Once an offer was accepted it is not live again.
    have key : TripsInv db ∧ tr.countP (freshAccept offerId) ≤ 1 ∧
        (tr.countP (freshAccept offerId) ≠ 0 → ∃ v, (market db).OfferIs offerId .accepted v) := by
      refine h.of_only.invariant_trace (I := fun tr db ↦ TripsInv db ∧
        tr.countP (freshAccept offerId) ≤ 1 ∧
        (tr.countP (freshAccept offerId) ≠ 0 → ∃ v, (market db).OfferIs offerId .accepted v)) ?_
        ⟨hi₀, by simp, by simp⟩
      rintro tr s e s' ⟨hi, hle, hacc⟩ hst
      have hstay : ∀ v, (market s).OfferIs offerId .accepted v →
          (market s').OfferIs offerId .accepted v := fun v hv ↦
        accepted_of_run hi hv (Run.single hst)
      refine ⟨hi.step hst, ?_⟩
      rw [List.countP_append, List.countP_singleton]
      by_cases hf : freshAccept offerId (s, e) = true
      · rw [if_pos hf]
        cases e with
        | acceptInTx t accounts o driverId trip =>
            simp only [freshAccept, Bool.decide_and, Bool.decide_eq_true, Bool.and_eq_true,
              decide_eq_true_eq] at hf
            obtain ⟨rfl, hf⟩ := hf
            obtain ⟨⟨v, hlive⟩, hnew⟩ := offer_of_fresh hf
            have hzero : tr.countP (freshAccept o) = 0 := by
              by_contra hne
              obtain ⟨v', hv'⟩ := hacc hne
              cases hlive.state_eq hv'
            obtain rfl : _ = s' := hst
            exact ⟨by omega, fun _ ↦ hnew⟩
        | _ => simp [freshAccept] at hf
      · rw [if_neg hf, Nat.add_zero]
        refine ⟨hle, fun hne ↦ ?_⟩
        obtain ⟨v, hv⟩ := hacc hne
        exact ⟨v, hstay v hv⟩
    exact key.2.1
  · intro o ho ha t accounts
    exact acceptInTx_of_accepted hi.exclusive ho ha
  · intro o ho ha d hd
    have hp := holds_iff_phase.mp hd
    rcases hs.settled o.id o.view (offerIs_of_accepted ho ha) with hover | ⟨hheld, hguard⟩
    · rw [market_phase] at hover
      rw [show db.phase o.trip = _ from hover] at hp
      cases hp
    · rw [market_phase] at hheld
      rw [show db.phase o.trip = _ from hheld] at hp
      injection hp with hp
      obtain ⟨a, haa, had, hav⟩ := market_guard_eq_some.mp hguard
      have hav' : a.trip = o.trip ∧ a.offerId = some o.id ∧
          a.dispatchGeneration = o.dispatchGeneration := by
        simpa [DriverActiveAssignment.view, DispatchOffer.view] using hav
      exact ⟨hp.symm, a, haa, hav'.1, had, hav'.2⟩

/-- Driver 7 is eligible. -/
def sampleAccounts : Accounts := ⟨[⟨7, .active, .driver, true⟩], [⟨7, 4, true⟩]⟩

/-- Driver 7 accepts the sample offer. -/
def sampleAccepted : Db :=
  exec (D := ℕ) (fun _ _ ↦ 0) sampleOffered (.acceptInTx ⟨6, 6⟩ sampleAccounts 20 7 (.solo 1))

theorem sampleAccepted_replay : ∃ o ∈ sampleAccepted.dispatchOffer, o.state = .accepted ∧
    acceptInTx ⟨9, 9⟩ sampleAccepted sampleAccounts o.id o.driverId o.trip =
      .ok (sampleAccepted, ⟨replayResult sampleAccepted o, []⟩) := by
  have hany : sampleAccepted.dispatchOffer.Any fun o ↦ o.state = .accepted := by decide
  obtain ⟨o, ho, ha⟩ := hany
  have htrip : (findForDriver sampleOffered 20 7).map DispatchOffer.trip = some (.solo 1) := by
    decide
  have hderived : Step.Derived sampleOffered
      (.acceptInTx ⟨6, 6⟩ sampleAccounts 20 7 (.solo 1)) := by
    intro o ho
    rw [ho] at htrip
    exact Option.some.inj htrip
  have hrun : Run (only (step (D := ℕ) fun _ _ ↦ 0) Step.Derived) .empty _ sampleAccepted :=
    ((Run.nil.snoc (e := .createRide ⟨0, 0⟩ sampleRide) ⟨rfl, trivial⟩).snoc
      (e := .createOffer ⟨5, 5⟩ 20 [] ⟨.solo 1, 7, 1, 1, 12000⟩) ⟨rfl, trivial⟩).snoc
        ⟨rfl, hderived⟩
  exact ⟨o, ho, ha, (accepted_once (D := ℕ) (fun _ _ ↦ 0) Db.empty_noTrips hrun).2.2.1 o ho ha
    ⟨9, 9⟩ sampleAccounts⟩

end Rcab
