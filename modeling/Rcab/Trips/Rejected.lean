import Rcab.Trips.LiveOffers

/-!
# What a rejected accept leaves behind

`acceptInTx` commits when it rejects, and has a dozen exits for that.  Two of them resolve the
offer that was presented; from none is anything else changed.
-/

universe u

namespace Rcab

open Dispatch

variable {t : TxClock} {db db' : Db} {accounts : Accounts} {offerId : OfferId}
  {driverId : DriverId} {trip : TripRef} {reason : AcceptOfferFailure}
  {revoked : List RevokedOffer}

/-- Why a live offer is resolved by the accept that it is rejected for. -/
inductive Resolves (t : TxClock) (db : Db) (o : DispatchOffer) : DispatchOfferState → Prop
  /-- Its deadline has passed. -/
  | expired (h : Lapsed t.clockTimestamp o) : Resolves t db o .expired
  /-- Its generation is not the one its trip has now. -/
  | revoked (locked : LockedTrip) (hlock : lockTrip db o.trip = some locked)
      (h : o.dispatchGeneration ≠ locked.dispatchGeneration) : Resolves t db o .revoked

/-- The databases differ in the row of one offer, which is resolved. -/
structure Resolved (t : TxClock) (db : Db) (o : DispatchOffer) (target : DispatchOfferState)
    (db' : Db) : Prop where
  presented : db'.dispatchOffer.get o.id = some (resolve t.clockTimestamp target o)
  others : ∀ id, id ≠ o.id → db'.dispatchOffer.get id = db.dispatchOffer.get id
  tables : db' = { db with dispatchOffer := db'.dispatchOffer }

/-- Resolving a live offer is a change of its row. -/
theorem resolved_resolveLive {o : DispatchOffer} {target : DispatchOfferState} {b : Bool}
    (ho : db.dispatchOffer.get offerId = some o) (hl : Live o)
    (h : resolveLive t db offerId target = .ok (db', b)) : Resolved t db o target db' := by
  have hid : o.id = offerId := Table.key_of_get ho
  rcases resolveLive_eq_ok h with ⟨rfl, -⟩ | ⟨-, o', -, -, rfl⟩
  · -- A live offer is resolved.
    unfold resolveLive at h
    rw [ho] at h
    dsimp only at h
    rw [if_neg (not_not.mpr hl)] at h
    split_ifs at h
    cases (Tx.ok_inj h).2
  · refine ⟨?_, fun id hne ↦ ?_, rfl⟩
    · rw [hid]
      simp only [resolveWhere, Table.get_update, ho, Option.map_some]
      rw [if_pos ⟨hl, hid⟩]
    · exact Table.get_update_key (resolve_id t.clockTimestamp target) (fun _ hp ↦ hp.2)
        (hid ▸ hne)

theorem bindTrip_not_failed {o : DispatchOffer} :
    bindTrip t db o driverId trip ≠ .ok (db', ⟨.failed reason, revoked⟩) := by
  intro h
  obtain ⟨db₁, u₁, h₁, h⟩ := Tx.andThen_eq_ok.mp h
  obtain ⟨db₂, u₂, h₂, h⟩ := Tx.andThen_eq_ok.mp h
  cases (Tx.ok_inj h).2

/-- From the checks of a live offer on. -/
theorem acceptLive_failed {o : DispatchOffer} {locked : LockedTrip}
    (h : acceptLive t db accounts o driverId o.trip locked = .ok (db', ⟨.failed reason, revoked⟩))
    (ho : db.dispatchOffer.get o.id = some o) (hl : Live o)
    (hlock : lockTrip db o.trip = some locked) :
    db' = db ∨ ∃ target, Resolves t db o target ∧ Resolved t db o target db' := by
  have hres : ∀ {target : DispatchOfferState} {reason' : AcceptOfferFailure},
      ((resolveLive t db o.id target).andThen fun db _ ↦ .ok (db, rejected reason')) =
        .ok (db', ⟨.failed reason, revoked⟩) → Resolved t db o target db' := by
    intro target reason' h
    obtain ⟨db₁, b, h₁, h⟩ := Tx.andThen_eq_ok.mp h
    obtain ⟨rfl, -⟩ := Tx.ok_inj h
    exact resolved_resolveLive ho hl h₁
  have hrefused : ∀ {reason' : AcceptOfferFailure},
      (Except.ok (db, rejected reason') : Tx AcceptOutcome) = .ok (db', ⟨.failed reason, revoked⟩) →
        db' = db := fun h ↦ (Tx.ok_inj h).1.symm
  unfold acceptLive at h
  by_cases hlapsed : Lapsed t.clockTimestamp o
  · rw [if_pos hlapsed] at h
    exact Or.inr ⟨_, .expired hlapsed, hres h⟩
  rw [if_neg hlapsed] at h
  by_cases hgen : o.dispatchGeneration ≠ locked.dispatchGeneration
  · rw [if_pos hgen] at h
    exact Or.inr ⟨_, .revoked locked hlock hgen, hres h⟩
  rw [if_neg hgen] at h
  left
  split at h
  · exact hrefused h
  split at h
  · exact hrefused h
  · exact hrefused h
  -- A guard that could not be taken leaves nothing, whichever constraint refused it.
  obtain ⟨db₁, guard, h₁, h⟩ := Tx.andThen_eq_ok.mp h
  rcases acquire_eq_ok h₁ with ⟨hne, rfl⟩ | ⟨rfl, -, rfl⟩
  · cases guard with
    | ok => exact absurd rfl hne
    | driverBusy => exact hrefused h
    | tripTaken => exact hrefused h
  · exact absurd h bindTrip_not_failed

/-- An accept for the trip of the presented offer. -/
theorem acceptInTx_failed
    (htrip : ∀ o, db.dispatchOffer.get offerId = some o → o.driverId = driverId → o.trip = trip)
    (h : acceptInTx t db accounts offerId driverId trip = .ok (db', ⟨.failed reason, revoked⟩)) :
    db' = db ∨ ∃ o, db.dispatchOffer.get offerId = some o ∧ o.driverId = driverId ∧
      o.state = .offered ∧ ∃ target, Resolves t db o target ∧ Resolved t db o target db' := by
  have hrefused : ∀ {reason' : AcceptOfferFailure},
      (Except.ok (db, rejected reason') : Tx AcceptOutcome) = .ok (db', ⟨.failed reason, revoked⟩) →
        db' = db := fun h ↦ (Tx.ok_inj h).1.symm
  unfold acceptInTx at h
  split at h
  · exact Or.inl (hrefused h)
  rename_i locked hlock
  split at h
  · exact Or.inl (hrefused h)
  rename_i o ho
  have hid : o.id = offerId := Table.key_of_get ho
  by_cases hd : o.driverId ≠ driverId
  · rw [if_pos hd] at h
    exact Or.inl (hrefused h)
  rw [if_neg hd] at h
  by_cases ha : o.state = .accepted
  · left
    rw [if_pos ha] at h
    split at h
    · split_ifs at h
      · cases (Tx.ok_inj h).2
      · exact hrefused h
    · exact hrefused h
  rw [if_neg ha] at h
  by_cases hl : Live o
  · rw [if_neg (not_not.mpr hl)] at h
    obtain rfl := htrip o ho (not_not.mp hd)
    rcases acceptLive_failed h (hid ▸ ho) hl hlock with hsame | hres
    · exact Or.inl hsame
    · exact Or.inr ⟨o, ho, not_not.mp hd, hl, hres⟩
  · rw [if_pos hl] at h
    exact Or.inl (hrefused h)

variable {D : Type u} [LinearOrder D]

/-- An offer names the trip it named when it was read. -/
theorem trip_of_seen {dist : Point → Point → D} {db₀ : Db} {tr tr' : List (Db × Step)}
    {seenIn : Db} {seen o : DispatchOffer} (h₀ : db₀.NoTrips) (hr : Run (step dist) db₀ tr seenIn)
    (hseen : findForDriver seenIn offerId driverId = some seen)
    (hr' : Run (step dist) seenIn tr' db) (ho : db.dispatchOffer.get offerId = some o) :
    o.trip = seen.trip := by
  have hi : TripsInv seenIn := (TripsInv.of_noTrips h₀).run hr
  obtain ⟨hget, -⟩ := Option.filter_eq_some_iff.mp hseen
  obtain ⟨v, hv, hsame⟩ := offer_of_run hi (market_offer_eq_some.mpr
    ⟨seen, Table.mem_of_get hget, Table.key_of_get hget, rfl⟩) hr'
  have hv' : (market db).offer offerId = some o.view :=
    market_offer_eq_some.mpr ⟨o, Table.mem_of_get ho, Table.key_of_get ho, rfl⟩
  obtain rfl := Option.some.inj (hv.symm.trans hv')
  exact hsame.job

/-- An accept for the trip that was read from the offer at any earlier time, in any reachable
state: if it is rejected the database is what it was, or else the driver's own offer, which was
live, is expired past its deadline or revoked for a generation that is not its trip's, and
everything else is what it was. -/
theorem rejected_accept (dist : Point → Point → D) {db₀ : Db} {tr tr' : List (Db × Step)}
    {seenIn : Db} {seen : DispatchOffer} (h₀ : db₀.NoTrips) (hr : Run (step dist) db₀ tr seenIn)
    (hseen : findForDriver seenIn offerId driverId = some seen)
    (hr' : Run (step dist) seenIn tr' db)
    (h : acceptInTx t db accounts offerId driverId seen.trip =
      .ok (db', ⟨.failed reason, revoked⟩)) :
    db' = db ∨ ∃ o, db.dispatchOffer.get offerId = some o ∧ o.driverId = driverId ∧
      o.state = .offered ∧ ∃ target, Resolves t db o target ∧ Resolved t db o target db' :=
  acceptInTx_failed (fun _ ho _ ↦ trip_of_seen h₀ hr hseen hr' ho) h

/-- Driver 7 accepts the sample offer when its 12 seconds are over. -/
theorem sampleOffered_lapsed : ∃ db', acceptInTx ⟨20000, 20000⟩ sampleOffered ⟨[], []⟩ 20 7 (.solo 1) =
    .ok (db', rejected .offerExpired) ∧
      ∃ o, sampleOffered.dispatchOffer.get 20 = some o ∧ o.driverId = 7 ∧ o.state = .offered ∧
        ∃ target, Resolves ⟨20000, 20000⟩ sampleOffered o target ∧
          Resolved ⟨20000, 20000⟩ sampleOffered o target db' := by
  have hcreate : step (D := ℕ) (fun _ _ ↦ 0) .empty (.createRide ⟨0, 0⟩ sampleRide)
    (exec (D := ℕ) (fun _ _ ↦ 0) .empty (.createRide ⟨0, 0⟩ sampleRide)) := rfl
  have hoffer : step (D := ℕ) (fun _ _ ↦ 0) _
    (.createOffer ⟨5, 5⟩ 20 [] ⟨.solo 1, 7, 1, 1, 12000⟩) sampleOffered := rfl
  have hr := (Run.single hcreate).snoc hoffer
  have hsome : (findForDriver sampleOffered 20 7).map DispatchOffer.trip = some (.solo 1) := by
    decide
  obtain ⟨seen, hseen, htrip⟩ := Option.map_eq_some_iff.mp hsome
  have hout : acceptInTx ⟨20000, 20000⟩ sampleOffered ⟨[], []⟩ 20 7 (.solo 1) =
      .ok (resolveWhere 20000 sampleOffered .expired fun a ↦ a.id = 20,
        rejected .offerExpired) := by
    rfl
  refine ⟨_, hout, ?_⟩
  have h := hout
  rw [← htrip] at h
  rcases rejected_accept (fun _ _ ↦ 0) Db.empty_noTrips hr hseen .nil h with hsame | hres
  · have hlive : sampleOffered.dispatchOffer.Any Live := by decide
    rw [← hsame] at hlive
    exact absurd hlive (by decide)
  · exact hres

end Rcab
