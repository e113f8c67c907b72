import Rcab.Trips.Refine

/-!
# A rule for the accept transaction

An accept writes offers, one guard and one trip row, in this order and not always all of
them.  A relation that each of these writes keeps to, the accept keeps to.
-/

namespace Rcab

open Dispatch

/-- A relation that the writes of an accept keep to. -/
structure AcceptRule (t : TxClock) (driverId : DriverId) (trip : TripRef) (R : Db → Db → Prop) :
    Prop where
  refl : ∀ db, R db db
  trans : ∀ db db' db'', R db db' → R db' db'' → R db db''
  offers : ∀ db dispatchOffer, R db { db with dispatchOffer }
  guards : ∀ db driverActiveAssignment, R db { db with driverActiveAssignment }
  claim : ∀ db db' generation u, claimRow t db trip driverId generation = .ok (db', u) →
    (∃ locked ∈ lockTrip db trip, locked.dispatchGeneration = generation) → R db db'

namespace AcceptRule

variable {t : TxClock} {driverId : DriverId} {trip : TripRef} {R : Db → Db → Prop} {db db' : Db}
  {accounts : Accounts} {out : AcceptOutcome}

theorem bindTrip (hR : AcceptRule t driverId trip R) {o : DispatchOffer}
    (hlock : ∃ locked ∈ lockTrip db trip, locked.dispatchGeneration = o.dispatchGeneration)
    (h : bindTrip t db o driverId trip = .ok (db', out)) : R db db' := by
  obtain ⟨db₁, u₁, h₁, h⟩ := Tx.andThen_eq_ok.mp h
  obtain ⟨db₂, u₂, h₂, h⟩ := Tx.andThen_eq_ok.mp h
  obtain ⟨rfl, -⟩ := Tx.ok_inj h
  obtain ⟨o', -, -, rfl⟩ := markAccepted_eq_ok h₂
  exact hR.trans _ _ _ (hR.claim _ _ _ _ h₁ hlock) (hR.offers db₁ _)

theorem acceptLive (hR : AcceptRule t driverId trip R) {o : DispatchOffer} {locked : LockedTrip}
    (hlock : lockTrip db trip = some locked)
    (h : acceptLive t db accounts o driverId trip locked = .ok (db', out)) : R db db' := by
  have hres : ∀ {target : DispatchOfferState} {reason : AcceptOfferFailure},
      ((resolveLive t db o.id target).andThen fun db _ ↦ .ok (db, rejected reason)) =
        .ok (db', out) → R db db' := by
    intro target reason h
    obtain ⟨db₁, b, h₁, h⟩ := Tx.andThen_eq_ok.mp h
    obtain ⟨rfl, -⟩ := Tx.ok_inj h
    rcases resolveLive_eq_ok h₁ with ⟨-, rfl⟩ | ⟨-, o, -, -, rfl⟩
    · exact hR.refl _
    · exact hR.offers _ _
  unfold Dispatch.acceptLive at h
  split_ifs at h with hlapsed hstale
  · exact hres h
  · exact hres h
  split at h
  · obtain ⟨rfl, -⟩ := Tx.ok_inj h
    exact hR.refl _
  split at h
  · obtain ⟨rfl, -⟩ := Tx.ok_inj h
    exact hR.refl _
  · obtain ⟨rfl, -⟩ := Tx.ok_inj h
    exact hR.refl _
  obtain ⟨db₁, guard, h₁, h⟩ := Tx.andThen_eq_ok.mp h
  have hg : R db db₁ ∧ lockTrip db₁ trip = lockTrip db trip := by
    rcases acquire_eq_ok h₁ with ⟨-, rfl⟩ | ⟨-, -, rfl⟩
    · exact ⟨hR.refl _, rfl⟩
    · refine ⟨hR.guards _ _, ?_⟩
      cases trip <;> rfl
  refine hR.trans _ _ _ hg.1 ?_
  cases guard with
  | ok => exact hR.bindTrip ⟨locked, hg.2.trans hlock, (not_not.mp hstale).symm⟩ h
  | driverBusy =>
      obtain ⟨rfl, -⟩ := Tx.ok_inj h
      exact hR.refl _
  | tripTaken =>
      obtain ⟨rfl, -⟩ := Tx.ok_inj h
      exact hR.refl _

theorem acceptInTx (hR : AcceptRule t driverId trip R) {offerId : OfferId}
    (h : acceptInTx t db accounts offerId driverId trip = .ok (db', out)) : R db db' := by
  unfold Dispatch.acceptInTx at h
  split at h
  · obtain ⟨rfl, -⟩ := Tx.ok_inj h
    exact hR.refl _
  rename_i locked hlock
  split at h
  · obtain ⟨rfl, -⟩ := Tx.ok_inj h
    exact hR.refl _
  split at h
  · obtain ⟨rfl, -⟩ := Tx.ok_inj h
    exact hR.refl _
  split at h
  · split at h
    · split at h
      · obtain ⟨rfl, -⟩ := Tx.ok_inj h
        exact hR.refl _
      · obtain ⟨rfl, -⟩ := Tx.ok_inj h
        exact hR.refl _
    · obtain ⟨rfl, -⟩ := Tx.ok_inj h
      exact hR.refl _
  split at h
  · obtain ⟨rfl, -⟩ := Tx.ok_inj h
    exact hR.refl _
  · exact hR.acceptLive hlock h

end AcceptRule

end Rcab
