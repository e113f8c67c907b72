import Rcab.Trips.Market
import Rcab.Trips.Step
import Rcab.Scheduled.Rearm

/-!
# Every transaction is a market step

For each transaction, the market of the database it commits is reached from the market
of the database it started from by steps of the abstract market (`Sim`).  Which of the
irregular steps it may take is said by its `lax`.

The invariant `OpenUnclaimed` comes along: an open pool has no driver, so that closing
one opens a window.
-/

universe u

namespace Rcab

open Market (Phase Offer Binding Lax)
open Relation (ReflTransGen)

/-- An open pool has no driver. -/
def OpenUnclaimed (db : Db) : Prop :=
  ∀ s ∈ db.sharedRides, s.poolState = .open_ → s.claimedByDriverId = none

/-- What a transaction did is within the market. -/
structure Sim (lax : Lax) (db db' : Db) : Prop where
  steps : ReflTransGen (Market.Step lax) (market db) (market db')
  openUnclaimed : OpenUnclaimed db → OpenUnclaimed db'

namespace Sim

variable {lax : Lax} {db db' db'' : Db}

theorem refl : Sim lax db db := ⟨.refl, id⟩

theorem trans (h : Sim lax db db') (h' : Sim lax db' db'') : Sim lax db db'' :=
  ⟨h.steps.trans h'.steps, h'.openUnclaimed ∘ h.openUnclaimed⟩

/-- A transaction that leaves the market alone. -/
theorem of_eq (h : market db' = market db) (ho : OpenUnclaimed db → OpenUnclaimed db') :
    Sim lax db db' :=
  ⟨h ▸ .refl, ho⟩

/-- A transaction that is one step of the market. -/
theorem of_step (h : Market.Step lax (market db) (market db'))
    (ho : OpenUnclaimed db → OpenUnclaimed db') : Sim lax db db' :=
  ⟨.single h, ho⟩

/-- Exclusivity is kept. -/
theorem exclusive (h : Sim lax db db') (he : Market.Exclusive (market db)) :
    Market.Exclusive (market db') := he.steps h.steps

end Sim

/-- The market sees four tables only, and not the rest of the pool rows. -/
theorem OpenUnclaimed.updatePool {db : Db} (now : Time) {poolId : PoolId}
    {f : SharedRide → SharedRide} (hf : ∀ s, (f s).rideId = s.rideId) (h : OpenUnclaimed db)
    (hp : ∀ s ∈ db.sharedRides, s.rideId = poolId → (f s).poolState = .open_ →
      (f s).claimedByDriverId = none) : OpenUnclaimed (db.updatePool now poolId f hf) := by
  intro s hs ho
  obtain ⟨s₀, hs₀, rfl⟩ := Db.mem_sharedRides_updatePool.mp hs
  by_cases hk : s₀.rideId = poolId
  · rw [if_pos hk] at ho ⊢
    exact hp s₀ hs₀ hk ho
  · rw [if_neg hk] at ho ⊢
    exact h s₀ hs₀ ho

/-! ## Offers -/

section Offers

open Dispatch

variable {lax : Lax} {t : TxClock} {db db' : Db}

theorem sim_resolveWhere {clock : Time} {target : DispatchOfferState} {p : DispatchOffer → Prop}
    [DecidablePred p] (ht : target.view = .dead) :
    Sim lax db (resolveWhere clock db target p) :=
  .of_step (market_resolveWhere (p := p) ht ▸ .settle _) id

/-- A dispatchable trip has a window of that generation. -/
theorem phase_of_dispatchable {trip : TripRef} {generation : ℕ}
    (h : Dispatchable db trip generation) : db.phase trip = .window generation := by
  cases trip with
  | solo rideId =>
      obtain ⟨r, hr, rfl, hs, hd, hg⟩ := h
      rw [phase_solo (Table.get_of_mem hr), Ride.phase_eq_window]
      exact ⟨hs, hd, hg⟩
  | shared poolId =>
      obtain ⟨s, hs, rfl, hc, hd, hg⟩ := h
      rw [phase_shared (Table.get_of_mem hs), SharedRide.phase_eq_window]
      exact ⟨hc, hd, hg⟩

theorem sim_createOffer {newId : OfferId} {locked : List OfferId} {p : CreateOffer}
    {r : Option CreatedOffer} (h : createOffer t db newId locked p = .ok (db', r)) :
    Sim lax db db' := by
  unfold createOffer at h
  by_cases hdisp : Dispatchable db p.trip p.generation
  · simp only [hdisp, not_true_eq_false, ↓reduceIte] at h
    generalize hdb : expireLapsedOf t.clockTimestamp db p.driverId locked = db₁ at h
    have h₁ : Sim lax db db₁ := hdb ▸ sim_resolveWhere rfl
    have hphase : db₁.phase p.trip = .window p.generation := by
      rw [← hdb]
      exact phase_of_dispatchable hdisp
    split_ifs at h with hg hw hc
    · obtain ⟨rfl, -⟩ := Tx.ok_inj h
      exact h₁
    · obtain ⟨rfl, -⟩ := Tx.ok_inj h
      have hnone : db₁.dispatchOffer.get newId = none :=
        Table.get_eq_none.mpr fun o ho hid ↦ hc ⟨o, ho, Or.inl hid⟩
      refine h₁.trans (.of_step ?_ id)
      rw [market_dispatchOffer_insert (o := p.row t newId) hnone]
      refine .make newId p.trip p.driverId p.generation hphase (by omega) (by simp [market, hnone])
        ?_ ?_
      · rintro o' v ⟨hv, hl⟩ hw'
        obtain ⟨a, ha, rfl, rfl⟩ := market_offer_eq_some.mp hv
        have hla : Live a := by simpa [DispatchOffer.view, live_iff] using hl
        exact hc ⟨a, ha, Or.inr (Or.inl ⟨hla, hw'⟩)⟩
      · rintro o' v hv ⟨hj, hgen, hw'⟩
        obtain ⟨a, ha, rfl, rfl⟩ := market_offer_eq_some.mp hv
        exact hc ⟨a, ha, Or.inr (Or.inr ⟨hj, hgen, hw'⟩)⟩
  · simp only [hdisp, not_false_eq_true, ↓reduceIte] at h
    obtain ⟨rfl, -⟩ := Tx.ok_inj h
    exact .refl

theorem sim_decline {offerId : OfferId} {driverId : DriverId} :
    Sim lax db (decline t db offerId driverId).1 := by
  unfold decline
  split
  · exact .refl
  · split
    · exact sim_resolveWhere rfl
    · exact .refl

theorem sim_expireLapsed {locked : List OfferId} : Sim lax db (expireLapsed t db locked).1 :=
  sim_resolveWhere rfl

/-- What resolving one row does. -/
theorem resolveLive_eq_ok {offerId : OfferId} {target : DispatchOfferState} {b : Bool}
    (h : resolveLive t db offerId target = .ok (db', b)) :
    (b = false ∧ db' = db) ∨ b = true ∧ ∃ o, db.dispatchOffer.get offerId = some o ∧ Live o ∧
      db' = resolveWhere t.clockTimestamp db target fun a ↦ a.id = offerId := by
  unfold resolveLive at h
  split at h
  · obtain ⟨rfl, rfl⟩ := Tx.ok_inj h
    exact Or.inl ⟨rfl, rfl⟩
  · rename_i o ho
    split_ifs at h with hl hc
    · obtain ⟨rfl, rfl⟩ := Tx.ok_inj h
      exact Or.inr ⟨rfl, o, ho, hl, rfl⟩
    · obtain ⟨rfl, rfl⟩ := Tx.ok_inj h
      exact Or.inl ⟨rfl, rfl⟩

end Offers

/-! ## Guard and claim -/

section Claim

open Dispatch

variable {lax : Lax} {t : TxClock} {db db' : Db}

/-- The market after a guard is taken. -/
theorem market_acquire {p : Acquire} (hfree : db.driverActiveAssignment.get p.driverId = none) :
    market { db with driverActiveAssignment := db.driverActiveAssignment.insert (p.row t.now) } =
      (market db).setGuard p.driverId (some ⟨p.trip, p.offerId, p.generation⟩) :=
  market_guard_insert (a := p.row t.now) hfree

/-- A trip is bound only in a window; the offers and guards stay. -/
theorem claimRow_eq_ok {trip : TripRef} {driverId : DriverId} {generation : ℕ} {u : Unit}
    (h : claimRow t db trip driverId generation = .ok (db', u)) :
    (∃ g, db.phase trip = .window g) ∧
      market db' = (market db).setPhase trip (.held driverId) ∧
      (OpenUnclaimed db → OpenUnclaimed db') ∧ db'.dispatchOffer = db.dispatchOffer := by
  cases trip with
  | solo rideId =>
      simp only [claimRow, claimSoloRow] at h
      split_ifs at h with hc
      obtain ⟨rfl, -⟩ := Tx.ok_inj h
      obtain ⟨r, hr, hid, hs, hd⟩ := hc
      have hg : db.rides.get rideId = some r := hid ▸ Table.get_of_mem hr
      refine ⟨⟨r.dispatchGeneration, ?_⟩, ?_, id, rfl⟩
      · rw [phase_solo hg, Ride.phase_eq_window]
        exact ⟨hs, hd, rfl⟩
      · exact market_rides_update _ hg (fun _ h ↦ h.1) ⟨hid, hs, hd⟩
          (Ride.phase_eq_held.mpr ⟨rfl, trivial⟩)
  | shared poolId =>
      simp only [claimRow, claimSharedRow] at h
      split_ifs at h with hc
      obtain ⟨rfl, -⟩ := Tx.ok_inj h
      obtain ⟨s, hs, hid, hd, hcl, hgen⟩ := hc
      have hg : db.sharedRides.get poolId = some s := hid ▸ Table.get_of_mem hs
      refine ⟨⟨s.dispatchGeneration, ?_⟩, ?_, fun ho ↦ ho.updatePool _ _ ?_, rfl⟩
      · rw [phase_shared hg, SharedRide.phase_eq_window]
        exact ⟨hcl, hd, rfl⟩
      · have hclosed : s.poolState.Closed := PoolState.closed_of_claimable hcl
        exact market_updatePool _ hg (SharedRide.phase_eq_held.mpr ⟨rfl, hclosed⟩)
      · intro s' hs' hk hop
        obtain rfl : s' = s := Table.unique hs' hs (hk.trans hid.symm)
        have hop' : s'.poolState = .open_ := hop
        simp [hop', PoolState.Claimable] at hcl

end Claim

/-! ## Accept -/

section Accept

open Dispatch

variable {t : TxClock} {db db' : Db} {accounts : Accounts} {offerId : OfferId}
  {driverId : DriverId} {trip : TripRef} {out : AcceptOutcome}

/-- The irregularity of an accept: its trip is not the one the caller's offer names. -/
def acceptLax (db : Db) (offerId : OfferId) (driverId : DriverId) (trip : TripRef) : Lax :=
  ⟨False, ∃ o, findForDriver db offerId driverId = some o ∧ o.trip ≠ trip⟩

/-- What an accept can do. -/
inductive Accepts (t : TxClock) (db : Db) (offerId : OfferId) (driverId : DriverId)
    (trip : TripRef) : Db → AcceptOutcome → Prop
  /-- Nothing. -/
  | refused (reason : AcceptOfferFailure) : Accepts t db offerId driverId trip db (rejected reason)
  /-- An acceptance is answered again. -/
  | replayed (o : DispatchOffer) (ho : db.dispatchOffer.get offerId = some o)
      (hd : o.driverId = driverId) (ha : o.state = .accepted) :
      Accepts t db offerId driverId trip db ⟨.ok trip o.dispatchGeneration true, []⟩
  /-- The offer turns out to be lapsed or stale. -/
  | resolved (o : DispatchOffer) (ho : db.dispatchOffer.get offerId = some o)
      (hd : o.driverId = driverId) (hl : Live o) (target : DispatchOfferState)
      (ht : target.view = .dead) (reason : AcceptOfferFailure) :
      Accepts t db offerId driverId trip
        (resolveWhere t.clockTimestamp db target fun a ↦ a.id = offerId) (rejected reason)
  /-- The trip is bound. -/
  | bound (o : DispatchOffer) (db' : Db) (revoked : List RevokedOffer)
      (ho : db.dispatchOffer.get offerId = some o) (hd : o.driverId = driverId) (hl : Live o)
      (hp : db.phase trip = .window o.dispatchGeneration)
      (hg : db.driverActiveAssignment.get driverId = none)
      (hm : market db' = ((((market db).setOffer offerId { o.view with state := .accepted }).settle
        ((market db).on trip)).setPhase trip (.held driverId)).setGuard driverId
          (some ⟨trip, some offerId, o.dispatchGeneration⟩))
      (hu : OpenUnclaimed db → OpenUnclaimed db') :
      Accepts t db offerId driverId trip db'
        ⟨.ok trip o.dispatchGeneration false, revoked⟩

/-- The trip a driver is bound to was locked, and its window is the offer's. -/
theorem phase_of_lockTrip {locked : LockedTrip} {n : ℕ} (h : lockTrip db trip = some locked)
    (hs : seatsNeeded db locked = .ok n) : db.phase trip = .window locked.dispatchGeneration := by
  cases trip with
  | solo rideId =>
      obtain ⟨r, hr, rfl⟩ := Option.map_eq_some_iff.mp h
      simp only [seatsNeeded] at hs
      split_ifs at hs with hd hst
      rw [phase_solo hr, Ride.phase_eq_window]
      exact ⟨not_not.mp hst, by simpa using hd, rfl⟩
  | shared poolId =>
      obtain ⟨s, hr, rfl⟩ := Option.map_eq_some_iff.mp h
      simp only [seatsNeeded] at hs
      split_ifs at hs with hd hst
      rw [phase_shared hr, SharedRide.phase_eq_window]
      exact ⟨hst, by simpa using hd, rfl⟩

theorem markAccepted_eq_ok {u : Unit} (h : markAccepted t db offerId = .ok (db', u)) :
    ∃ o, db.dispatchOffer.get offerId = some o ∧ Live o ∧
      db' = resolveWhere t.clockTimestamp db .accepted fun a ↦ a.id = offerId := by
  unfold markAccepted at h
  split at h
  · cases h
  · rename_i db₁ hr
    obtain ⟨rfl, -⟩ := Tx.ok_inj h
    rcases resolveLive_eq_ok hr with ⟨hb, -⟩ | ⟨-, ho⟩
    · cases hb
    · exact ho
  · cases h

/-- The writes of an accept, from the state in which the guard is taken. -/
theorem bindTrip_eq_ok {o : DispatchOffer} (h : bindTrip t db o driverId trip = .ok (db', out))
    (ho : db.dispatchOffer.get o.id = some o) :
    out.result = .ok trip o.dispatchGeneration false ∧
      market db' = (((market db).setOffer o.id { o.view with state := .accepted }).settle
        ((market db).on trip)).setPhase trip (.held driverId) ∧
      (OpenUnclaimed db → OpenUnclaimed db') := by
  obtain ⟨db₁, u₁, h₁, h⟩ := Tx.andThen_eq_ok.mp h
  obtain ⟨db₂, u₂, h₂, h⟩ := Tx.andThen_eq_ok.mp h
  obtain ⟨rfl, rfl⟩ := Tx.ok_inj h
  obtain ⟨-, hm₁, hu₁, hof⟩ := claimRow_eq_ok h₁
  obtain ⟨o', ho', hl, rfl⟩ := markAccepted_eq_ok h₂
  obtain rfl : o' = o := by
    rw [hof, ho] at ho'
    exact (Option.some.inj ho').symm
  refine ⟨rfl, ?_, hu₁⟩
  show market (resolveWhere t.clockTimestamp _ .revoked
    fun a ↦ a.trip = trip ∧ some a.id ≠ some o'.id) = _
  rw [market_resolveWhere rfl, market_accept ho' hl, hm₁]
  -- The settled offers are those of the trip; the accepted one is no longer live.
  refine Market.State.settle_congr (s := (((market db).setPhase trip (.held driverId)).setOffer
    o'.id { o'.view with state := .accepted })) fun a v hv hlive ↦ ?_
  have hne : a ≠ o'.id := by
    rintro rfl
    simp only [Market.State.setOffer_offer, Function.update_self, Option.some.injEq] at hv
    subst hv
    cases hlive
  simp only [Market.State.setOffer_offer, Market.State.setPhase_offer,
    Function.update_of_ne hne] at hv
  obtain ⟨r, hr, rfl⟩ := Option.map_eq_some_iff.mp hv
  have hget : (resolveWhere t.clockTimestamp db₁ .accepted
      fun a ↦ a.id = o'.id).dispatchOffer.get a = some r := by
    have := Table.get_update_key (t := db₁.dispatchOffer) (k := a)
      (q := fun a ↦ Live a ∧ a.id = o'.id) (resolve_id t.clockTimestamp .accepted)
      (fun _ h ↦ h.2) hne
    rw [resolveWhere, this, hof, hr]
  have hid : r.id = a := Table.key_of_get hr
  constructor
  · rintro ⟨r', hr', htrip, -⟩
    rw [hget, Option.some.injEq] at hr'
    subst hr'
    exact ⟨r.view, hv, htrip⟩
  · rintro ⟨v', hv', htrip⟩
    rw [hv, Option.some.injEq] at hv'
    subst hv'
    exact ⟨r, hget, htrip, by simpa [hid] using hne⟩

theorem acceptLive_eq_ok {o : DispatchOffer} {locked : LockedTrip}
    (h : acceptLive t db accounts o driverId trip locked = .ok (db', out))
    (ho : db.dispatchOffer.get o.id = some o) (hd : o.driverId = driverId) (hl : Live o)
    (hlock : lockTrip db trip = some locked) : Accepts t db o.id driverId trip db' out := by
  have hres : ∀ {target : DispatchOfferState} {reason : AcceptOfferFailure},
      target.view = .dead → target ≠ .accepted →
      ((resolveLive t db o.id target).andThen fun db _ ↦ .ok (db, rejected reason)) =
        .ok (db', out) → Accepts t db o.id driverId trip db' out := by
    intro target reason ht hne h
    obtain ⟨db₁, b, h₁, h⟩ := Tx.andThen_eq_ok.mp h
    obtain ⟨rfl, rfl⟩ := Tx.ok_inj h
    rcases resolveLive_eq_ok h₁ with ⟨-, rfl⟩ | ⟨-, o', -, -, rfl⟩
    · exact .refused reason
    · exact .resolved o ho hd hl target ht reason
  unfold acceptLive at h
  split_ifs at h with hlapsed hgen
  · exact hres rfl (by simp) h
  · exact hres rfl (by simp) h
  · split at h
    · obtain ⟨rfl, rfl⟩ := Tx.ok_inj h
      exact .refused _
    · rename_i seats hseats
      split at h
      · obtain ⟨rfl, rfl⟩ := Tx.ok_inj h
        exact .refused _
      · obtain ⟨rfl, rfl⟩ := Tx.ok_inj h
        exact .refused _
      · obtain ⟨db₁, guard, h₁, h⟩ := Tx.andThen_eq_ok.mp h
        rcases acquire_eq_ok h₁ with ⟨hne, rfl⟩ | ⟨rfl, hfree, rfl⟩
        · cases guard with
          | ok => exact absurd rfl hne
          | driverBusy =>
              obtain ⟨rfl, rfl⟩ := Tx.ok_inj h
              exact .refused _
          | tripTaken =>
              obtain ⟨rfl, rfl⟩ := Tx.ok_inj h
              exact .refused _
        · have hgen' : o.dispatchGeneration = locked.dispatchGeneration := not_not.mp hgen
          obtain ⟨hout, hm, hu⟩ := bindTrip_eq_ok h ho
          obtain ⟨result, revoked⟩ := out
          obtain rfl : result = _ := hout
          refine .bound o db' revoked ho hd hl ?_ hfree ?_ hu
          · rw [hgen']
            exact phase_of_lockTrip hlock hseats
          · rw [hm, market_acquire hfree]
            rfl

/-- Every accept is one of the four cases. -/
theorem acceptInTx_eq_ok (h : acceptInTx t db accounts offerId driverId trip = .ok (db', out)) :
    Accepts t db offerId driverId trip db' out := by
  unfold acceptInTx at h
  split at h
  · obtain ⟨rfl, rfl⟩ := Tx.ok_inj h
    exact .refused _
  rename_i locked hlock
  split at h
  · obtain ⟨rfl, rfl⟩ := Tx.ok_inj h
    exact .refused _
  rename_i o ho
  have hid : o.id = offerId := Table.key_of_get ho
  split_ifs at h with hd ha hl
  · obtain ⟨rfl, rfl⟩ := Tx.ok_inj h
    exact .refused _
  · split at h
    · split_ifs at h
      · obtain ⟨rfl, rfl⟩ := Tx.ok_inj h
        exact .replayed o ho (not_not.mp hd) ha
      · obtain ⟨rfl, rfl⟩ := Tx.ok_inj h
        exact .refused _
    · obtain ⟨rfl, rfl⟩ := Tx.ok_inj h
      exact .refused _
  · subst hid
    exact acceptLive_eq_ok h ho (not_not.mp hd) hl hlock
  · obtain ⟨rfl, rfl⟩ := Tx.ok_inj h
    exact .refused _

theorem sim_acceptInTx (h : acceptInTx t db accounts offerId driverId trip = .ok (db', out)) :
    Sim (acceptLax db offerId driverId trip) db db' := by
  cases acceptInTx_eq_ok h with
  | refused reason => exact .refl
  | replayed o ho hd ha => exact .refl
  | resolved o ho hd hl target ht reason => exact sim_resolveWhere ht
  | bound o _ revoked ho hd hl hp hg hm hu =>
      have hid : o.id = offerId := Table.key_of_get ho
      subst hid hd
      refine .of_step (hm ▸ .accept o.id o.view trip (offerIs_of_live (Table.mem_of_get ho) hl) ?_
        hp ?_) hu
      · by_cases htrip : o.trip = trip
        · exact Or.inr htrip
        · exact Or.inl ⟨o, by simp [findForDriver, ho], htrip⟩
      · simpa [market, DispatchOffer.view] using hg

end Accept

end Rcab
