import Rcab.Lib.Market
import Rcab.Dispatch.Offer
import Rcab.Dispatch.Assignment
import Rcab.Outbox.Writer

/-!
# The trips as a market

`market db` reads the four tables of dispatch as an abstract market: rides and pools
are the jobs, drivers the workers, `driver_active_assignment` the guard.  Each
statement of the repositories is then one update of the market.
-/

namespace Rcab

open Market (Phase Offer OfferState Binding)
open Market.State (on)

/-! ## The phases of the two trip tables -/

/-- What a ride is to dispatch. -/
def Ride.phase (r : Ride) : Phase DriverId :=
  if r.status = .requested ∧ r.driverId = none then .window r.dispatchGeneration
  else match r.driverId with
  | some d => if r.status.Active then .held d else .over
  | none => .over

/-- What a pool is to dispatch. -/
def SharedRide.phase (s : SharedRide) : Phase DriverId :=
  match s.claimedByDriverId with
  | some d => if s.poolState.Closed then .held d else .over
  | none =>
      if s.poolState = .open_ then .closed
      else if s.poolState.Claimable then .window s.dispatchGeneration
      else .over

namespace Ride

variable {r : Ride}

theorem phase_eq_window {g : ℕ} : r.phase = .window g ↔
    r.status = .requested ∧ r.driverId = none ∧ r.dispatchGeneration = g := by
  unfold phase
  by_cases h : r.status = .requested ∧ r.driverId = none
  · simp [h]
  · rw [if_neg h]
    constructor
    · intro hp
      cases hd : r.driverId with
      | none => simp [hd] at hp
      | some d => by_cases ha : r.status.Active <;> simp [hd, ha] at hp
    · rintro ⟨hs, hd, -⟩
      exact absurd ⟨hs, hd⟩ h

theorem phase_eq_held {d : DriverId} : r.phase = .held d ↔
    r.driverId = some d ∧ r.status.Active := by
  unfold phase
  by_cases h : r.status = .requested ∧ r.driverId = none
  · simp [h]
  · rw [if_neg h]
    cases hd : r.driverId with
    | none => simp
    | some d' => by_cases ha : r.status.Active <;> simp [ha]

/-- Neither offerable nor held. -/
theorem phase_eq_over (h : ¬ (r.status = .requested ∧ r.driverId = none))
    (ha : r.driverId = none ∨ ¬ r.status.Active) : r.phase = .over := by
  unfold phase
  rw [if_neg h]
  rcases ha with hd | ha
  · simp [hd]
  · cases r.driverId <;> simp [ha]

end Ride

namespace SharedRide

variable {s : SharedRide}

theorem phase_eq_window {g : ℕ} : s.phase = .window g ↔
    s.poolState.Claimable ∧ s.claimedByDriverId = none ∧ s.dispatchGeneration = g := by
  unfold phase
  cases hd : s.claimedByDriverId with
  | some d => by_cases hc : s.poolState.Closed <;> simp [hc]
  | none => cases hs : s.poolState <;> simp [PoolState.Claimable]

theorem phase_eq_held {d : DriverId} : s.phase = .held d ↔
    s.claimedByDriverId = some d ∧ s.poolState.Closed := by
  unfold phase
  cases hd : s.claimedByDriverId with
  | some d' => by_cases hc : s.poolState.Closed <;> simp [hc]
  | none => cases hs : s.poolState <;> simp [PoolState.Claimable]

theorem phase_eq_closed : s.phase = .closed ↔
    s.poolState = .open_ ∧ s.claimedByDriverId = none := by
  unfold phase
  cases hd : s.claimedByDriverId with
  | some d => by_cases hc : s.poolState.Closed <;> simp [hc]
  | none => cases hs : s.poolState <;> simp [PoolState.Claimable]

theorem phase_eq_over_of_terminal (h : s.poolState.Terminal) : s.phase = .over := by
  unfold phase
  cases hs : s.poolState <;> simp [hs, PoolState.Terminal] at h <;>
    cases s.claimedByDriverId <;> simp [PoolState.Claimable, PoolState.Closed]

end SharedRide

/-! ## The market of a database -/

/-- The three ways an offer can be dead are one. -/
def DispatchOfferState.view : DispatchOfferState → OfferState
  | .offered => .live
  | .accepted => .accepted
  | .declined | .expired | .revoked => .dead

@[simp] theorem DispatchOfferState.view_eq_live {st : DispatchOfferState} :
    st.view = .live ↔ st = .offered := by
  cases st <;> simp [view]

@[simp] theorem DispatchOfferState.view_eq_accepted {st : DispatchOfferState} :
    st.view = .accepted ↔ st = .accepted := by
  cases st <;> simp [view]

def DispatchOffer.view (o : DispatchOffer) : Offer TripRef DriverId :=
  ⟨o.trip, o.driverId, o.dispatchGeneration, o.state.view⟩

def DriverActiveAssignment.view (a : DriverActiveAssignment) : Binding TripRef OfferId :=
  ⟨a.trip, a.offerId, a.dispatchGeneration⟩

/-- The phase of a trip; one without a row is closed. -/
def Db.phase (db : Db) : TripRef → Phase DriverId
  | .solo rideId => ((db.rides.get rideId).map Ride.phase).getD .closed
  | .shared poolId => ((db.sharedRides.get poolId).map SharedRide.phase).getD .closed

/-- The market a database stands for. -/
def market (db : Db) : Market.State TripRef DriverId OfferId where
  phase := db.phase
  guard d := (db.driverActiveAssignment.get d).map DriverActiveAssignment.view
  offer o := (db.dispatchOffer.get o).map DispatchOffer.view

section Read

variable {db : Db}

@[simp] theorem market_phase (trip : TripRef) : (market db).phase trip = db.phase trip := rfl

theorem phase_solo {rideId : RideId} {r : Ride} (h : db.rides.get rideId = some r) :
    db.phase (.solo rideId) = r.phase := by
  simp [Db.phase, h]

theorem phase_shared {poolId : PoolId} {s : SharedRide} (h : db.sharedRides.get poolId = some s) :
    db.phase (.shared poolId) = s.phase := by
  simp [Db.phase, h]

theorem market_guard_eq_some {d : DriverId} {b : Binding TripRef OfferId} :
    (market db).guard d = some b ↔
      ∃ a ∈ db.driverActiveAssignment, a.driverId = d ∧ a.view = b := by
  simp only [market, Option.map_eq_some_iff, Table.get_eq_some]
  constructor
  · rintro ⟨a, ⟨ha, hd⟩, hb⟩
    exact ⟨a, ha, hd, hb⟩
  · rintro ⟨a, ha, hd, hb⟩
    exact ⟨a, ⟨ha, hd⟩, hb⟩

theorem market_guard_eq_none {d : DriverId} :
    (market db).guard d = none ↔ db.driverActiveAssignment.get d = none := by
  simp [market]

theorem market_offer_eq_some {o : OfferId} {v : Offer TripRef DriverId} :
    (market db).offer o = some v ↔ ∃ r ∈ db.dispatchOffer, r.id = o ∧ r.view = v := by
  simp only [market, Option.map_eq_some_iff, Table.get_eq_some]
  constructor
  · rintro ⟨a, ⟨ha, hd⟩, hb⟩
    exact ⟨a, ha, hd, hb⟩
  · rintro ⟨a, ha, hd, hb⟩
    exact ⟨a, ⟨ha, hd⟩, hb⟩

/-- A live row is a live offer. -/
theorem offerIs_of_live {o : DispatchOffer} (h : o ∈ db.dispatchOffer) (hl : Dispatch.Live o) :
    (market db).OfferIs o.id .live o.view :=
  ⟨market_offer_eq_some.mpr ⟨o, h, rfl, rfl⟩,
    by simpa [DispatchOffer.view] using Dispatch.live_iff.mp hl⟩

theorem offerIs_of_accepted {o : DispatchOffer} (h : o ∈ db.dispatchOffer)
    (ha : o.state = .accepted) : (market db).OfferIs o.id .accepted o.view :=
  ⟨market_offer_eq_some.mpr ⟨o, h, rfl, rfl⟩, by simpa [DispatchOffer.view] using ha⟩

end Read

/-! ## What each statement does to the market -/

section Statements

variable {db : Db}

/-- An update of one ride. -/
theorem market_rides_update {rideId : RideId} {r : Ride} {p : Ride → Prop} [DecidablePred p]
    {f : Ride → Ride} (hf : ∀ r, (f r).id = r.id) {φ : Phase DriverId}
    (hr : db.rides.get rideId = some r) (hp : ∀ r', p r' → r'.id = rideId) (hpr : p r)
    (hφ : (f r).phase = φ) :
    market { db with rides := db.rides.update p f hf } =
      (market db).setPhase (.solo rideId) φ := by
  subst hφ
  refine Market.State.ext_apply (fun trip ↦ ?_) (fun _ ↦ rfl) fun _ ↦ rfl
  by_cases e : trip = .solo rideId
  · subst e
    simp [Db.phase, hr, hpr]
  · simp only [Market.State.setPhase_phase, Function.update_of_ne e]
    cases trip with
    | solo rideId' =>
        have : rideId' ≠ rideId := fun h ↦ e (h ▸ rfl)
        simp only [market_phase, Db.phase, Table.get_update_key _ hp this]
    | shared poolId => rfl

/-- A new ride. -/
theorem market_rides_insert {r : Ride} (h : db.rides.get r.id = none) :
    market { db with rides := db.rides.insert r } =
      (market db).setPhase (.solo r.id) r.phase := by
  refine Market.State.ext_apply (fun trip ↦ ?_) (fun _ ↦ rfl) fun _ ↦ rfl
  by_cases e : trip = .solo r.id
  · subst e
    simp [Db.phase, Table.get_insert h]
  · simp only [Market.State.setPhase_phase, Function.update_of_ne e]
    cases trip with
    | solo rideId' =>
        have : rideId' ≠ r.id := fun h ↦ e (h ▸ rfl)
        simp [Db.phase, Table.get_insert h, this]
    | shared poolId => rfl

/-- The phase does not depend on the version the trigger bumps. -/
@[simp] theorem SharedRide.phase_withVersion (s : SharedRide) (n : ℕ) :
    (s.withVersion n).phase = s.phase := rfl

/-- An update of one pool. -/
theorem market_updatePool {now : Time} {poolId : PoolId} {s : SharedRide}
    {f : SharedRide → SharedRide} (hf : ∀ s, (f s).rideId = s.rideId) {φ : Phase DriverId}
    (hs : db.sharedRides.get poolId = some s) (hφ : (f s).phase = φ) :
    market (db.updatePool now poolId f hf) = (market db).setPhase (.shared poolId) φ := by
  subst hφ
  refine Market.State.ext_apply (fun trip ↦ ?_) (fun _ ↦ rfl) fun _ ↦ rfl
  by_cases e : trip = .shared poolId
  · subst e
    have hk : s.rideId = poolId := Table.key_of_get hs
    simp [Db.phase, Db.updatePool, hs, hk]
  · simp only [Market.State.setPhase_phase, Function.update_of_ne e]
    cases trip with
    | solo rideId => rfl
    | shared poolId' =>
        have : poolId' ≠ poolId := fun h ↦ e (h ▸ rfl)
        simp only [market_phase, Db.phase, Db.updatePool,
          Table.get_update_key _ (fun r h ↦ h) this]

/-- A new pool. -/
theorem market_sharedRides_insert {s : SharedRide} (h : db.sharedRides.get s.rideId = none) :
    market { db with sharedRides := db.sharedRides.insert s } =
      (market db).setPhase (.shared s.rideId) s.phase := by
  refine Market.State.ext_apply (fun trip ↦ ?_) (fun _ ↦ rfl) fun _ ↦ rfl
  by_cases e : trip = .shared s.rideId
  · subst e
    simp [Db.phase, Table.get_insert h]
  · simp only [Market.State.setPhase_phase, Function.update_of_ne e]
    cases trip with
    | solo rideId => rfl
    | shared poolId' =>
        have : poolId' ≠ s.rideId := fun h ↦ e (h ▸ rfl)
        simp [Db.phase, Table.get_insert h, this]

/-- Live offers are declined, expired or revoked. -/
theorem market_resolveWhere {clock : Time} {target : DispatchOfferState}
    {p : DispatchOffer → Prop} [DecidablePred p] (ht : target.view = .dead) :
    market (Dispatch.resolveWhere clock db target p) =
      (market db).settle {o | ∃ r, db.dispatchOffer.get o = some r ∧ p r} := by
  refine Market.State.ext_apply (fun _ ↦ rfl) (fun _ ↦ rfl) fun o ↦ ?_
  cases hg : db.dispatchOffer.get o with
  | none =>
      rw [Market.State.settle_offer_of_notMem (by simp [hg])]
      simp [market, Dispatch.resolveWhere, hg]
  | some r =>
      by_cases hp : p r
      · have hmem : o ∈ {o | ∃ r, db.dispatchOffer.get o = some r ∧ p r} := ⟨r, hg, hp⟩
        rw [Market.State.settle_offer_of_mem hmem]
        by_cases hl : Dispatch.Live r
        · have : r.view.state = .live := by simpa [DispatchOffer.view, Dispatch.live_iff] using hl
          have hk : (Dispatch.resolve clock target r).view = r.view.kill := by
            rw [Offer.kill_of_live this]
            simp [DispatchOffer.view, Dispatch.resolve, ht]
          simp [market, Dispatch.resolveWhere, hg, hp, hl, hk]
        · have : r.view.state ≠ .live := by simpa [DispatchOffer.view, Dispatch.live_iff] using hl
          simp [market, Dispatch.resolveWhere, hg, hl, Offer.kill_of_not_live this]
      · rw [Market.State.settle_offer_of_notMem (by simp [hg, hp])]
        simp [market, Dispatch.resolveWhere, hg, hp]

/-- A live offer is accepted. -/
theorem market_accept {clock : Time} {o : DispatchOffer} (h : db.dispatchOffer.get o.id = some o)
    (hl : Dispatch.Live o) :
    market (Dispatch.resolveWhere clock db .accepted fun a ↦ a.id = o.id) =
      (market db).setOffer o.id { o.view with state := .accepted } := by
  refine Market.State.ext_apply (fun _ ↦ rfl) (fun _ ↦ rfl) fun o' ↦ ?_
  by_cases e : o' = o.id
  · subst e
    simp [market, Dispatch.resolveWhere, h, hl, DispatchOffer.view, Dispatch.resolve,
      DispatchOfferState.view]
  · have := Table.get_update_key (t := db.dispatchOffer) (k := o')
      (q := fun a ↦ Dispatch.Live a ∧ a.id = o.id) (f := Dispatch.resolve clock .accepted)
      (fun _ ↦ rfl) (fun r hr ↦ hr.2) e
    simp only [market, Dispatch.resolveWhere, Market.State.setOffer_offer, Function.update_of_ne e,
      this]

/-- A new offer. -/
theorem market_dispatchOffer_insert {o : DispatchOffer}
    (h : db.dispatchOffer.get o.id = none) :
    market { db with dispatchOffer := db.dispatchOffer.insert o } =
      (market db).setOffer o.id o.view := by
  refine Market.State.ext_apply (fun _ ↦ rfl) (fun _ ↦ rfl) fun o' ↦ ?_
  by_cases e : o' = o.id
  · subst e
    simp [market, Table.get_insert h]
  · simp [market, Table.get_insert h, e]

/-- A new guard row. -/
theorem market_guard_insert {a : DriverActiveAssignment}
    (h : db.driverActiveAssignment.get a.driverId = none) :
    market { db with driverActiveAssignment := db.driverActiveAssignment.insert a } =
      (market db).setGuard a.driverId (some a.view) := by
  refine Market.State.ext_apply (fun _ ↦ rfl) (fun d ↦ ?_) fun _ ↦ rfl
  by_cases e : d = a.driverId
  · subst e
    simp [market, Table.get_insert h]
  · simp [market, Table.get_insert h, e]

/-- The guard of a driver that holds the trip is dropped. -/
theorem market_release {driverId : DriverId} {trip : TripRef} {b : Binding TripRef OfferId}
    (h : (market db).guard driverId = some b) (hb : b.job = trip) :
    market (Dispatch.release db driverId trip).1 = (market db).setGuard driverId none := by
  obtain ⟨a, ha, rfl, rfl⟩ := market_guard_eq_some.mp h
  have hg := Table.get_of_mem ha
  refine Market.State.ext_apply (fun _ ↦ rfl) (fun d ↦ ?_) fun _ ↦ rfl
  by_cases e : d = a.driverId
  · subst e
    have : a.trip = trip := hb
    simp [market, Dispatch.release, hg, this]
  · simp only [Market.State.setGuard_guard, Function.update_of_ne e]
    cases hd : db.driverActiveAssignment.get d with
    | none => simp [market, Dispatch.release, hd]
    | some a' =>
        have : a'.driverId ≠ a.driverId := (Table.key_of_get hd).trans_ne e
        simp [market, Dispatch.release, hd, this]

/-- The release of a trip the driver does not hold does nothing. -/
theorem market_release_of_not {driverId : DriverId} {trip : TripRef}
    (h : ∀ b, (market db).guard driverId = some b → b.job ≠ trip) :
    market (Dispatch.release db driverId trip).1 = market db := by
  refine Market.State.ext_apply (fun _ ↦ rfl) (fun d ↦ ?_) fun _ ↦ rfl
  cases hd : db.driverActiveAssignment.get d with
  | none => simp [market, Dispatch.release, hd]
  | some a =>
      have : a.driverId = driverId → a.trip ≠ trip := fun hda ↦
        h a.view (market_guard_eq_some.mpr ⟨a, Table.mem_of_get hd, hda, rfl⟩)
      by_cases hda : a.driverId = driverId
      · simp [market, Dispatch.release, hd, this hda]
      · simp [market, Dispatch.release, hd, hda]

/-- The market does not see the outbox. -/
theorem market_enqueueOutbox {t : TxClock} {m : Outbox.OutboxMessage} :
    market (Outbox.enqueueOutbox t db m) = market db := rfl

/-- The revocation of a trip's live offers. -/
theorem market_revokeLiveForTrip {t : TxClock} {trip : TripRef} :
    market (Dispatch.revokeLiveForTrip t db trip).1 =
      (market db).settle ((market db).on trip) := by
  have hset : {o | ∃ r, db.dispatchOffer.get o = some r ∧ r.trip = trip ∧ some r.id ≠ none} =
      (market db).on trip := by
    ext o
    simp only [Set.mem_ofPred_eq, on, market, Option.map_eq_some_iff, ne_eq, reduceCtorEq,
      not_false_eq_true, and_true]
    constructor
    · rintro ⟨r, hr, ht⟩
      exact ⟨r.view, ⟨r, hr, rfl⟩, ht⟩
    · rintro ⟨v, ⟨r, hr, rfl⟩, ht⟩
      exact ⟨r, hr, ht⟩
  rw [← hset]
  exact market_resolveWhere rfl

end Statements

end Rcab
