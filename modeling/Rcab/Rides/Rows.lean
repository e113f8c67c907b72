import Rcab.Rides.Bookings

/-!
# What becomes of a ride's row

A transaction creates the row of a ride, changes it in one of five ways, or leaves it
(`rideRows_exec`).  What its columns hold is read off from these changes (`Ride.Changes`) and the
row it was created with.
-/

universe u

namespace Rcab

open Dispatch
open Relation (ReflTransGen)

/-- The calls the callers of the repository make. -/
structure RideCalls where
  creates : Rides.CreateRide → Prop
  cancels : Rides.CancelRide → Prop
  claims : TripRef → DriverId → Prop := fun _ _ ↦ True

def Step.Calls (c : RideCalls) : Step → Prop
  | .createRide _ params => c.creates params
  | .cancel _ _ params => c.cancels params
  | .acceptInTx _ _ _ driverId trip => c.claims trip driverId
  | .claimSolo _ rideId driverId => c.claims (.solo rideId) driverId
  | _ => True

/-- The changes of a row, with the guard of the statement that makes them. -/
inductive Ride.Changes (c : RideCalls) (r : Ride) : Ride → Prop
  | claimed (driverId : DriverId) (now : Time) (g : ℕ) (hc : c.claims (.solo r.id) driverId)
      (hs : r.status = .requested) (hd : r.driverId = none) :
      Changes c r { r with
        status := .accepted
        driverId := some driverId
        acceptedAt := some now
        dispatchGeneration := g }
  | advanced (event : Rides.RideEvent) (dateNow : Time) (driverId : DriverId)
      (hd : r.driverId = some driverId) (hs : r.status = (Rides.transitions event).source) :
      Changes c r (Rides.advance dateNow (Rides.transitions event).target r)
  | cancelled (params : Rides.CancelRide) (dateNow : Time) (target : RideStatus)
      (hc : c.cancels params) (howns : Rides.Owns params r)
      (ht : Rides.cancelTarget params dateNow r = .ok target) :
      Changes c r { r with
        status := target
        cancelledAt := some dateNow
        cancelledBy := some params.actor
        cancelReason := params.reason }
  | noDriver (hs : r.status = .requested) (hd : r.driverId = none) :
      Changes c r { r with status := .noDriver }
  | window (g : ℕ) (ht : r.type = .scheduled) (hs : r.status = .requested) :
      Changes c r { r with dispatchGeneration := g }

/-- No change touches what was agreed. -/
theorem Ride.Changes.agreed {c : RideCalls} {r r' : Ride} (h : r.Changes c r') :
    r'.passengerId = r.passengerId ∧ r'.origin = r.origin ∧ r'.dest = r.dest ∧
      r'.fareCents = r.fareCents := by
  cases h with
  | advanced event _ _ _ _ => cases event <;> exact ⟨rfl, rfl, rfl, rfl⟩
  | claimed _ _ _ _ _ _ | cancelled _ _ _ _ _ _ | noDriver _ _ | window _ _ _ =>
    exact ⟨rfl, rfl, rfl, rfl⟩

theorem Ride.Changes.id {c : RideCalls} {r r' : Ride} (h : r.Changes c r') : r'.id = r.id := by
  cases h with
  | advanced event _ _ _ _ => exact Rides.advance_id ..
  | claimed _ _ _ _ _ _ | cancelled _ _ _ _ _ _ | noDriver _ _ | window _ _ _ => rfl

/-- Whose a ride becomes has claimed it. -/
theorem Ride.Changes.driver {c : RideCalls} {r r' : Ride} {driverId : DriverId}
    (h : r.Changes c r') (hd : r'.driverId = some driverId) :
    r.driverId = some driverId ∨ c.claims (.solo r'.id) driverId := by
  cases h with
  | claimed driverId' now g hc _ _ =>
    obtain rfl := Option.some.inj hd
    exact Or.inr hc
  | advanced event _ _ _ _ => exact Or.inl ((Rides.advance_driverId ..).symm.trans hd)
  | cancelled _ _ _ _ _ _ | noDriver _ _ | window _ _ _ => exact Or.inl hd

/-- A row is created or changed. -/
inductive RideRow (c : RideCalls) : Option Ride → Option Ride → Prop
  | created (params : Rides.CreateRide) (h : c.creates params) : RideRow c none (some params.row)
  | changed {r r' : Ride} (h : r.Changes c r') : RideRow c (some r) (some r')

/-- Every row went through such changes only. -/
structure RideRows (c : RideCalls) (db db' : Db) : Prop where
  steps : ∀ id, ReflTransGen (RideRow c) (db.rides.get id) (db'.rides.get id)

namespace RideRows

variable {c : RideCalls} {db db' db'' : Db} {rideId : RideId} {r : Ride}

theorem refl : RideRows c db db := ⟨fun _ ↦ .refl⟩

theorem trans (h : RideRows c db db') (h' : RideRows c db' db'') : RideRows c db db'' :=
  ⟨fun id ↦ (h.steps id).trans (h'.steps id)⟩

theorem of_eq (h : db'.rides = db.rides) : RideRows c db db' := ⟨fun _ ↦ h ▸ .refl⟩

theorem of_kept (h : RidesKept db db') : RideRows c db db' := by
  refine ⟨fun id ↦ ?_⟩
  have hrow : db'.rides.get id = db.rides.get id := congrArg RideView.row (h id)
  exact hrow ▸ .refl

/-- A new row. -/
theorem insert {params : Rides.CreateRide} (hfree : db.rides.get params.row.id = none)
    (h : db'.rides = db.rides.insert params.row) (hc : c.creates params) : RideRows c db db' := by
  refine ⟨fun id ↦ ?_⟩
  rw [h, Table.get_insert hfree]
  split_ifs with hid
  · rw [hid, hfree]
    exact .single (.created params hc)
  · exact .refl

/-- An update of one ride. -/
theorem update {p : Ride → Prop} [DecidablePred p] {f : Ride → Ride}
    (h : ∀ hf, db'.rides = db.rides.update p f hf) (hf : ∀ r, (f r).id = r.id)
    (hr : db.rides.get rideId = some r) (hp : ∀ r, p r → r.id = rideId)
    (hch : p r → r.Changes c (f r)) : RideRows c db db' := by
  refine ⟨fun id ↦ ?_⟩
  rw [h hf]
  by_cases hid : id = rideId
  · subst hid
    rw [Table.get_update, hr, Option.map_some]
    split_ifs with hpr
    · exact .single (.changed (hch hpr))
    · exact .refl
  · rw [Table.get_update_key hf hp hid]

/-- What the creation and every change keep holds of every row. -/
theorem forall_mem {P : Ride → Prop} (h : RideRows c db db')
    (hnew : ∀ params, c.creates params → P params.row)
    (hch : ∀ r r', r.Changes c r' → P r → P r') (hi : ∀ r ∈ db.rides, P r) :
    ∀ r ∈ db'.rides, P r := by
  intro r hr
  have key : ∀ row, ReflTransGen (RideRow c) (db.rides.get r.id) row → ∀ r, row = some r → P r := by
    intro row hrow
    induction hrow with
    | refl => exact fun r hr ↦ hi r (Table.mem_of_get hr)
    | tail _ hst ih =>
      rintro r rfl
      cases hst with
      | created params hc => exact hnew params hc
      | changed h => exact hch _ _ h (ih _ rfl)
  exact key _ (h.steps r.id) r (Table.get_of_mem hr)

/-- A row stays, and stands in any relation to its old self that the changes stand in. -/
theorem related {R : Ride → Ride → Prop} (h : RideRows c db db') (hrefl : ∀ r, R r r)
    (htrans : ∀ r r' r'', R r r' → R r' r'' → R r r'') (hch : ∀ r r', r.Changes c r' → R r r')
    (hr : db.rides.get rideId = some r) : ∃ r', db'.rides.get rideId = some r' ∧ R r r' := by
  have key : ∀ row, ReflTransGen (RideRow c) (db.rides.get rideId) row → ∃ r', row = some r' ∧
      R r r' := by
    intro row hrow
    induction hrow with
    | refl => exact ⟨r, hr, hrefl r⟩
    | tail _ hst ih =>
      obtain ⟨r', rfl, hrel⟩ := ih
      cases hst with
      | changed h => exact ⟨_, rfl, htrans _ _ _ hrel (hch _ _ h)⟩
  exact key _ (h.steps rideId)

/-- The driver of a ride was its driver before, or claimed it. -/
theorem driver {driverId : DriverId} (h : RideRows c db db') {r' : Ride}
    (hr : db'.rides.get rideId = some r') (hd : r'.driverId = some driverId) :
    (∃ r, db.rides.get rideId = some r ∧ r.driverId = some driverId) ∨
      c.claims (.solo rideId) driverId := by
  have key : ∀ row, ReflTransGen (RideRow c) (db.rides.get rideId) row →
      ∀ r', row = some r' → r'.driverId = some driverId →
        (∃ r, db.rides.get rideId = some r ∧ r.driverId = some driverId) ∨
          c.claims (.solo r'.id) driverId := by
    intro row hrow
    induction hrow with
    | refl => exact fun r hr hd ↦ Or.inl ⟨r, hr, hd⟩
    | tail _ hst ih =>
      rintro r' rfl hd
      cases hst with
      | created params hc => cases hd
      | changed h =>
        rcases h.driver hd with hd | hc
        · exact h.id ▸ ih _ rfl hd
        · exact Or.inr hc
  exact Table.key_of_get hr ▸ key _ (h.steps rideId) r' hr hd

end RideRows

/-! ## The transactions on rides -/

section Transactions

variable {c : RideCalls} {t : TxClock} {db db' : Db} {rideId : RideId}

theorem rideRows_claimSoloRow {driverId : DriverId} {g : ℕ} {u : Unit}
    (hc : c.claims (.solo rideId) driverId)
    (h : claimSoloRow t db rideId driverId g = .ok (db', u)) : RideRows c db db' := by
  simp only [claimSoloRow] at h
  split_ifs at h with hany
  obtain ⟨rfl, -⟩ := Tx.ok_inj h
  obtain ⟨r, hr, hid, -, -⟩ := hany
  subst hid
  exact .update (fun _ ↦ rfl) (fun _ ↦ rfl) (Table.get_of_mem hr) (fun _ hp ↦ hp.1)
    fun hp ↦ .claimed driverId t.now _ hc hp.2.1 hp.2.2

theorem rideRows_claimRow {trip : TripRef} {driverId : DriverId} {g : ℕ} {u : Unit}
    (hc : c.claims trip driverId) (h : claimRow t db trip driverId g = .ok (db', u)) : RideRows c db db' := by
  cases trip with
  | solo rideId => exact rideRows_claimSoloRow hc h
  | shared poolId => exact .of_kept (ridesKept_claimSharedRow h)

theorem rideRows_acceptInTx {accounts : Accounts} {offerId : OfferId} {driverId : DriverId}
    {trip : TripRef} {out : AcceptOutcome} (hc : c.claims trip driverId)
    (h : acceptInTx t db accounts offerId driverId trip = .ok (db', out)) : RideRows c db db' :=
  AcceptRule.acceptInTx
    { refl := fun _ ↦ .refl
      trans := fun _ _ _ h h' ↦ h.trans h'
      offers := fun _ _ ↦ .of_eq rfl
      guards := fun _ _ ↦ .of_eq rfl
      claim := fun _ _ _ _ h _ ↦ rideRows_claimRow hc h } h

theorem rideRows_create {params : Rides.CreateRide} {r : Rides.CreatedRide}
    (h : Rides.create t db params = .ok (db', r)) (hc : c.creates params) : RideRows c db db' := by
  obtain rfl | ⟨message, hfree, -, rfl⟩ := Rides.create_eq_ok h
  · exact .refl
  · exact .insert hfree rfl hc

theorem rideRows_claimSolo {driverId : DriverId} {r : Option Ride}
    (hc : c.claims (.solo rideId) driverId) (h : Rides.claimSolo t db rideId driverId = .ok (db', r)) : RideRows c db db' := by
  obtain rfl | ⟨ride, db₁, db₂, u, -, -, h₁, h₂, rfl⟩ := Rides.claimSolo_eq_ok h
  · exact .refl
  have hguard : db₁.rides = db.rides := by
    rcases acquire_eq_ok h₁ with ⟨-, rfl⟩ | ⟨-, -, rfl⟩ <;> rfl
  have hclaim : RideRows c db₁ db₂ := rideRows_claimSoloRow hc h₂
  exact (RideRows.of_eq hguard).trans (hclaim.trans (.of_eq rfl))

theorem rideRows_markNoDriver {generation : Option ℕ} :
    RideRows c db (Rides.markNoDriver t db rideId generation).1 := by
  rcases Rides.markNoDriver_cases t db rideId generation with h | ⟨r, _, hr, hfree, h⟩ <;> rw [h]
  · exact .refl
  obtain ⟨hs, hd⟩ := not_or.mp hfree
  exact .update (fun _ ↦ rfl) (fun _ ↦ rfl) hr (fun _ hp ↦ hp)
    fun _ ↦ .noDriver (not_not.mp hs) (by simpa using hd)

theorem rideRows_rearmScheduledRide {expected : Option ℕ} :
    RideRows c db (Scheduled.rearmScheduledRide t db rideId expected).1 := by
  rcases Scheduled.rearmScheduledRide_cases t db rideId expected with h | ⟨r, hr, hre, -, h⟩ <;>
    rw [h]
  · exact .refl
  · exact .update (fun _ ↦ rfl) (fun _ ↦ rfl) hr (fun _ hp ↦ hp.1) fun _ ↦ .window _ hre.type hre.status

theorem rideRows_wakeScheduled {g : ℕ} : RideRows c db (Scheduled.wakeScheduled db rideId g).1 := by
  cases hr : db.rides.get rideId with
  | none =>
    refine .of_eq ?_
    unfold Scheduled.wakeScheduled
    dsimp only
    rw [Table.update_eq_self]
    exact fun r hr' hp ↦ Table.get_eq_none.mp hr r hr' hp.1
  | some r =>
    exact .update (fun _ ↦ rfl) (fun _ ↦ rfl) hr (fun _ hp ↦ hp.1) fun hp ↦ .window _ hp.2.1 hp.2.2.1

theorem rideRows_transition {dateNow : Time} {driverId : DriverId} {event : Rides.RideEvent} :
    RideRows c db (Rides.transition db dateNow rideId driverId (Rides.transitions event).source
      (Rides.transitions event).target).1 := by
  rcases Rides.transition_cases db dateNow rideId driverId (Rides.transitions event).source
    (Rides.transitions event).target with h | ⟨r, hr, hd, hs, ⟨-, h⟩ | ⟨-, h⟩⟩ <;> rw [h]
  · exact .refl
  · exact .update (fun _ ↦ rfl) (by simp) hr (fun _ hp ↦ hp)
      fun _ ↦ .advanced event dateNow driverId hd hs
  · exact .update (fun _ ↦ rfl) (by simp) hr (fun _ hp ↦ hp)
      fun _ ↦ .advanced event dateNow driverId hd hs

/-- Only who owns the ride cancels it. -/
theorem Rides.owns_of_cancel {dateNow : Time} {params : Rides.CancelRide} {r : Ride}
    (hr : db.rides.get params.rideId = some r) (h : (Rides.cancel t db dateNow params).1 ≠ db) :
    Rides.Owns params r := by
  by_contra hno
  refine h ?_
  unfold Rides.cancel
  rw [hr]
  dsimp only
  rw [if_pos hno]

theorem rideRows_cancel {dateNow : Time} {params : Rides.CancelRide} (hc : c.cancels params) :
    RideRows c db (Rides.cancel t db dateNow params).1 := by
  rcases Rides.cancel_cases t db dateNow params with h | ⟨r, target, db₁, hr, ht, h₁, h⟩
  · rw [h]
    exact .refl
  by_cases hne : (Rides.cancel t db dateNow params).1 = db
  · rw [hne]
    exact .refl
  have howns := Rides.owns_of_cancel hr hne
  have hrow : RideRows c db db₁ := by
    rw [h₁]
    exact .update (fun _ ↦ rfl) (fun _ ↦ rfl) hr (fun _ hp ↦ hp)
      fun _ ↦ .cancelled params dateNow target hc howns ht
  rw [h]
  cases r.driverId with
  | none => exact hrow
  | some driverId => exact hrow.trans (.of_eq rfl)

variable {D : Type u} [LinearOrder D] (dist : Point → Point → D)

/-- Every transaction. -/
theorem rideRows_exec {e : Step} (h : e.Calls c) : RideRows c db (exec dist db e) := by
  cases e with
  | createRide t params => exact Tx.commit_of (fun _ _ h' ↦ rideRows_create h' h) .refl
  | createOffer t newId locked p =>
      exact Tx.commit_of (fun _ _ h ↦ .of_kept (ridesKept_createOffer h)) .refl
  | acceptInTx t accounts offerId driverId trip =>
      exact Tx.commit_of (fun _ _ h' ↦ rideRows_acceptInTx h h') .refl
  | decline t offerId driverId => exact .of_kept ridesKept_decline
  | expireLapsed t locked => exact .of_eq rfl
  | claimSolo t rideId driverId =>
      exact Tx.commit_of (fun _ _ h' ↦ rideRows_claimSolo h h') .refl
  | transition dateNow rideId driverId event => exact rideRows_transition
  | cancel t dateNow params => exact rideRows_cancel h
  | markNoDriver t rideId generation => exact rideRows_markNoDriver
  | rearmScheduledRide t rideId expectedGeneration => exact rideRows_rearmScheduledRide
  | wakeScheduled rideId generation => exact rideRows_wakeScheduled
  | openPool t p => exact Tx.commit_of (fun _ _ h ↦ .of_kept (ridesKept_openPool h)) .refl
  | joinPool t p => exact Tx.commit_of (fun _ _ h ↦ .of_kept (ridesKept_joinPool h)) .refl
  | closeIfOpen t poolId => exact Tx.commit_of (fun _ _ h ↦ .of_kept (ridesKept_closeIfOpen h)) .refl
  | hardFailPool t poolId generation => exact .of_kept ridesKept_hardFailPool
  | confirmStop t input => exact Tx.commit_of (fun _ _ h ↦ .of_kept (ridesKept_confirmStop h)) .refl

end Transactions

end Rcab
