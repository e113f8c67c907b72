import Rcab.Pools.Dispatched

/-!
# The route of a pool

What an itinerary is computed from, and the stops persisted: the pool's anchor, who rides from
where to where, and the plan of the stops.  Opening, joining and closing pools are the transactions
that change a route (`routesKept_exec`).
-/

universe u

namespace Rcab

open Dispatch Matching RideLifecycle

/-- The rows of a pool that say where it goes. -/
structure Route where
  origin : Option Point
  members : List SharedRideMember
  stops : List OfferStop

def PoolMember.rider (m : PoolMember) : SharedRideMember := (memberFromDb m).undated

def PoolView.route (v : PoolView) : Route where
  origin := v.row.map SharedRide.origin
  members := v.members.map PoolMember.rider
  stops := v.stops.map RideStop.plan

def Db.route (db : Db) (id : PoolId) : Route := (db.poolView id).route

/-- Every pool goes where it went. -/
def RoutesKept (db db' : Db) : Prop := ∀ id, db'.route id = db.route id

namespace RoutesKept

variable {db db' db'' : Db}

theorem refl : RoutesKept db db := fun _ ↦ rfl

theorem trans (h : RoutesKept db db') (h' : RoutesKept db' db'') : RoutesKept db db'' :=
  fun id ↦ (h' id).trans (h id)

/-- A transaction that leaves the three tables alone. -/
theorem of_eq (hs : db'.sharedRides = db.sharedRides) (hm : db'.poolMember = db.poolMember)
    (hr : db'.rideStops = db.rideStops) : RoutesKept db db' := by
  intro id
  simp only [Db.route, PoolView.route, Db.poolView, hs, hm, hr]

end RoutesKept

variable {t : TxClock} {db db' : Db} {poolId : PoolId} {rideId : RideId} {now : Time}
  {f : SharedRide → SharedRide}

/-! ## Updates -/

/-- Releasing a member leaves it the same rider. -/
theorem riders_updatePool (hf : ∀ s, (f s).rideId = s.rideId) (id : PoolId) :
    ((db.updatePool now poolId f hf).poolView id).members.map PoolMember.rider =
      (db.poolView id).members.map PoolMember.rider := by
  have hrows : ((db.updatePool now poolId f hf).poolView id).members =
      (db.poolView id).members.map fun m ↦ if db.Releases poolId f m then m.release now else m :=
    Table.filter_update (PoolMember.release_pkey now) fun _ _ _ ↦ Iff.rfl
  rw [hrows, List.map_map]
  refine List.map_congr_left fun m _ ↦ ?_
  simp only [Function.comp_apply]
  split_ifs <;> rfl

/-- An update of a pool that leaves its anchor. -/
theorem routesKept_updatePool (hf : ∀ s, (f s).rideId = s.rideId)
    (ho : ∀ s, (f s).origin = s.origin) : RoutesKept db (db.updatePool now poolId f hf) := by
  intro id
  have horigin : ((db.updatePool now poolId f hf).sharedRides.get id).map SharedRide.origin =
      (db.sharedRides.get id).map SharedRide.origin := by
    simp only [Db.updatePool, Table.get_update, Option.map_map]
    congr 1
    funext s
    simp only [Function.comp_apply]
    split_ifs
    · exact ho s
    · rfl
  exact congrArg₂ (fun origin members ↦ Route.mk origin members _) horigin (riders_updatePool hf id)

/-- The stamp of a stop leaves its plan. -/
theorem routesKept_confirm {i : ℕ} {s : Option RideStop}
    (h : confirm t db poolId i = (db', s)) : RoutesKept db db' := by
  unfold confirm at h
  split at h
  · obtain ⟨rfl, -⟩ := Prod.mk.inj h
    exact .refl
  · obtain ⟨rfl, -⟩ := Prod.mk.inj h
    intro id
    have hrows := stops_confirm t db poolId i id
    have hplan : ((db.rideStops.update (fun x ↦ x.pkey = (poolId, i))
        fun x ↦ { x with confirmedAt := some t.now }).filter (fun x ↦ x.rideId = id)).map
          RideStop.plan = (db.poolView id).stops.map RideStop.plan := by
      rw [hrows]
      split_ifs
      · exact stamp_plan i t.now _
      · rfl
    exact congrArg (Route.mk _ _) hplan

/-! ## The transactions that bind, end or confirm -/

theorem routesKept_claimRow {trip : TripRef} {driverId : DriverId} {generation : ℕ} {u : Unit}
    (h : claimRow t db trip driverId generation = .ok (db', u)) : RoutesKept db db' := by
  cases trip with
  | solo rideId =>
      simp only [claimRow, claimSoloRow] at h
      split_ifs at h
      obtain ⟨rfl, -⟩ := Tx.ok_inj h
      exact .of_eq rfl rfl rfl
  | shared poolId =>
      simp only [claimRow, claimSharedRow] at h
      split_ifs at h
      obtain ⟨rfl, -⟩ := Tx.ok_inj h
      exact routesKept_updatePool _ fun _ ↦ rfl

theorem routesKept_acceptInTx {accounts : Accounts} {offerId : OfferId} {driverId : DriverId}
    {trip : TripRef} {out : AcceptOutcome}
    (h : acceptInTx t db accounts offerId driverId trip = .ok (db', out)) : RoutesKept db db' :=
  AcceptRule.acceptInTx
    { refl := fun _ ↦ .refl
      trans := fun _ _ _ h h' ↦ h.trans h'
      offers := fun _ _ ↦ .of_eq rfl rfl rfl
      guards := fun _ _ ↦ .of_eq rfl rfl rfl
      claim := fun _ _ _ _ h _ ↦ routesKept_claimRow h } h

theorem routesKept_claimSolo {driverId : DriverId} {r : Option Ride}
    (h : Rides.claimSolo t db rideId driverId = .ok (db', r)) : RoutesKept db db' := by
  obtain rfl | ⟨ride, db₁, db₂, u, -, -, h₁, h₂, rfl⟩ := Rides.claimSolo_eq_ok h
  · exact .refl
  have hguard : RoutesKept db db₁ := by
    rcases acquire_eq_ok h₁ with ⟨-, rfl⟩ | ⟨-, -, rfl⟩
    · exact .refl
    · exact .of_eq rfl rfl rfl
  have hclaim := routesKept_claimRow (show claimRow t _ (.solo rideId) _ _ = _ from h₂)
  exact (hguard.trans hclaim).trans (.of_eq rfl rfl rfl)

theorem routesKept_hardFailPool {generation : Option ℕ} :
    RoutesKept db (hardFailPool t db poolId generation).1 := by
  rcases hardFailPool_cases t db poolId generation with h | ⟨s, -, -, h⟩ <;> rw [h]
  · exact .refl
  · exact (routesKept_updatePool SharedRide.abort_rideId fun _ ↦ rfl).trans (.of_eq rfl rfl rfl)

theorem routesKept_confirmStop {input : StopConfirmInput} {r : StopConfirmResult}
    (h : confirmStop t db input = .ok (db', r)) : RoutesKept db db' := by
  exact ConfirmRule.confirmStop
    { refl := fun _ ↦ .refl
      trans := fun _ _ _ h₁ h₂ ↦ h₁.trans h₂
      stamp := fun _ _ _ _ h ↦ routesKept_confirm h
      start := fun _ _ ↦ routesKept_updatePool SharedRide.start_rideId fun _ ↦ rfl
      complete := fun _ ↦ routesKept_updatePool (SharedRide.complete_rideId t.now) fun _ ↦ rfl
      guards := fun _ _ ↦ .of_eq rfl rfl rfl
      touch := fun _ ↦ routesKept_updatePool _ fun _ ↦ rfl } h

/-! ## The transactions on rides and offers -/

theorem routesKept_create {params : Rides.CreateRide} {r : Rides.CreatedRide}
    (h : Rides.create t db params = .ok (db', r)) : RoutesKept db db' := by
  obtain rfl | ⟨m, -, -, rfl⟩ := Rides.create_eq_ok h
  · exact .refl
  · exact .of_eq rfl rfl rfl

theorem routesKept_createOffer {newId : OfferId} {locked : List OfferId} {p : CreateOffer}
    {r : Option CreatedOffer} (h : createOffer t db newId locked p = .ok (db', r)) :
    RoutesKept db db' := by
  rw [createOffer_eq h]
  exact .of_eq rfl rfl rfl

theorem routesKept_decline {offerId : OfferId} {driverId : DriverId} :
    RoutesKept db (decline t db offerId driverId).1 := by
  rw [decline_eq]
  exact .of_eq rfl rfl rfl

theorem routesKept_markNoDriver {generation : Option ℕ} :
    RoutesKept db (Rides.markNoDriver t db rideId generation).1 := by
  rcases Rides.markNoDriver_cases t db rideId generation with h | ⟨_, _, -, -, h⟩ <;> rw [h]
  · exact .refl
  · exact .of_eq rfl rfl rfl

theorem routesKept_rearmScheduledRide {expectedGeneration : Option ℕ} :
    RoutesKept db (Scheduled.rearmScheduledRide t db rideId expectedGeneration).1 := by
  rcases Scheduled.rearmScheduledRide_cases t db rideId expectedGeneration with
    h | ⟨_, -, -, -, h⟩ <;> rw [h]
  · exact .refl
  · exact .of_eq rfl rfl rfl

theorem routesKept_transition {dateNow : Time} {driverId : DriverId} {source target : RideStatus} :
    RoutesKept db (Rides.transition db dateNow rideId driverId source target).1 := by
  rcases Rides.transition_cases db dateNow rideId driverId source target with
    h | ⟨_, -, -, -, ⟨-, h⟩ | ⟨-, h⟩⟩ <;> rw [h]
  · exact .refl
  · exact .of_eq rfl rfl rfl
  · exact .of_eq rfl rfl rfl

theorem routesKept_cancel {dateNow : Time} {params : Rides.CancelRide} :
    RoutesKept db (Rides.cancel t db dateNow params).1 := by
  rcases Rides.cancel_cases t db dateNow params with h | ⟨current, _, _, -, -, rfl, h⟩ <;> rw [h]
  · exact .refl
  · cases current.driverId <;> exact .of_eq rfl rfl rfl

/-- The step is none of the three that change a route. -/
def Step.KeepsRoutes : Step → Prop
  | .openPool _ _ | .joinPool _ _ | .closeIfOpen _ _ => False
  | _ => True

variable {D : Type u} [LinearOrder D] (dist : Point → Point → D)

theorem routesKept_exec {e : Step} (he : e.KeepsRoutes) : RoutesKept db (exec dist db e) := by
  cases e with
  | createRide t params => exact Tx.commit_of (fun _ _ h ↦ routesKept_create h) .refl
  | createOffer t newId locked p => exact Tx.commit_of (fun _ _ h ↦ routesKept_createOffer h) .refl
  | acceptInTx t accounts offerId driverId trip =>
      exact Tx.commit_of (fun _ _ h ↦ routesKept_acceptInTx h) .refl
  | decline t offerId driverId => exact routesKept_decline
  | expireLapsed t locked => exact .of_eq rfl rfl rfl
  | claimSolo t rideId driverId => exact Tx.commit_of (fun _ _ h ↦ routesKept_claimSolo h) .refl
  | transition dateNow rideId driverId event => exact routesKept_transition
  | cancel t dateNow params => exact routesKept_cancel
  | markNoDriver t rideId generation => exact routesKept_markNoDriver
  | rearmScheduledRide t rideId expectedGeneration => exact routesKept_rearmScheduledRide
  | wakeScheduled rideId generation => exact .of_eq rfl rfl rfl
  | openPool t p => exact he.elim
  | joinPool t p => exact he.elim
  | closeIfOpen t poolId => exact he.elim
  | hardFailPool t poolId generation => exact routesKept_hardFailPool
  | confirmStop t input => exact Tx.commit_of (fun _ _ h ↦ routesKept_confirmStop h) .refl

end Rcab
