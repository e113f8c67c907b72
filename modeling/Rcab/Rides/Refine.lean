import Rcab.Pools.Refine
import Rcab.Rides.Machine
import Rcab.Trips.AcceptRule
import Rcab.Trips.ConfirmRule

/-!
# The rides' transactions as steps of the ride machine

`db.rideView id` is ride `id` as the machine sees it.  A transaction on rides takes its own ride
through at most one step of the machine, and the others through none (`RideSim`).
-/

namespace Rcab

open Dispatch
open Relation (ReflTransGen)

/-- Ride `id`, and nothing else. -/
def Db.rideView (db : Db) (id : RideId) : RideView where
  row := db.rides.get id
  dispatch := {g | (db.outbox.get ⟨.rideDispatchRequested, id, g⟩).isSome}
  wake := {g | (db.outbox.get ⟨.rideWakeSchedule, id, g⟩).isSome}

/-- What a transaction did is within the machine, for every ride. -/
structure RideSim (wakes : ℕ → Prop) (db db' : Db) : Prop where
  steps : ∀ id, ReflTransGen (RideStep wakes) (db.rideView id) (db'.rideView id)

/-- The rides and their intents stay as they are. -/
def RidesKept (db db' : Db) : Prop := ∀ id, db'.rideView id = db.rideView id

namespace RidesKept

variable {db db' db'' : Db}

theorem refl : RidesKept db db := fun _ ↦ rfl

theorem trans (h : RidesKept db db') (h' : RidesKept db' db'') : RidesKept db db'' :=
  fun id ↦ (h' id).trans (h id)

end RidesKept

namespace RideSim

variable {wakes : ℕ → Prop} {db db' db'' : Db}

theorem refl : RideSim wakes db db := ⟨fun _ ↦ .refl⟩

theorem trans (h : RideSim wakes db db') (h' : RideSim wakes db' db'') : RideSim wakes db db'' :=
  ⟨fun id ↦ (h.steps id).trans (h'.steps id)⟩

theorem of_kept (h : RidesKept db db') : RideSim wakes db db' := ⟨fun id ↦ h id ▸ .refl⟩

/-- A transaction that is one step of one ride. -/
theorem of_step (rideId : RideId) (h : RideStep wakes (db.rideView rideId) (db'.rideView rideId))
    (hne : ∀ id, id ≠ rideId → db'.rideView id = db.rideView id) : RideSim wakes db db' := by
  refine ⟨fun id ↦ ?_⟩
  by_cases hid : id = rideId
  · exact hid ▸ .single h
  · exact hne id hid ▸ .refl

/-- What every step of the machine keeps is kept for every ride. -/
theorem keeps {P : RideView → Prop} (h : RideSim wakes db db')
    (hP : ∀ v v', RideStep wakes v v' → P v → P v') (id : RideId) (hi : P (db.rideView id)) :
    P (db'.rideView id) := by
  have : ∀ v, ReflTransGen (RideStep wakes) (db.rideView id) v → P v := by
    intro v hv
    induction hv with
    | refl => exact hi
    | tail _ hst ih => exact hP _ _ hst ih
  exact this _ (h.steps id)

end RideSim

variable {wakes : ℕ → Prop} {t : TxClock} {db db' : Db} {rideId : RideId} {poolId : PoolId}

/-! ## Views -/

section Views

variable {id : RideId} {p : Ride → Prop} [DecidablePred p] {f : Ride → Ride}
  {hf : ∀ r, (f r).id = r.id} {r : Ride}

/-- An update of another ride is not seen. -/
theorem rideView_update_ne (hp : ∀ r, p r → r.id = rideId) (h : id ≠ rideId) :
    ({ db with rides := db.rides.update p f hf } : Db).rideView id = db.rideView id := by
  have hrow : (db.rides.update p f hf).get id = db.rides.get id :=
    Table.get_update_key hf hp h
  simp only [Db.rideView, hrow]

/-- An update of the ride is seen in its row. -/
theorem rideView_update (hr : db.rides.get rideId = some r) (hpr : p r) :
    ({ db with rides := db.rides.update p f hf } : Db).rideView rideId =
      ⟨some (f r), (db.rideView rideId).dispatch, (db.rideView rideId).wake⟩ := by
  have hrow : (db.rides.update p f hf).get rideId = some (f r) := by
    rw [Table.get_update, hr, Option.map_some, if_pos hpr]
  simp only [Db.rideView, hrow]

/-- An update of one ride that is a step of it. -/
theorem rideSim_update (p : Ride → Prop) [DecidablePred p] (f : Ride → Ride)
    (hf : ∀ r, (f r).id = r.id) (hr : db.rides.get rideId = some r)
    (hp : ∀ r, p r → r.id = rideId) (hpr : p r)
    (h : RideStep wakes (db.rideView rideId)
      ⟨some (f r), (db.rideView rideId).dispatch, (db.rideView rideId).wake⟩) :
    RideSim wakes db { db with rides := db.rides.update p f hf } := by
  refine .of_step rideId ?_ fun id hne ↦ rideView_update_ne hp hne
  rw [rideView_update hr hpr]
  exact h

/-- A recorded intent of another trip is not seen. -/
theorem rideView_enqueueOutbox_ne {m : Outbox.OutboxMessage} (h : id ≠ m.aggregateId) :
    (Outbox.enqueueOutbox t db m).rideView id = db.rideView id := by
  simp only [Db.rideView, isSome_enqueueOutbox, h, false_and, and_false, false_or]
  rfl

/-- Nor is an intent of a pool, whatever its id. -/
theorem ridesKept_enqueueOutbox {m : Outbox.OutboxMessage}
    (h : Outbox.topicOf m.payload ≠ .rideDispatchRequested)
    (h' : Outbox.topicOf m.payload ≠ .rideWakeSchedule) :
    RidesKept db (Outbox.enqueueOutbox t db m) := by
  intro id
  simp only [Db.rideView, isSome_enqueueOutbox, h.symm, h'.symm, false_and, false_or]
  rfl

/-- A recorded intent to dispatch the ride. -/
theorem rideView_enqueueDispatch {g : ℕ} {rideId' : RideId} :
    (Outbox.enqueueOutbox t db
      ⟨.ride, id, g, .rideDispatchRequested rideId', none⟩).rideView id =
      ⟨(db.rideView id).row, insert g (db.rideView id).dispatch, (db.rideView id).wake⟩ := by
  simp only [Db.rideView, isSome_enqueueOutbox, Outbox.topicOf, true_and, reduceCtorEq, false_and,
    false_or]
  rfl

/-- A recorded wake. -/
theorem rideView_enqueueWake {g : ℕ} {at_ : Time} :
    (Outbox.enqueueOutbox t db ⟨.ride, id, g, .rideWakeSchedule at_, none⟩).rideView id =
      ⟨(db.rideView id).row, (db.rideView id).dispatch, insert g (db.rideView id).wake⟩ := by
  simp only [Db.rideView, isSome_enqueueOutbox, Outbox.topicOf, true_and, reduceCtorEq, false_and,
    false_or]
  rfl

/-- A new row, seen from itself. -/
theorem rideView_insert (hfree : db.rides.get r.id = none) (id : RideId) :
    ({ db with rides := db.rides.insert r } : Db).rideView id =
      if id = r.id then ⟨some r, (db.rideView id).dispatch, (db.rideView id).wake⟩
      else db.rideView id := by
  simp only [Db.rideView, Table.get_insert hfree]
  split_ifs <;> rfl

end Views

/-! ## Create, claim and give up -/

/-- A new ride is created or booked, with its intent. -/
theorem rideSim_create {params : Rides.CreateRide} {r : Rides.CreatedRide}
    (h : Rides.create t db params = .ok (db', r)) : RideSim wakes db db' := by
  obtain rfl | ⟨m, hfree, hm, rfl⟩ := Rides.create_eq_ok h
  · exact .refl
  have hid : params.row.id = params.newId := rfl
  unfold Rides.CreateRide.intent at hm
  refine .of_step params.newId ?_ fun id hne ↦ ?_
  · split_ifs at hm with ht
    · cases hat : params.scheduledFor with
      | none => simp only [hat, reduceCtorEq] at hm
      | some at_ =>
          simp only [hat, Except.ok.injEq] at hm
          obtain rfl := hm
          rw [rideView_enqueueWake, rideView_insert hfree, if_pos hid.symm]
          refine .booked params.row hfree rfl ht ?_
          show (if params.type = .scheduled then 0 else 1) = 0
          rw [if_pos ht]
    · obtain rfl := Except.ok.inj hm
      rw [rideView_enqueueDispatch, rideView_insert hfree, if_pos hid.symm]
      refine .created params.row hfree rfl ht ?_
      show (if params.type = .scheduled then 0 else 1) = 1
      rw [if_neg ht]
  · have hagg : m.aggregateId = params.newId := by
      split_ifs at hm
      · split at hm
        · cases hm
        · obtain rfl := Except.ok.inj hm
          rfl
      · obtain rfl := Except.ok.inj hm
        rfl
    rw [rideView_enqueueOutbox_ne (hagg ▸ hne), rideView_insert hfree, if_neg (hid ▸ hne)]

/-- A claim that raises the ride's generation to 1 at most. -/
theorem rideSim_claimSoloRow {driverId : DriverId} {g : ℕ} {u : Unit} {r : Ride}
    (hr : db.rides.get rideId = some r)
    (hg : g = r.dispatchGeneration ∨ g = max r.dispatchGeneration 1)
    (h : claimSoloRow t db rideId driverId g = .ok (db', u)) : RideSim wakes db db' := by
  simp only [claimSoloRow] at h
  split_ifs at h with hany
  obtain ⟨rfl, -⟩ := Tx.ok_inj h
  obtain ⟨r', hr', hid, hs, hd⟩ := hany
  obtain rfl : r' = r := by
    rw [← hid, Table.get_of_mem hr'] at hr
    exact Option.some.inj hr
  refine rideSim_update (fun r ↦ r.id = rideId ∧ r.status = .requested ∧ r.driverId = none)
    (fun r ↦ { r with
      status := .accepted
      driverId := some driverId
      acceptedAt := some t.now
      dispatchGeneration := max r.dispatchGeneration g })
    (fun _ ↦ rfl) hr (fun _ h ↦ h.1) ⟨hid, hs, hd⟩ (.moved r' _ hr ?_)
  refine ⟨rfl, rfl, rfl, ?_, ?_⟩
  · show r'.status.Advances .accepted
    rw [hs]
    exact .accepted
  · show max r'.dispatchGeneration g = _ ∨ _ ∧ max r'.dispatchGeneration g = _
    rcases hg with rfl | rfl
    · exact Or.inl (Nat.max_self _)
    · exact Or.inr ⟨hs, by omega⟩

theorem ridesKept_claimSharedRow {driverId : DriverId} {g : ℕ} {u : Unit}
    (h : claimSharedRow t db poolId driverId g = .ok (db', u)) : RidesKept db db' := by
  simp only [claimSharedRow] at h
  split_ifs at h
  obtain ⟨rfl, -⟩ := Tx.ok_inj h
  exact fun _ ↦ rfl

/-- The trip an accept claims is the one it locked, at that generation. -/
theorem rideSim_acceptInTx {accounts : Accounts} {offerId : OfferId} {driverId : DriverId}
    {trip : TripRef} {out : AcceptOutcome}
    (h : acceptInTx t db accounts offerId driverId trip = .ok (db', out)) : RideSim wakes db db' := by
  refine AcceptRule.acceptInTx
    { refl := fun _ ↦ .refl
      trans := fun _ _ _ h h' ↦ h.trans h'
      offers := fun _ _ ↦ .of_kept fun _ ↦ rfl
      guards := fun _ _ ↦ .of_kept fun _ ↦ rfl
      claim := ?_ } h
  rintro db db' generation u h ⟨locked, hlock, hg⟩
  cases trip with
  | solo rideId =>
      obtain ⟨r, hr, rfl⟩ := Option.map_eq_some_iff.mp (Option.mem_def.mp hlock)
      exact rideSim_claimSoloRow hr (Or.inl hg.symm) h
  | shared poolId => exact .of_kept (ridesKept_claimSharedRow h)

theorem rideSim_claimSolo {driverId : DriverId} {r : Option Ride}
    (h : Rides.claimSolo t db rideId driverId = .ok (db', r)) : RideSim wakes db db' := by
  obtain rfl | ⟨ride, db₁, db₂, u, hride, -, h₁, h₂, rfl⟩ := Rides.claimSolo_eq_ok h
  · exact .refl
  have hguard : RidesKept db db₁ ∧ db₁.rides = db.rides := by
    rcases acquire_eq_ok h₁ with ⟨-, rfl⟩ | ⟨-, -, rfl⟩
    · exact ⟨.refl, rfl⟩
    · exact ⟨fun _ ↦ rfl, rfl⟩
  have hr : db₁.rides.get rideId = some ride := by rw [hguard.2]; exact hride
  have hclaim : RideSim wakes db₁ db₂ := rideSim_claimSoloRow hr (Or.inr rfl) h₂
  exact (RideSim.of_kept hguard.1).trans (hclaim.trans (.of_kept fun _ ↦ rfl))

theorem rideSim_markNoDriver {generation : Option ℕ} :
    RideSim wakes db (Rides.markNoDriver t db rideId generation).1 := by
  rcases Rides.markNoDriver_cases t db rideId generation with h | ⟨ride, _, hr, hc, h⟩ <;> rw [h]
  · exact .refl
  have hs : ride.status = .requested := by
    by_contra hne
    exact hc (Or.inl hne)
  have hst : RideSim wakes db { db with
      rides := db.rides.update (fun r ↦ r.id = rideId) fun r ↦ { r with status := .noDriver } } :=
    rideSim_update (fun r ↦ r.id = rideId) (fun r ↦ { r with status := .noDriver }) (fun _ ↦ rfl) hr
      (fun _ h ↦ h) (Table.key_of_get hr)
      (.moved ride _ hr ⟨rfl, rfl, rfl, by rw [hs]; exact .noDriver, Or.inl rfl⟩)
  exact hst.trans (.of_kept fun _ ↦ rfl)

/-! ## Scheduled rides -/

/-- A re-armed ride: the next generation, with its intent. -/
theorem rideView_rearmed {r : Ride} (hr : db.rides.get rideId = some r) :
    (Scheduled.rearmed t db rideId r.dispatchGeneration).rideView rideId =
      ⟨some { r with dispatchGeneration := r.dispatchGeneration + 1 },
        insert (r.dispatchGeneration + 1) (db.rideView rideId).dispatch,
        (db.rideView rideId).wake⟩ := by
  unfold Scheduled.rearmed
  rw [rideView_enqueueDispatch]
  have hrow := Scheduled.get_rearmed (t := t) hr
  simp only [Db.rideView, Scheduled.rearmed_rides] at hrow ⊢
  rw [← hrow]
  rfl

theorem rideView_rearmed_ne {g : ℕ} {id : RideId} (h : id ≠ rideId) :
    (Scheduled.rearmed t db rideId g).rideView id = db.rideView id := by
  unfold Scheduled.rearmed
  rw [rideView_enqueueOutbox_ne h]
  have hrow := Scheduled.get_rearmed_ne t db g h
  simp only [Db.rideView, Scheduled.rearmed_rides] at hrow ⊢
  rw [← hrow]
  rfl

/-- A re-arm opens the next window with its intent, or does nothing. -/
theorem rideSim_rearmScheduledRide {expectedGeneration : Option ℕ} :
    RideSim wakes db (Scheduled.rearmScheduledRide t db rideId expectedGeneration).1 := by
  rcases Scheduled.rearmScheduledRide_cases t db rideId expectedGeneration with
    h | ⟨r, hr, hret, -, h⟩
  · rw [h]
    exact .refl
  rw [h]
  refine .of_step rideId ?_ fun id hne ↦ rideView_rearmed_ne hne
  rw [rideView_rearmed hr]
  exact .rearmed r hr hret

theorem rideSim_wakeScheduled {generation : ℕ} (hw : wakes generation) :
    RideSim wakes db (Scheduled.wakeScheduled db rideId generation).1 := by
  by_cases hany : ∃ r ∈ db.rides, Scheduled.Wakeable rideId generation r
  · obtain ⟨r, hmem, hr⟩ := hany
    have hget : db.rides.get rideId = some r := hr.1 ▸ Table.get_of_mem hmem
    exact rideSim_update (Scheduled.Wakeable rideId generation)
      (fun r ↦ { r with dispatchGeneration := generation }) (fun _ ↦ rfl) hget (fun _ h ↦ h.1) hr
      (.woken r generation hget hr.2.2.1 hr.2.1 hr.2.2.2 hw)
  · have hsame : (Scheduled.wakeScheduled db rideId generation).1 = db := by
      simp only [Scheduled.wakeScheduled, Table.update_eq_self fun r hr hw ↦ hany ⟨r, hr, hw⟩]
    rw [hsame]
    exact .refl

/-! ## The forward lifecycle and cancellation -/

theorem Rides.transitions_advances (event : Rides.RideEvent) :
    (Rides.transitions event).source.Advances (Rides.transitions event).target := by
  cases event
  · exact .enRoute
  · exact .arrived
  · exact .inProgress
  · exact .completed

/-- A transition writes the status and an instant. -/
theorem Rides.advance_moves (dateNow : Time) {target : RideStatus} {r : Ride}
    (h : r.status.Advances target) : r.Moves (Rides.advance dateNow target r) := by
  refine ⟨by simp, ?_, ?_, by simpa using h, Or.inl ?_⟩ <;> cases target <;> rfl

theorem rideSim_transition {dateNow : Time} {driverId : DriverId} (event : Rides.RideEvent) :
    RideSim wakes db (Rides.transition db dateNow rideId driverId (Rides.transitions event).source
      (Rides.transitions event).target).1 := by
  have hadv := Rides.transitions_advances event
  generalize (Rides.transitions event).source = source at *
  generalize (Rides.transitions event).target = target at *
  rcases Rides.transition_cases db dateNow rideId driverId source target with
    h | ⟨current, hr, -, hs, hcase⟩
  · rw [h]
    exact .refl
  have hst : RideSim wakes db { db with
      rides := db.rides.update (fun r ↦ r.id = rideId) (Rides.advance dateNow target)
        (by simp) } :=
    rideSim_update (fun r ↦ r.id = rideId) (Rides.advance dateNow target) (by simp) hr
      (fun _ h ↦ h) (Table.key_of_get hr)
      (.moved current _ hr (Rides.advance_moves dateNow (by rwa [hs])))
  rcases hcase with ⟨-, h⟩ | ⟨-, h⟩ <;> rw [h]
  · exact hst.trans (.of_kept fun _ ↦ rfl)
  · exact hst

/-- A cancellation advances the status: it is allowed only where the table has it. -/
theorem Rides.cancelTarget_advances {params : Rides.CancelRide} {dateNow : Time} {current : Ride}
    {target : RideStatus} (h : Rides.cancelTarget params dateNow current = .ok target) :
    current.status.Advances target := by
  unfold Rides.cancelTarget at h
  split_ifs at h with hno hs hc
  · split at h
    · cases h
    · split_ifs at h
      rw [not_not.mp hs, ← Except.ok.inj h]
      exact .noShow
  · rw [← Except.ok.inj h]
    refine .cancelled ?_
    cases ha : params.actor with
    | driver => rwa [ha] at hc
    | client =>
        rw [ha] at hc
        cases hs : current.status <;> rw [hs] at hc <;> first | exact hc | exact hc.elim

theorem rideSim_cancel {dateNow : Time} {params : Rides.CancelRide} :
    RideSim wakes db (Rides.cancel t db dateNow params).1 := by
  rcases Rides.cancel_cases t db dateNow params with h | ⟨current, target, _, hr, htarget, rfl, h⟩ <;>
    rw [h]
  · exact .refl
  have hst : RideSim wakes db { db with
      rides := db.rides.update (fun r ↦ r.id = params.rideId) fun r ↦
        { r with
          status := target
          cancelledAt := some dateNow
          cancelledBy := some params.actor
          cancelReason := params.reason } } := by
    refine rideSim_update (fun r ↦ r.id = params.rideId) (fun r ↦
        { r with
          status := target
          cancelledAt := some dateNow
          cancelledBy := some params.actor
          cancelReason := params.reason }) (fun _ ↦ rfl) hr (fun _ h ↦ h)
      (Table.key_of_get hr) (.moved current _ hr ⟨rfl, rfl, rfl, ?_, Or.inl rfl⟩)
    exact Rides.cancelTarget_advances htarget
  cases current.driverId <;> exact hst.trans (.of_kept fun _ ↦ rfl)

end Rcab
