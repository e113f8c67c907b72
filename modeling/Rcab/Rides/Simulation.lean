import Rcab.Pools.Confirm
import Rcab.Rides.Refine

/-!
# Runs of the trips are runs of the ride machine

The transactions on offers and pools leave the rides and their intents alone, so every
transaction takes every ride through steps of its machine (`rideSim_exec`).
-/

universe u

namespace Rcab

open Dispatch Matching RideLifecycle

variable {wakes : ℕ → Prop} {t : TxClock} {db db' : Db} {poolId : PoolId}

/-! ## The offers' transactions -/

theorem ridesKept_createOffer {newId : OfferId} {locked : List OfferId} {p : CreateOffer}
    {r : Option CreatedOffer} (h : createOffer t db newId locked p = .ok (db', r)) :
    RidesKept db db' := by
  rw [createOffer_eq h]
  exact fun _ ↦ rfl

theorem ridesKept_decline {offerId : OfferId} {driverId : DriverId} :
    RidesKept db (decline t db offerId driverId).1 := by
  rw [decline_eq]
  exact fun _ ↦ rfl

theorem ridesKept_hardFailPool {generation : Option ℕ} :
    RidesKept db (hardFailPool t db poolId generation).1 := by
  rcases hardFailPool_cases t db poolId generation with h | ⟨s, -, -, h⟩ <;> rw [h]
  · exact .refl
  · exact fun _ ↦ rfl

/-! ## The pools' transactions -/

theorem ridesKept_insertMember {m : NewPoolMember} {r : InsertMemberResult}
    (h : insertMember t db m = .ok (db', r)) : RidesKept db db' := by
  rcases insertMember_eq_ok h with ⟨-, rfl⟩ | ⟨_, _, _, _, _, _, _, rfl⟩
  · exact .refl
  · exact fun _ ↦ rfl

theorem ridesKept_completeSeat {dateNow : Time} {i : Option SeatIdempotency} {o : SeatOutcome} :
    RidesKept db (completeSeat dateNow db i o) := by
  cases i <;> exact fun _ ↦ rfl

section Close

variable {D : Type u} [LinearOrder D] {dist : Point → Point → D}

theorem ridesKept_openPool {p : OpenPoolParams} {r : OpenPoolResult}
    (h : openPool dist t db p = .ok (db', r)) : RidesKept db db' := by
  rcases openPool_cases h with ⟨-, rfl⟩ | ⟨db₁, at_, quote, db₂, n, outcome, h₁, h₂, -, -, rfl⟩
  · exact .refl
  obtain ⟨row, -, -, -, -, -, -, -, -, rfl⟩ := insertOpenPool_eq_ok h₁
  have hpool : RidesKept db { db with sharedRides := db.sharedRides.insert row } := fun _ ↦ rfl
  exact ((hpool.trans (ridesKept_insertMember h₂)).trans
    (ridesKept_enqueueOutbox (by simp [Outbox.topicOf]) (by simp [Outbox.topicOf]))).trans
      ridesKept_completeSeat

theorem ridesKept_closeInTxn {pool : SharedRide} {reason : CloseReason} {g : Option ℕ}
    (h : closeInTxn dist t db pool reason = .ok (db', g)) : RidesKept db db' := by
  rcases closeInTxn_cases h with ⟨rfl, -, -⟩ | ⟨s, _, u, db₁, -, -, -, rfl, h₁, rfl⟩
  · exact .refl
  obtain ⟨rideStops, rfl⟩ := insertItinerary_eq_ok h₁
  exact RidesKept.trans (fun _ ↦ rfl)
    (ridesKept_enqueueOutbox (by simp [Outbox.topicOf]) (by simp [Outbox.topicOf]))

theorem ridesKept_joinPool {p : JoinPoolParams} {r : JoinPoolResult}
    (h : joinPool dist t db p = .ok (db', r)) : RidesKept db db' := by
  rcases joinPool_cases h with
    ⟨-, rfl⟩ | ⟨pool, quote, db₁, n, db₂, closedFull, outcome, -, -, -, h₁, h₂, -, -, rfl⟩
  · exact .refl
  have hseat : RidesKept db db₁ := ridesKept_insertMember h₁
  refine RidesKept.trans ?_ ridesKept_completeSeat
  rcases closeWhenFull_cases h₂ with ⟨-, rfl, -⟩ | ⟨-, g, h₃, -⟩
  · exact hseat
  · exact hseat.trans (ridesKept_closeInTxn h₃)

theorem ridesKept_closeIfOpen {r : CloseIfOpenResult}
    (h : closeIfOpen dist t db poolId = .ok (db', r)) : RidesKept db db' := by
  obtain ⟨rfl, -⟩ | ⟨pool, -, -, ⟨-, -, rfl⟩ | ⟨-, g, h₁, -⟩⟩ := closeIfOpen_eq_ok h
  · exact .refl
  · exact fun _ ↦ rfl
  · exact ridesKept_closeInTxn h₁

end Close

theorem ridesKept_confirmStop {input : StopConfirmInput} {r : StopConfirmResult}
    (h : confirmStop t db input = .ok (db', r)) : RidesKept db db' := by
  refine ConfirmRule.confirmStop
    { refl := fun _ ↦ .refl
      trans := fun _ _ _ h₁ h₂ ↦ h₁.trans h₂
      stamp := fun db db' sequenceIndex s h ↦ ?_
      start := fun _ _ _ ↦ rfl
      complete := fun _ _ ↦ rfl
      guards := fun _ _ _ ↦ rfl
      touch := fun _ _ ↦ rfl } h
  obtain ⟨rideStops, rfl⟩ := confirm_eq h
  exact fun _ ↦ rfl

/-! ## Every step -/

/-- The generation a wake carries is one of those in `wakes`. -/
def Step.WakesIn (wakes : ℕ → Prop) : Step → Prop
  | .wakeScheduled _ generation => wakes generation
  | _ => True

variable {D : Type u} [LinearOrder D] (dist : Point → Point → D)

/-- **Simulation**: every step of the system takes every ride through steps of the machine. -/
theorem rideSim_exec (e : Step) (hw : e.WakesIn wakes) : RideSim wakes db (exec dist db e) := by
  cases e with
  | createRide t params => exact Tx.commit_of (fun _ _ h ↦ rideSim_create h) .refl
  | createOffer t newId locked p =>
      exact Tx.commit_of (fun _ _ h ↦ .of_kept (ridesKept_createOffer h)) .refl
  | acceptInTx t accounts offerId driverId trip =>
      exact Tx.commit_of (fun _ _ h ↦ rideSim_acceptInTx h) .refl
  | decline t offerId driverId => exact .of_kept ridesKept_decline
  | expireLapsed t locked => exact .of_kept fun _ ↦ rfl
  | claimSolo t rideId driverId => exact Tx.commit_of (fun _ _ h ↦ rideSim_claimSolo h) .refl
  | transition dateNow rideId driverId event => exact rideSim_transition event
  | cancel t dateNow params => exact rideSim_cancel
  | markNoDriver t rideId generation => exact rideSim_markNoDriver
  | rearmScheduledRide t rideId expectedGeneration => exact rideSim_rearmScheduledRide
  | wakeScheduled rideId generation => exact rideSim_wakeScheduled hw
  | openPool t p => exact Tx.commit_of (fun _ _ h ↦ .of_kept (ridesKept_openPool h)) .refl
  | joinPool t p => exact Tx.commit_of (fun _ _ h ↦ .of_kept (ridesKept_joinPool h)) .refl
  | closeIfOpen t poolId => exact Tx.commit_of (fun _ _ h ↦ .of_kept (ridesKept_closeIfOpen h)) .refl
  | hardFailPool t poolId generation => exact .of_kept ridesKept_hardFailPool
  | confirmStop t input => exact Tx.commit_of (fun _ _ h ↦ .of_kept (ridesKept_confirmStop h)) .refl

end Rcab
