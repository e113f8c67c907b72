import Rcab.Outbox.Jobs
import Rcab.Pools.Membership
import Rcab.Realtime.Order

/-!
# Every change of a pool is announced

A step that changes the row of a pool is followed by a publication of that pool, which does not
skip the state the row is in (`announced_exec`): the lifecycle skips the states it never leads
to, and an open pool has a member, so it never retires one.
-/

universe u

namespace Rcab.Realtime

open Dispatch Matching

/-- Of the pools' rows at most this one changes, and a change keeps its state in `P`. -/
structure Edits (P : PoolState → Prop) (poolId : PoolId) (db db' : Db) : Prop where
  others : ∀ id, id ≠ poolId → db'.sharedRides.get id = db.sharedRides.get id
  state : (∀ s, db.sharedRides.get poolId = some s → P s.poolState) →
    ∀ s, db'.sharedRides.get poolId = some s → P s.poolState

/-- Every pool whose row changed has a publication that will emit it. -/
def Announced (publications : List PoolPublication) (db db' : Db) : Prop :=
  ∀ id, db'.sharedRides.get id = db.sharedRides.get id ∨
    ∃ p ∈ publications, p.poolId = id ∧
      ∀ row, db'.sharedRides.get id = some row → p.Emits row.poolState

variable {P : PoolState → Prop} {poolId : PoolId} {t : TxClock} {db db' db'' : Db}
  {publications : List PoolPublication}

namespace Edits

theorem of_eq (h : db'.sharedRides = db.sharedRides) : Edits P poolId db db' :=
  ⟨fun _ _ ↦ by rw [h], fun hs ↦ by rwa [h]⟩

theorem refl : Edits P poolId db db := .of_eq rfl

theorem trans (h : Edits P poolId db db') (h' : Edits P poolId db' db'') :
    Edits P poolId db db'' :=
  ⟨fun id hne ↦ (h'.others id hne).trans (h.others id hne), fun hs ↦ h'.state (h.state hs)⟩

theorem updatePool (now : Time) {f : SharedRide → SharedRide} (hf : ∀ s, (f s).rideId = s.rideId)
    (h : ∀ s, db.sharedRides.get poolId = some s → P s.poolState → P (f s).poolState) :
    Edits P poolId db (db.updatePool now poolId f hf) where
  others id hne := Table.get_update_key (fun s ↦ by simp [hf]) (fun _ hs ↦ hs) hne
  state hs s hs' := by
    cases hrow : db.sharedRides.get poolId with
    | none =>
        rw [Db.updatePool, Table.get_update, hrow] at hs'
        cases hs'
    | some s₀ =>
        rw [Db.get_sharedRides_updatePool hrow] at hs'
        obtain rfl := Option.some.inj hs'
        exact h s₀ hrow (hs s₀ hrow)

theorem insertPool {row : SharedRide} (hfree : db.sharedRides.get row.rideId = none)
    (h : P row.poolState) :
    Edits P row.rideId db { db with sharedRides := db.sharedRides.insert row } where
  others id hne := by
    show (db.sharedRides.insert row).get id = _
    rw [Table.get_insert hfree, if_neg hne]
  state _ s hs := by
    have hs : (db.sharedRides.insert row).get row.rideId = some s := hs
    rw [Table.get_insert hfree, if_pos rfl] at hs
    exact Option.some.inj hs ▸ h

end Edits

namespace Announced

theorem of_eq (h : db'.sharedRides = db.sharedRides) : Announced publications db db' :=
  fun _ ↦ Or.inl (by rw [h])

/-- The lifecycle publishes a pool that is in a state it does not skip. -/
theorem lifecycle (h : Edits Emitted poolId db db')
    (hs : ∀ s, db.sharedRides.get poolId = some s → Emitted s.poolState) :
    Announced [⟨.lifecycle, poolId⟩] db db' := by
  intro id
  by_cases hid : id = poolId
  · exact Or.inr ⟨_, List.mem_singleton_self _, hid.symm, fun row hrow ↦ h.state hs row (hid ▸ hrow)⟩
  · exact Or.inl (h.others id hid)

/-- The snapshot service publishes any pool. -/
theorem snapshots (h : Edits (fun _ ↦ True) poolId db db') :
    Announced [⟨.snapshots, poolId⟩] db db' := by
  intro id
  by_cases hid : id = poolId
  · exact Or.inr ⟨_, List.mem_singleton_self _, hid.symm, fun _ _ ↦ trivial⟩
  · exact Or.inl (h.others id hid)

end Announced

/-- A transaction that commits is announced by what it returned. -/
theorem announced_commit {α : Type} {x : Tx α} {f : α → List PoolPublication}
    (h : ∀ db' a, x = .ok (db', a) → Announced (f a) db db') :
    Announced (x.result?.toList.flatMap f) db (x.commit db) := by
  rcases x with e | ⟨db', a⟩
  · exact .of_eq rfl
  · have := h db' a rfl
    simpa [Tx.result?] using this

/-! ## The lifecycle -/

theorem edits_insertMember {m : NewPoolMember} {r : InsertMemberResult}
    (h : insertMember t db m = .ok (db', r)) : Edits P m.poolId db db' := by
  rcases insertMember_eq_ok h with ⟨-, rfl⟩ | ⟨pool, -, -, -, -, -, -, rfl⟩
  · exact .refl
  have hmember : Edits P m.poolId db
      { db with poolMember := db.poolMember.insert (m.row t.now) } := .of_eq rfl
  exact hmember.trans (.updatePool t.now SharedRide.seatOne_rideId fun s _ hs ↦ by simpa using hs)

section Lifecycle

variable {D : Type u} [LinearOrder D] {dist : Point → Point → D}

theorem edits_closeInTxn {pool : SharedRide} {reason : CloseReason} {g : Option ℕ}
    (h : closeInTxn dist t db pool reason = .ok (db', g)) : Edits Emitted pool.rideId db db' := by
  rcases closeInTxn_cases h with ⟨rfl, -, -⟩ | ⟨s, _, u, db₁, -, -, -, rfl, h₁, rfl⟩
  · exact .refl
  obtain ⟨rideStops, rfl⟩ := insertItinerary_eq_ok h₁
  have hclose : Edits Emitted pool.rideId db (db.updatePool t.now pool.rideId
      (SharedRide.close reason.state t.now) (SharedRide.close_rideId reason.state t.now)) := by
    refine .updatePool t.now (SharedRide.close_rideId reason.state t.now) fun _ _ _ ↦ ?_
    cases reason
    · exact Or.inr (Or.inl rfl)
    · exact Or.inr (Or.inr rfl)
  exact hclose.trans (.of_eq rfl)

theorem announced_openPool {p : OpenPoolParams} {r : OpenPoolResult}
    (h : openPool dist t db p = .ok (db', r)) : Announced (r.publications p.poolId) db db' := by
  rcases openPool_cases h with
    ⟨⟨_, rfl⟩, rfl⟩ | ⟨db₁, at_, quote, db₂, n, outcome, h₁, h₂, -, rfl, rfl⟩
  · exact .of_eq rfl
  obtain ⟨row, hid, ho, -, -, -, -, -, hfree, rfl⟩ := insertOpenPool_eq_ok h₁
  have hid : row.rideId = p.poolId := hid
  have hopen : Edits Emitted p.poolId db { db with sharedRides := db.sharedRides.insert row } :=
    hid ▸ .insertPool hfree (Or.inl ho)
  refine .lifecycle ((hopen.trans (edits_insertMember h₂)).trans
    (.of_eq sharedRides_completeSeat)) fun s hs ↦ ?_
  rw [← hid, hfree] at hs
  cases hs

theorem announced_joinPool {p : JoinPoolParams} {r : JoinPoolResult}
    (h : joinPool dist t db p = .ok (db', r)) : Announced (r.publications p.poolId) db db' := by
  rcases joinPool_cases h with ⟨⟨_, _, rfl⟩, rfl⟩ |
    ⟨pool, quote, db₁, n, db₂, closedFull, _, hpool, ho, -, h₁, h₂, rfl, -, rfl⟩
  · exact .of_eq rfl
  have hid : pool.rideId = p.poolId := Table.key_of_get hpool
  have hclose : Edits Emitted p.poolId db₁ db₂ := by
    rcases closeWhenFull_cases h₂ with ⟨-, rfl, -⟩ | ⟨-, g, h₃, -⟩
    · exact .refl
    · exact hid ▸ edits_closeInTxn h₃
  refine .lifecycle (((edits_insertMember h₁).trans hclose).trans
    (.of_eq sharedRides_completeSeat)) fun s hs ↦ ?_
  obtain rfl := Option.some.inj (hs.symm.trans hpool)
  exact Or.inl ho

/-- An open pool has a member, so a timeout closes it. -/
theorem announced_closeIfOpen (hi : PoolsInv db) {r : CloseIfOpenResult}
    (h : closeIfOpen dist t db poolId = .ok (db', r)) :
    Announced (r.publications poolId) db db' := by
  obtain ⟨rfl, rfl⟩ | ⟨pool, hget, ho, ⟨hc, -, -⟩ | ⟨-, g, h₁, rfl⟩⟩ := closeIfOpen_eq_ok h
  · exact .of_eq rfl
  · have hseats := ((hi.pool poolId).seats pool hget).2
    omega
  · have hid : pool.rideId = poolId := Table.key_of_get hget
    cases g with
    | some g =>
      refine .lifecycle (hid ▸ edits_closeInTxn h₁) fun s hs ↦ ?_
      obtain rfl := Option.some.inj (hs.symm.trans hget)
      exact Or.inl ho
    | none =>
      -- The pool is open under the lock, so it was closed.
      rcases closeInTxn_cases h₁ with ⟨-, -, hclosed⟩ | ⟨_, _, _, _, -, -, hg, -, -, -⟩
      · exact absurd ho (hclosed pool (hid ▸ hget))
      · cases hg

end Lifecycle

/-! ## The claim, the hard-fail and the stops -/

theorem edits_claimRow {trip : TripRef} {driverId : DriverId} {g : ℕ} {u : Unit}
    (h : claimRow t db trip driverId g = .ok (db', u)) :
    Edits (fun _ ↦ True) trip.id db db' ∧
      ((∃ rideId, trip = .solo rideId) → db'.sharedRides = db.sharedRides) := by
  cases trip with
  | solo rideId =>
      simp only [claimRow, claimSoloRow] at h
      split_ifs at h
      obtain ⟨rfl, -⟩ := Tx.ok_inj h
      exact ⟨.of_eq rfl, fun _ ↦ rfl⟩
  | shared poolId =>
      simp only [claimRow, claimSharedRow] at h
      split_ifs at h
      obtain ⟨rfl, -⟩ := Tx.ok_inj h
      refine ⟨.updatePool t.now (SharedRide.claim_rideId driverId t.now) fun _ _ _ ↦ trivial, ?_⟩
      rintro ⟨_, ht⟩
      cases ht

theorem announced_acceptInTx {accounts : Accounts} {offerId : OfferId} {driverId : DriverId}
    {trip : TripRef} {out : AcceptOutcome}
    (h : acceptInTx t db accounts offerId driverId trip = .ok (db', out)) :
    Announced out.result.publications db db' := by
  have hedits : Edits (fun _ ↦ True) trip.id db db' ∧
      ((∃ rideId, trip = .solo rideId) → db'.sharedRides = db.sharedRides) :=
    AcceptRule.acceptInTx (R := fun db db' ↦ Edits (fun _ ↦ True) trip.id db db' ∧
      ((∃ rideId, trip = .solo rideId) → db'.sharedRides = db.sharedRides))
      { refl := fun _ ↦ ⟨.refl, fun _ ↦ rfl⟩
        trans := fun _ _ _ h h' ↦ ⟨h.1.trans h'.1, fun ht ↦ (h'.2 ht).trans (h.2 ht)⟩
        offers := fun _ _ ↦ ⟨.of_eq rfl, fun _ ↦ rfl⟩
        guards := fun _ _ ↦ ⟨.of_eq rfl, fun _ ↦ rfl⟩
        claim := fun _ _ _ _ h _ ↦ edits_claimRow h } h
  cases acceptInTx_eq_ok h with
  | refused reason => exact .of_eq rfl
  | replayed o ho hd ha => exact .of_eq rfl
  | resolved o ho hd hl target ht reason => exact .of_eq rfl
  | bound o _ revoked ho hd hl hp hg hm hu =>
      cases trip with
      | solo rideId => exact .of_eq (hedits.2 ⟨rideId, rfl⟩)
      | shared poolId => exact .snapshots hedits.1

theorem announced_hardFailPool {generation : Option ℕ} {r : Option (List RevokedOffer)}
    (h : hardFailPool t db poolId generation = (db', r)) :
    Announced (hardFailPublications poolId r) db db' := by
  rcases hardFailPool_cases t db poolId generation with hcase | ⟨s, -, -, hcase⟩ <;>
    rw [hcase] at h <;> obtain ⟨rfl, rfl⟩ := Prod.mk.inj h
  · exact .of_eq rfl
  · exact .snapshots ((Edits.updatePool t.now SharedRide.abort_rideId fun _ _ _ ↦ trivial).trans
      (.of_eq rfl))

section Confirm

open RideLifecycle

theorem edits_confirmPending {input : StopConfirmInput} {stops : List RideStop}
    {r : StopConfirmResult} (h : confirmPending t db input stops = .ok (db', r)) :
    Edits (fun _ ↦ True) input.rideId db db' := by
  refine ConfirmRule.confirmPending
    { refl := fun _ ↦ .refl
      trans := fun _ _ _ h₁ h₂ ↦ h₁.trans h₂
      stamp := fun db db' sequenceIndex s h ↦ ?_
      start := fun _ _ ↦ .updatePool t.now SharedRide.start_rideId fun _ _ _ ↦ trivial
      complete := fun _ ↦ .updatePool t.now (SharedRide.complete_rideId t.now) fun _ _ _ ↦ trivial
      guards := fun _ _ ↦ .of_eq rfl
      touch := fun _ ↦ .updatePool t.now (fun _ ↦ rfl) fun _ _ _ ↦ trivial } h
  obtain ⟨rideStops, rfl⟩ := confirm_eq h
  exact .of_eq rfl

theorem announced_confirmStop {input : StopConfirmInput} {r : StopConfirmResult}
    (h : confirmStop t db input = .ok (db', r)) :
    Announced (r.publications input.rideId) db db' := by
  rcases confirmStop_cases h with rfl | ⟨-, -, -, h⟩
  · exact .of_eq rfl
  · have hedits := edits_confirmPending h
    obtain ⟨_, _, _, _, _, _, _, -, -, -, -, -, rfl⟩ := confirmPending_cases h
    exact .snapshots hedits

end Confirm

/-! ## The rides' transactions -/

section Rides

variable {rideId : RideId}

theorem sharedRides_create {params : Rides.CreateRide} {r : Rides.CreatedRide}
    (h : Rides.create t db params = .ok (db', r)) : db'.sharedRides = db.sharedRides := by
  unfold Rides.create at h
  split at h
  · obtain ⟨rfl, -⟩ := Tx.ok_inj h
    rfl
  split_ifs at h
  split at h
  · cases h
  · obtain ⟨rfl, -⟩ := Tx.ok_inj h
    rfl

theorem sharedRides_createOffer {newId : OfferId} {locked : List OfferId} {p : CreateOffer}
    {r : Option CreatedOffer} (h : createOffer t db newId locked p = .ok (db', r)) :
    db'.sharedRides = db.sharedRides := by
  rw [createOffer_eq h]

theorem sharedRides_decline {offerId : OfferId} {driverId : DriverId} :
    (decline t db offerId driverId).1.sharedRides = db.sharedRides := by
  rw [decline_eq]

theorem sharedRides_claimSolo {driverId : DriverId} {r : Option Ride}
    (h : Rides.claimSolo t db rideId driverId = .ok (db', r)) :
    db'.sharedRides = db.sharedRides := by
  obtain rfl | ⟨ride, db₁, db₂, u, -, -, h₁, h₂, rfl⟩ := Rides.claimSolo_eq_ok h
  · rfl
  have hguard : db₁.sharedRides = db.sharedRides := by
    rcases acquire_eq_ok h₁ with ⟨-, rfl⟩ | ⟨-, -, rfl⟩ <;> rfl
  have hclaim : claimRow t db₁ (.solo rideId) driverId _ = .ok (db₂, u) := h₂
  exact ((edits_claimRow hclaim).2 ⟨rideId, rfl⟩).trans hguard

theorem sharedRides_transition {dateNow : Time} {driverId : DriverId} {source target : RideStatus} :
    (Rides.transition db dateNow rideId driverId source target).1.sharedRides = db.sharedRides := by
  rcases Rides.transition_cases db dateNow rideId driverId source target with
    h | ⟨_, -, -, -, ⟨-, h⟩ | ⟨-, h⟩⟩ <;> rw [h]
  rfl

theorem sharedRides_cancel {dateNow : Time} {params : Rides.CancelRide} :
    (Rides.cancel t db dateNow params).1.sharedRides = db.sharedRides := by
  rcases Rides.cancel_cases t db dateNow params with h | ⟨current, _, _, -, -, rfl, h⟩ <;> rw [h]
  cases current.driverId <;> rfl

theorem sharedRides_markNoDriver {generation : Option ℕ} :
    (Rides.markNoDriver t db rideId generation).1.sharedRides = db.sharedRides := by
  rcases Rides.markNoDriver_cases t db rideId generation with h | ⟨_, _, -, -, h⟩ <;> rw [h]
  rfl

theorem sharedRides_rearmScheduledRide {expectedGeneration : Option ℕ} :
    (Scheduled.rearmScheduledRide t db rideId expectedGeneration).1.sharedRides =
      db.sharedRides := by
  rcases Scheduled.rearmScheduledRide_cases t db rideId expectedGeneration with
    h | ⟨_, -, -, -, h⟩ <;> rw [h]
  rfl

end Rides

section Exec

variable {D : Type u} [LinearOrder D] (dist : Point → Point → D)

/-- **Every change is announced**. -/
theorem announced_exec (hi : PoolsInv db) (e : Step) :
    Announced (e.publications dist db) db (exec dist db e) := by
  cases e with
  | createRide t params => exact .of_eq (Tx.commit_of (fun _ _ h ↦ sharedRides_create h) rfl)
  | createOffer t newId locked p =>
      exact .of_eq (Tx.commit_of (fun _ _ h ↦ sharedRides_createOffer h) rfl)
  | acceptInTx t accounts offerId driverId trip =>
      exact announced_commit fun _ _ h ↦ announced_acceptInTx h
  | decline t offerId driverId => exact .of_eq sharedRides_decline
  | expireLapsed t locked => exact .of_eq rfl
  | claimSolo t rideId driverId =>
      exact .of_eq (Tx.commit_of (fun _ _ h ↦ sharedRides_claimSolo h) rfl)
  | transition dateNow rideId driverId event => exact .of_eq sharedRides_transition
  | cancel t dateNow params => exact .of_eq sharedRides_cancel
  | markNoDriver t rideId generation => exact .of_eq sharedRides_markNoDriver
  | rearmScheduledRide t rideId expectedGeneration =>
      exact .of_eq sharedRides_rearmScheduledRide
  | wakeScheduled rideId generation => exact .of_eq rfl
  | openPool t p => exact announced_commit fun _ _ h ↦ announced_openPool h
  | joinPool t p => exact announced_commit fun _ _ h ↦ announced_joinPool h
  | closeIfOpen t poolId => exact announced_commit fun _ _ h ↦ announced_closeIfOpen hi h
  | hardFailPool t poolId generation => exact announced_hardFailPool rfl
  | confirmStop t input => exact announced_commit fun _ _ h ↦ announced_confirmStop h

end Exec

end Rcab.Realtime
