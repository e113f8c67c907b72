import Rcab.Trips.AcceptRule
import Rcab.Trips.ConfirmRule
import Rcab.Trips.Simulation

/-!
# What the trips' transactions do to seats

A seat is never given back: `pool_member` rows keep their pool, passenger, key and agreed
fare for ever, and only `active` moves.  `SeatStep new db db'` says so of one transaction,
together with the one row it may have added; `Quiet db db'` is the case in which it added
none and left the idempotency records alone.

`SeatInv` is what the constraints and triggers of `pool_member` give: one seat for each
passenger and key, an agreed fare on every seat, and a seat that is no longer active is in
a pool that is over.
-/

universe u

namespace Rcab

open Matching

/-- The same seat, perhaps released in between. -/
structure SameSeat (m m' : PoolMember) : Prop where
  poolId : m'.poolId = m.poolId
  passengerId : m'.passengerId = m.passengerId
  idempotencyKey : m'.idempotencyKey = m.idempotencyKey
  agreedFareCents : m'.agreedFareCents = m.agreedFareCents

namespace SameSeat

variable {m m' m'' : PoolMember}

theorem refl : SameSeat m m := ⟨rfl, rfl, rfl, rfl⟩

theorem trans (h : SameSeat m m') (h' : SameSeat m' m'') : SameSeat m m'' where
  poolId := h'.poolId.trans h.poolId
  passengerId := h'.passengerId.trans h.passengerId
  idempotencyKey := h'.idempotencyKey.trans h.idempotencyKey
  agreedFareCents := h'.agreedFareCents.trans h.agreedFareCents

end SameSeat

/-- The seats of a database. -/
structure SeatInv (db : Db) : Prop where
  /-- `pool_member_idempotency_uq`. -/
  key : db.poolMember.UniqueOn (fun m ↦ m.idempotencyKey ≠ none)
    (fun m ↦ (m.passengerId, m.idempotencyKey))
  /-- `pool_member_agreed_fare_required`. -/
  fare : ∀ m ∈ db.poolMember, m.agreedFareCents ≠ none
  /-- A member's pool exists, and is over once the member was released. -/
  pool : ∀ m ∈ db.poolMember, ∃ s ∈ db.sharedRides, s.rideId = m.poolId ∧
    (m.active = false → s.poolState.Terminal)

/-- One transaction, seen from the seats; `new` is the seat it added. -/
structure SeatStep (new : Option PoolMember) (db db' : Db) : Prop where
  kept : ∀ m ∈ db.poolMember, ∃ m' ∈ db'.poolMember, SameSeat m m'
  added : ∀ m, new = some m → ∃ m' ∈ db'.poolMember, SameSeat m m'
  back : ∀ m' ∈ db'.poolMember,
    (∃ m ∈ db.poolMember, SameSeat m m') ∨ ∃ m, new = some m ∧ SameSeat m m'
  inv : SeatInv db → SeatInv db'

/-- A transaction that adds no seat and leaves the records alone. -/
structure Quiet (db db' : Db) : Prop where
  seats : SeatStep none db db'
  records : db'.idempotencyRecord = db.idempotencyRecord

variable {db db' db'' : Db} {t : TxClock} {new : Option PoolMember}

namespace SeatStep

/-- Nothing was added. -/
theorem not_added {P : PoolMember → Prop} (m : PoolMember) (h : none = some m) : P m :=
  absurd h.symm (Option.some_ne_none m)

/-- A transaction that touches neither pools nor members. -/
theorem of_eq (hm : db'.poolMember = db.poolMember) (hs : db'.sharedRides = db.sharedRides) :
    SeatStep none db db' where
  kept m h := ⟨m, hm ▸ h, .refl⟩
  added := not_added
  back m' h := Or.inl ⟨m', hm ▸ h, .refl⟩
  inv h := ⟨hm ▸ h.key, hm ▸ h.fare, hm ▸ hs ▸ h.pool⟩

/-- A seat added, then nothing. -/
theorem trans_none (h : SeatStep new db db') (h' : SeatStep none db' db'') :
    SeatStep new db db'' where
  kept m hm := by
    obtain ⟨m', hm', e⟩ := h.kept m hm
    obtain ⟨m'', hm'', e'⟩ := h'.kept m' hm'
    exact ⟨m'', hm'', e.trans e'⟩
  added m hm := by
    obtain ⟨m', hm', e⟩ := h.added m hm
    obtain ⟨m'', hm'', e'⟩ := h'.kept m' hm'
    exact ⟨m'', hm'', e.trans e'⟩
  back m'' hm'' := by
    rcases h'.back m'' hm'' with ⟨m', hm', e'⟩ | ⟨m, hm, -⟩
    · rcases h.back m' hm' with ⟨m, hm, e⟩ | ⟨m, hm, e⟩
      · exact Or.inl ⟨m, hm, e.trans e'⟩
      · exact Or.inr ⟨m, hm, e.trans e'⟩
    · cases hm
  inv := h'.inv ∘ h.inv

/-- Nothing, then a seat added. -/
theorem none_trans (h : SeatStep none db db') (h' : SeatStep new db' db'') :
    SeatStep new db db'' where
  kept m hm := by
    obtain ⟨m', hm', e⟩ := h.kept m hm
    obtain ⟨m'', hm'', e'⟩ := h'.kept m' hm'
    exact ⟨m'', hm'', e.trans e'⟩
  added := h'.added
  back m'' hm'' := by
    rcases h'.back m'' hm'' with ⟨m', hm', e'⟩ | ⟨m, hm, e'⟩
    · rcases h.back m' hm' with ⟨m, hm, e⟩ | ⟨m, hm, -⟩
      · exact Or.inl ⟨m, hm, e.trans e'⟩
      · cases hm
    · exact Or.inr ⟨m, hm, e'⟩
  inv := h'.inv ∘ h.inv

end SeatStep

namespace Quiet

theorem of_eq (hm : db'.poolMember = db.poolMember) (hs : db'.sharedRides = db.sharedRides)
    (hr : db'.idempotencyRecord = db.idempotencyRecord) : Quiet db db' :=
  ⟨.of_eq hm hs, hr⟩

theorem refl : Quiet db db := .of_eq rfl rfl rfl

theorem trans (h : Quiet db db') (h' : Quiet db' db'') : Quiet db db'' :=
  ⟨h.seats.trans_none h'.seats, h'.records.trans h.records⟩

end Quiet

/-! ## Pool rows -/

/-- An update of a pool that does not reopen one that is over. -/
theorem quiet_updatePool {now : Time} {poolId : PoolId} {f : SharedRide → SharedRide}
    (hf : ∀ s, (f s).rideId = s.rideId)
    (hterm : ∀ s ∈ db.sharedRides, s.rideId = poolId → s.poolState.Terminal →
      (f s).poolState.Terminal) :
    Quiet db (db.updatePool now poolId f hf) := by
  refine ⟨?_, rfl⟩
  -- Rows only lose `active`.
  have row : ∀ m' ∈ (db.updatePool now poolId f hf).poolMember, ∃ m ∈ db.poolMember,
      SameSeat m m' ∧ (m' = m ∨ m.poolId = poolId ∧ db.sharedRides.Any fun s ↦
        s.rideId = poolId ∧ (f s).poolState.Terminal) := by
    intro m' hm'
    obtain ⟨m, hm, rfl⟩ := Db.mem_poolMember_updatePool.mp hm'
    refine ⟨m, hm, ?_⟩
    split_ifs with hrel
    · obtain ⟨hp, -, s, hs, hid, ht, -⟩ := hrel
      exact ⟨⟨rfl, rfl, rfl, rfl⟩, Or.inr ⟨hp, s, hs, hid, ht⟩⟩
    · exact ⟨.refl, Or.inl rfl⟩
  refine ⟨fun m hm ↦ ?_, SeatStep.not_added, fun m' hm' ↦ ?_, fun h ↦ ⟨?_, ?_, ?_⟩⟩
  · refine ⟨_, Db.mem_poolMember_updatePool.mpr ⟨m, hm, rfl⟩, ?_⟩
    split_ifs <;> exact ⟨rfl, rfl, rfl, rfl⟩
  · obtain ⟨m, hm, e, -⟩ := row m' hm'
    exact Or.inl ⟨m, hm, e⟩
  · exact h.key.update (PoolMember.release_pkey now) fun m hm hrel hk ↦ ⟨hk, rfl⟩
  · intro m' hm'
    obtain ⟨m, hm, e, -⟩ := row m' hm'
    exact e.agreedFareCents ▸ h.fare m hm
  · intro m' hm'
    obtain ⟨m, hm, e, hact⟩ := row m' hm'
    obtain ⟨s, hs, hid, hover⟩ := h.pool m hm
    refine ⟨_, Db.mem_sharedRides_updatePool.mpr ⟨s, hs, rfl⟩, ?_, fun hna ↦ ?_⟩
    · rw [e.poolId]
      split_ifs
      · rw [SharedRide.withVersion_rideId, hf, hid]
      · exact hid
    · rcases hact with rfl | ⟨hp, s', hs', hid', ht⟩
      · split_ifs with hk
        · exact hterm s hs hk (hover hna)
        · exact hover hna
      · obtain rfl : s' = s := Table.unique hs' hs (hid'.trans (hid.trans hp).symm)
        rw [if_pos hid']
        exact ht

theorem quiet_insertPool {s : SharedRide} (h : db.sharedRides.get s.rideId = none) :
    Quiet db { db with sharedRides := db.sharedRides.insert s } := by
  refine ⟨⟨fun m hm ↦ ⟨m, hm, .refl⟩, SeatStep.not_added, fun m hm ↦ Or.inl ⟨m, hm, .refl⟩,
    fun hi ↦ ⟨hi.key, hi.fare, fun m hm ↦ ?_⟩⟩, rfl⟩
  obtain ⟨s', hs', hid, hover⟩ := hi.pool m hm
  exact ⟨s', (Table.mem_insert h).mpr (Or.inl hs'), hid, hover⟩

/-- A new member of an open pool, checked against the unique indexes. -/
theorem seatStep_insert {m : NewPoolMember} {pool : SharedRide}
    (hpool : db.sharedRides.get m.poolId = some pool) (hdup : duplicateOf db m = none) :
    SeatStep (some (m.row t.now)) db
      { db with poolMember := db.poolMember.insert (m.row t.now) } := by
  obtain ⟨hfree, hkey, -⟩ := of_duplicateOf hdup
  have hnone : db.poolMember.get (m.row t.now).pkey = none := hfree
  have hmem : ∀ {m'}, m' ∈ db.poolMember.insert (m.row t.now) ↔
      m' ∈ db.poolMember ∨ m' = m.row t.now := Table.mem_insert hnone
  refine ⟨fun m' hm' ↦ ⟨m', hmem.mpr (Or.inl hm'), .refl⟩,
    fun m' hm' ↦ ⟨m', hmem.mpr (Or.inr (Option.some.inj hm').symm), .refl⟩, ?_,
    fun hi ↦ ⟨?_, ?_, ?_⟩⟩
  · intro m' hm'
    rcases hmem.mp hm' with hm' | rfl
    · exact Or.inl ⟨m', hm', .refl⟩
    · exact Or.inr ⟨_, rfl, .refl⟩
  · refine hi.key.insert hnone fun hk hany ↦ ?_
    obtain ⟨r, hr, -, he⟩ := hany
    exact hkey hk r hr (Prod.mk.inj he).1 (Prod.mk.inj he).2
  · intro m' hm'
    rcases hmem.mp hm' with hm' | rfl
    · exact hi.fare m' hm'
    · simp [NewPoolMember.row]
  · intro m' hm'
    rcases hmem.mp hm' with hm' | rfl
    · exact hi.pool m' hm'
    · refine ⟨pool, Table.mem_of_get hpool, Table.key_of_get hpool, fun hna ↦ ?_⟩
      cases hna

/-! ## The transactions -/

section Offers

open Dispatch

theorem quiet_acquire {p : Acquire} {r : AcquireResult} (h : acquire t db p = .ok (db', r)) :
    Quiet db db' := by
  rcases acquire_eq_ok h with ⟨-, rfl⟩ | ⟨-, -, rfl⟩
  · exact .refl
  · exact .of_eq rfl rfl rfl

theorem quiet_claimRow {trip : TripRef} {driverId : DriverId} {generation : ℕ} {u : Unit}
    (h : claimRow t db trip driverId generation = .ok (db', u)) : Quiet db db' := by
  cases trip with
  | solo rideId =>
      simp only [claimRow, claimSoloRow] at h
      split_ifs at h
      obtain ⟨rfl, -⟩ := Tx.ok_inj h
      exact .of_eq rfl rfl rfl
  | shared poolId =>
      simp only [claimRow, claimSharedRow] at h
      split_ifs at h
      obtain ⟨rfl, -⟩ := Tx.ok_inj h
      exact quiet_updatePool _ fun s _ _ hs ↦ hs

theorem quiet_acceptInTx {accounts : Accounts} {offerId : OfferId} {driverId : DriverId}
    {trip : TripRef} {out : AcceptOutcome}
    (h : acceptInTx t db accounts offerId driverId trip = .ok (db', out)) : Quiet db db' :=
  AcceptRule.acceptInTx
    { refl := fun _ ↦ .refl
      trans := fun _ _ _ h h' ↦ h.trans h'
      offers := fun _ _ ↦ .of_eq rfl rfl rfl
      guards := fun _ _ ↦ .of_eq rfl rfl rfl
      claim := fun _ _ _ _ h _ ↦ quiet_claimRow h } h

theorem quiet_createOffer {newId : OfferId} {locked : List OfferId} {p : CreateOffer}
    {r : Option CreatedOffer} (h : createOffer t db newId locked p = .ok (db', r)) :
    Quiet db db' := by
  rw [createOffer_eq h]
  exact .of_eq rfl rfl rfl

theorem quiet_hardFailPool {poolId : PoolId} {generation : Option ℕ} :
    Quiet db (hardFailPool t db poolId generation).1 := by
  rcases hardFailPool_cases t db poolId generation with h | ⟨s, -, -, h⟩ <;> rw [h]
  · exact .refl
  · exact (quiet_updatePool SharedRide.abort_rideId fun s _ _ _ ↦ trivial).trans
      (.of_eq rfl rfl rfl)

theorem quiet_decline {offerId : OfferId} {driverId : DriverId} :
    Quiet db (decline t db offerId driverId).1 := by
  rw [decline_eq]
  exact .of_eq rfl rfl rfl

end Offers

section RidesTx

theorem quiet_create {params : Rides.CreateRide} {r : Rides.CreatedRide}
    (h : Rides.create t db params = .ok (db', r)) : Quiet db db' := by
  obtain rfl | ⟨m, -, -, rfl⟩ := Rides.create_eq_ok h
  · exact .refl
  · exact .of_eq rfl rfl rfl

theorem quiet_claimSolo {rideId : RideId} {driverId : DriverId} {r : Option Ride}
    (h : Rides.claimSolo t db rideId driverId = .ok (db', r)) : Quiet db db' := by
  obtain rfl | ⟨ride, db₁, db₂, u, -, -, h₁, h₂, rfl⟩ := Rides.claimSolo_eq_ok h
  · exact .refl
  have hclaim := quiet_claimRow (show Dispatch.claimRow t _ (.solo rideId) _ _ = _ from h₂)
  exact ((quiet_acquire h₁).trans hclaim).trans (.of_eq rfl rfl rfl)

theorem quiet_transition {dateNow : Time} {rideId : RideId} {driverId : DriverId}
    {source target : RideStatus} :
    Quiet db (Rides.transition db dateNow rideId driverId source target).1 := by
  rcases Rides.transition_cases db dateNow rideId driverId source target with
    h | ⟨_, -, -, -, ⟨-, h⟩ | ⟨-, h⟩⟩ <;> rw [h]
  · exact .refl
  · exact .of_eq rfl rfl rfl
  · exact .of_eq rfl rfl rfl

theorem quiet_cancel {dateNow : Time} {params : Rides.CancelRide} :
    Quiet db (Rides.cancel t db dateNow params).1 := by
  rcases Rides.cancel_cases t db dateNow params with h | ⟨current, _, _, -, -, rfl, h⟩ <;> rw [h]
  · exact .refl
  · cases current.driverId <;> exact .of_eq rfl rfl rfl

theorem quiet_markNoDriver {rideId : RideId} {generation : Option ℕ} :
    Quiet db (Rides.markNoDriver t db rideId generation).1 := by
  rcases Rides.markNoDriver_cases t db rideId generation with h | ⟨_, _, -, -, h⟩ <;> rw [h]
  · exact .refl
  · exact .of_eq rfl rfl rfl

theorem quiet_rearmScheduledRide {rideId : RideId} {expectedGeneration : Option ℕ} :
    Quiet db (Scheduled.rearmScheduledRide t db rideId expectedGeneration).1 := by
  rcases Scheduled.rearmScheduledRide_cases t db rideId expectedGeneration with
    h | ⟨_, -, -, -, h⟩ <;> rw [h]
  · exact .refl
  · exact .of_eq rfl rfl rfl

end RidesTx

section Pools

variable {poolId : PoolId}

theorem quiet_insertOpenPool {p : OpenPoolRow} {at_ : Time}
    (h : insertOpenPool t db p = .ok (db', at_)) : Quiet db db' := by
  obtain ⟨row, -, -, -, -, -, -, -, hfree, rfl⟩ := insertOpenPool_eq_ok h
  exact quiet_insertPool hfree

theorem seatStep_insertMember {m : NewPoolMember} {n : ℕ}
    (h : insertMember t db m = .ok (db', .ok n)) :
    SeatStep (some (m.row t.now)) db db' ∧ db'.idempotencyRecord = db.idempotencyRecord ∧
      (∃ pool, db.sharedRides.get m.poolId = some pool) ∧ duplicateOf db m = none := by
  rcases insertMember_eq_ok h with ⟨⟨_, _, hr⟩, -⟩ | ⟨pool, hpool, -, -, -, hdup, -, rfl⟩
  · cases hr
  · have hseat : Quiet { db with poolMember := db.poolMember.insert (m.row t.now) }
        (Db.updatePool { db with poolMember := db.poolMember.insert (m.row t.now) } t.now m.poolId
          SharedRide.seatOne SharedRide.seatOne_rideId) :=
      quiet_updatePool _ fun s _ _ hs ↦ by simpa using hs
    exact ⟨(seatStep_insert hpool hdup).trans_none hseat.seats, rfl, ⟨pool, hpool⟩, hdup⟩

theorem quiet_insertMember_failed {m : NewPoolMember} {reason : InsertMemberFailure}
    {existing : Option PoolId} (h : insertMember t db m = .ok (db', .failed reason existing)) :
    db' = db := by
  rcases insertMember_eq_ok h with ⟨-, rfl⟩ | ⟨_, _, _, hr, _⟩
  · rfl
  · cases hr

theorem quiet_close {s : SharedRide} {reason : CloseReason}
    (hs : db.sharedRides.get poolId = some s) (ho : s.poolState = .open_) :
    Quiet db (db.updatePool t.now poolId (SharedRide.close reason.state t.now)
      (SharedRide.close_rideId reason.state t.now)) := by
  refine quiet_updatePool (SharedRide.close_rideId reason.state t.now) fun s' hs' hid hover ↦ ?_
  -- The pool was open, so it was not over.
  obtain rfl := Table.unique hs' (Table.mem_of_get hs) (hid.trans (Table.key_of_get hs).symm)
  rw [ho] at hover
  exact hover.elim

end Pools

/-! ## Stop confirmation -/

section Confirm

open RideLifecycle

theorem quiet_confirmStop {input : StopConfirmInput} {r : StopConfirmResult}
    (h : confirmStop t db input = .ok (db', r)) : Quiet db db' := by
  refine ConfirmRule.confirmStop
    { refl := fun _ ↦ .refl
      trans := fun _ _ _ h₁ h₂ ↦ h₁.trans h₂
      stamp := fun db db' sequenceIndex s h ↦ ?_
      start := fun db hany ↦ ?_
      complete := fun _ ↦ quiet_updatePool (SharedRide.complete_rideId t.now) fun _ _ _ _ ↦ trivial
      guards := fun _ _ ↦ .of_eq rfl rfl rfl
      touch := fun _ ↦ quiet_updatePool _ fun _ _ _ hs ↦ hs } h
  · obtain ⟨rideStops, rfl⟩ := confirm_eq h
    exact .of_eq rfl rfl rfl
  · obtain ⟨s, hs, hid, hc⟩ := hany
    refine quiet_updatePool _ fun s' hs' hk ht ↦ ?_
    -- A claimable pool is not over.
    obtain rfl : s' = s := Table.unique hs' hs (hk.trans hid.symm)
    cases hst : s'.poolState <;> rw [hst] at hc ht <;> first | exact ht.elim | exact hc.elim

end Confirm

end Rcab
