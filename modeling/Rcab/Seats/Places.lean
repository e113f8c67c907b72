import Rcab.Seats.Allocate

/-!
# Where the seats are

The ends and the budget of a pool, and the places of a seat, are written once.  `PlaceStep seat db
db'` says so of one transaction, together with the one seat it may have added: of a join, in the
pool that was asked for, between the places of the joiner; of an open, in a pool between the same
places (`placeStep_exec`).
-/

universe u

namespace Rcab

open Matching Dispatch

/-- The same pool, whatever has become of it. -/
structure SameRoute (s s' : SharedRide) : Prop where
  rideId : s'.rideId = s.rideId
  origin : s'.origin = s.origin
  dest : s'.dest = s.dest
  detourBudgetM : s'.detourBudgetM = s.detourBudgetM

/-- The same passenger in the same pool, from and to the same places. -/
structure SamePlaces (m m' : PoolMember) : Prop where
  poolId : m'.poolId = m.poolId
  passengerId : m'.passengerId = m.passengerId
  origin : m'.origin = m.origin
  dest : m'.dest = m.dest

namespace SameRoute

variable {s s' s'' : SharedRide}

theorem refl : SameRoute s s := ⟨rfl, rfl, rfl, rfl⟩

theorem trans (h : SameRoute s s') (h' : SameRoute s' s'') : SameRoute s s'' where
  rideId := h'.rideId.trans h.rideId
  origin := h'.origin.trans h.origin
  dest := h'.dest.trans h.dest
  detourBudgetM := h'.detourBudgetM.trans h.detourBudgetM

theorem seatOne : SameRoute s s.seatOne := by
  unfold SharedRide.seatOne
  split <;> exact ⟨rfl, rfl, rfl, rfl⟩

end SameRoute

namespace SamePlaces

variable {m m' m'' : PoolMember}

theorem refl : SamePlaces m m := ⟨rfl, rfl, rfl, rfl⟩

theorem trans (h : SamePlaces m m') (h' : SamePlaces m' m'') : SamePlaces m m'' where
  poolId := h'.poolId.trans h.poolId
  passengerId := h'.passengerId.trans h.passengerId
  origin := h'.origin.trans h.origin
  dest := h'.dest.trans h.dest

end SamePlaces

/-- The pools keep their routes and the seats their places, but for one new seat at most. -/
structure PlaceStep (seat : Option PoolMember) (db db' : Db) : Prop where
  pools : ∀ s ∈ db.sharedRides, ∃ s' ∈ db'.sharedRides, SameRoute s s'
  seats : ∀ m' ∈ db'.poolMember,
    (∃ m ∈ db.poolMember, SamePlaces m m') ∨ ∃ m, seat = some m ∧ SamePlaces m m'

variable {db db' db'' : Db} {t : TxClock} {seat : Option PoolMember} {poolId : PoolId}

namespace PlaceStep

theorem of_eq (hs : db'.sharedRides = db.sharedRides) (hm : db'.poolMember = db.poolMember) :
    PlaceStep none db db' where
  pools s h := ⟨s, hs ▸ h, .refl⟩
  seats m h := Or.inl ⟨m, hm ▸ h, .refl⟩

theorem refl : PlaceStep none db db := .of_eq rfl rfl

theorem none_trans (h : PlaceStep none db db') (h' : PlaceStep seat db' db'') :
    PlaceStep seat db db'' where
  pools s hs := by
    obtain ⟨s', hs', e⟩ := h.pools s hs
    obtain ⟨s'', hs'', e'⟩ := h'.pools s' hs'
    exact ⟨s'', hs'', e.trans e'⟩
  seats m'' hm'' := by
    rcases h'.seats m'' hm'' with ⟨m', hm', e'⟩ | hnew
    · rcases h.seats m' hm' with ⟨m, hm, e⟩ | ⟨m, hm, -⟩
      · exact Or.inl ⟨m, hm, e.trans e'⟩
      · cases hm
    · exact Or.inr hnew

theorem trans_none (h : PlaceStep seat db db') (h' : PlaceStep none db' db'') :
    PlaceStep seat db db'' where
  pools s hs := by
    obtain ⟨s', hs', e⟩ := h.pools s hs
    obtain ⟨s'', hs'', e'⟩ := h'.pools s' hs'
    exact ⟨s'', hs'', e.trans e'⟩
  seats m'' hm'' := by
    rcases h'.seats m'' hm'' with ⟨m', hm', e'⟩ | ⟨m, hm, -⟩
    · rcases h.seats m' hm' with ⟨m, hm, e⟩ | ⟨m, hm, e⟩
      · exact Or.inl ⟨m, hm, e.trans e'⟩
      · exact Or.inr ⟨m, hm, e.trans e'⟩
    · cases hm

end PlaceStep

/-! ## The statements -/

theorem placeStep_updatePool {now : Time} {f : SharedRide → SharedRide}
    {hf : ∀ s, (f s).rideId = s.rideId} (h : ∀ s, SameRoute s (f s)) :
    PlaceStep none db (db.updatePool now poolId f hf) where
  pools s hs := by
    refine ⟨_, Db.mem_sharedRides_updatePool.mpr ⟨s, hs, rfl⟩, ?_⟩
    split_ifs
    · exact ⟨(h s).rideId, (h s).origin, (h s).dest, (h s).detourBudgetM⟩
    · exact .refl
  seats m' hm' := by
    obtain ⟨m, hm, rfl⟩ := Db.mem_poolMember_updatePool.mp hm'
    refine Or.inl ⟨m, hm, ?_⟩
    split_ifs <;> exact ⟨rfl, rfl, rfl, rfl⟩

theorem placeStep_insertMember {m : NewPoolMember} {n : ℕ}
    (h : insertMember t db m = .ok (db', .ok n)) :
    PlaceStep (some (m.row t.now)) db db' ∧ ∃ s ∈ db.sharedRides, s.rideId = m.poolId := by
  rcases insertMember_eq_ok h with ⟨⟨_, _, hr⟩, -⟩ | ⟨pool, hpool, -, -, -, hdup, -, rfl⟩
  · cases hr
  have hfree : db.poolMember.get (m.row t.now).pkey = none := (of_duplicateOf hdup).1
  have hins : PlaceStep (some (m.row t.now)) db
      { db with poolMember := db.poolMember.insert (m.row t.now) } :=
    { pools := fun s hs ↦ ⟨s, hs, .refl⟩
      seats := fun m' hm' ↦ by
        rcases (Table.mem_insert hfree).mp hm' with hm' | rfl
        · exact Or.inl ⟨m', hm', .refl⟩
        · exact Or.inr ⟨_, rfl, .refl⟩ }
  exact ⟨hins.trans_none (placeStep_updatePool fun _ ↦ .seatOne), pool, Table.mem_of_get hpool,
    Table.key_of_get hpool⟩

/-- The new pool has the route it was asked for. -/
theorem placeStep_insertOpenPool {p : OpenPoolRow} {at_ : Time}
    (h : insertOpenPool t db p = .ok (db', at_)) :
    PlaceStep none db db' ∧ ∃ s ∈ db'.sharedRides, s.rideId = p.rideId ∧ s.origin = p.origin ∧
      s.dest = p.dest ∧ s.detourBudgetM = p.detourBudgetM := by
  unfold insertOpenPool at h
  split_ifs at h with hused hpos
  obtain ⟨rfl, -⟩ := Tx.ok_inj h
  have hfree : db.sharedRides.get p.rideId = none := by simpa using hused
  refine ⟨⟨fun s hs ↦ ⟨s, (Table.mem_insert hfree).mpr (Or.inl hs), .refl⟩,
    fun m hm ↦ Or.inl ⟨m, hm, .refl⟩⟩, ?_⟩
  exact ⟨_, (Table.mem_insert hfree).mpr (Or.inr rfl), rfl, rfl, rfl, rfl⟩

theorem placeStep_completeSeat {dateNow : Time} {i : Option SeatIdempotency} {o : SeatOutcome} :
    PlaceStep none db (completeSeat dateNow db i o) := by
  cases i with
  | none => exact .refl
  | some i => exact .of_eq rfl rfl

theorem placeStep_enqueueOutbox {m : Outbox.OutboxMessage} :
    PlaceStep none db (Outbox.enqueueOutbox t db m) := .of_eq rfl rfl

theorem placeStep_claimRow {trip : TripRef} {driverId : DriverId} {generation : ℕ} {u : Unit}
    (h : claimRow t db trip driverId generation = .ok (db', u)) : PlaceStep none db db' := by
  cases trip with
  | solo rideId =>
    simp only [claimRow, claimSoloRow] at h
    split_ifs at h
    obtain ⟨rfl, -⟩ := Tx.ok_inj h
    exact .of_eq rfl rfl
  | shared poolId =>
    simp only [claimRow, claimSharedRow] at h
    split_ifs at h
    obtain ⟨rfl, -⟩ := Tx.ok_inj h
    exact placeStep_updatePool fun _ ↦ ⟨rfl, rfl, rfl, rfl⟩

/-! ## The transactions -/

theorem placeStep_acceptInTx {accounts : Accounts} {offerId : OfferId} {driverId : DriverId}
    {trip : TripRef} {out : AcceptOutcome}
    (h : acceptInTx t db accounts offerId driverId trip = .ok (db', out)) : PlaceStep none db db' :=
  AcceptRule.acceptInTx
    { refl := fun _ ↦ .refl
      trans := fun _ _ _ h h' ↦ h.none_trans h'
      offers := fun _ _ ↦ .of_eq rfl rfl
      guards := fun _ _ ↦ .of_eq rfl rfl
      claim := fun _ _ _ _ h _ ↦ placeStep_claimRow h } h

theorem placeStep_hardFailPool {generation : Option ℕ} :
    PlaceStep none db (hardFailPool t db poolId generation).1 := by
  rcases hardFailPool_cases t db poolId generation with h | ⟨s, -, -, h⟩ <;> rw [h]
  · exact .refl
  · have habort : PlaceStep none db (db.updatePool t.now poolId SharedRide.abort
        SharedRide.abort_rideId) := placeStep_updatePool fun _ ↦ ⟨rfl, rfl, rfl, rfl⟩
    exact habort.trans_none (.of_eq rfl rfl)

theorem placeStep_confirmStop {input : RideLifecycle.StopConfirmInput}
    {r : RideLifecycle.StopConfirmResult}
    (h : RideLifecycle.confirmStop t db input = .ok (db', r)) : PlaceStep none db db' := by
  refine ConfirmRule.confirmStop
    { refl := fun _ ↦ .refl
      trans := fun _ _ _ h h' ↦ h.none_trans h'
      stamp := fun db db' sequenceIndex s h ↦ ?_
      start := fun _ _ ↦ placeStep_updatePool fun _ ↦ ⟨rfl, rfl, rfl, rfl⟩
      complete := fun _ ↦ placeStep_updatePool fun _ ↦ ⟨rfl, rfl, rfl, rfl⟩
      guards := fun _ _ ↦ .of_eq rfl rfl
      touch := fun _ ↦ placeStep_updatePool fun _ ↦ .refl } h
  obtain ⟨rideStops, rfl⟩ := confirm_eq h
  exact .of_eq rfl rfl

theorem placeStep_transition {dateNow : Time} {rideId : RideId} {driverId : DriverId}
    {source target : RideStatus} :
    PlaceStep none db (Rides.transition db dateNow rideId driverId source target).1 := by
  rcases Rides.transition_cases db dateNow rideId driverId source target with
    h | ⟨_, -, -, -, ⟨-, h⟩ | ⟨-, h⟩⟩ <;> rw [h]
  all_goals exact .of_eq rfl rfl

section Pools

variable {D : Type u} [LinearOrder D] {dist : Point → Point → D}

theorem placeStep_closeInTxn {pool : SharedRide} {reason : CloseReason} {g : Option ℕ}
    (h : closeInTxn dist t db pool reason = .ok (db', g)) : PlaceStep none db db' := by
  rcases closeInTxn_cases h with ⟨rfl, -, -⟩ | ⟨s, _, u, db₁, -, -, -, rfl, h₁, rfl⟩
  · exact .refl
  obtain ⟨rideStops, rfl⟩ := insertItinerary_eq_ok h₁
  have hclose : PlaceStep none db (db.updatePool t.now pool.rideId
      (SharedRide.close reason.state t.now) (SharedRide.close_rideId reason.state t.now)) :=
    placeStep_updatePool fun _ ↦ ⟨rfl, rfl, rfl, rfl⟩
  exact hclose.trans_none (.of_eq rfl rfl)

theorem placeStep_closeIfOpen {r : CloseIfOpenResult}
    (h : closeIfOpen dist t db poolId = .ok (db', r)) : PlaceStep none db db' := by
  obtain ⟨rfl, -⟩ | ⟨pool, -, -, ⟨-, -, rfl⟩ | ⟨-, g, h₁, -⟩⟩ := closeIfOpen_eq_ok h
  · exact .refl
  · exact placeStep_updatePool fun _ ↦ ⟨rfl, rfl, rfl, rfl⟩
  · exact placeStep_closeInTxn h₁

/-- A join fails, or adds the joiner's seat to the pool it names. -/
theorem placeStep_joinPool {p : JoinPoolParams} {r : JoinPoolResult}
    (h : joinPool dist t db p = .ok (db', r)) :
    db' = db ∨ ∃ m, PlaceStep (some m) db db' ∧ m.poolId = p.poolId ∧ m.origin = p.joiner.origin ∧
      m.dest = p.joiner.dest := by
  rcases joinPool_cases h with ⟨-, rfl⟩ |
    ⟨pool, quote, db₁, n, db₂, closedFull, _, -, -, -, h₁, h₂, -, rfl, rfl⟩
  · exact Or.inl rfl
  have hclose : PlaceStep none db₁ db₂ := by
    rcases closeWhenFull_cases h₂ with ⟨-, rfl, -⟩ | ⟨-, g, h₂, -⟩
    · exact .refl
    · exact placeStep_closeInTxn h₂
  exact Or.inr ⟨_, ((placeStep_insertMember h₁).1.trans_none hclose).trans_none
    placeStep_completeSeat, rfl, rfl, rfl⟩

/-- An open fails, or adds the opener's seat to a pool between the opener's places. -/
theorem placeStep_openPool {p : OpenPoolParams} {r : OpenPoolResult}
    (h : openPool dist t db p = .ok (db', r)) :
    db' = db ∨ ∃ m, PlaceStep (some m) db db' ∧ m.origin = p.origin ∧ m.dest = p.dest ∧
      ∃ s ∈ db'.sharedRides, s.rideId = m.poolId ∧ s.origin = m.origin ∧ s.dest = m.dest := by
  rcases openPool_cases h with ⟨-, rfl⟩ | ⟨db₁, at_, quote, db₂, n, outcome, h₁, h₂, -, -, hdb⟩
  · exact Or.inl rfl
  obtain ⟨hpool, s, hs, hid, ho, hd, -⟩ := placeStep_insertOpenPool h₁
  have hseat := (placeStep_insertMember h₂).1
  have hdone : PlaceStep none db₂ db' := by
    rw [hdb]
    exact placeStep_enqueueOutbox.none_trans placeStep_completeSeat
  obtain ⟨s', hs', e⟩ := (hseat.trans_none hdone).pools s hs
  exact Or.inr ⟨_, hpool.none_trans (hseat.trans_none hdone), rfl, rfl, s', hs',
    e.rideId.trans hid, e.origin.trans ho, e.dest.trans hd⟩

/-- What a transaction does to routes and places: a seat it adds is the joiner's, or the opener's of
a new pool. -/
def PlacedBy (e : Step) (db db' : Db) : Prop :=
  PlaceStep none db db' ∨ ∃ m, PlaceStep (some m) db db' ∧
    ((∃ t p, e = .joinPool t p ∧ m.poolId = p.poolId ∧ m.origin = p.joiner.origin ∧
        m.dest = p.joiner.dest) ∨
      ∃ s ∈ db'.sharedRides, s.rideId = m.poolId ∧ s.origin = m.origin ∧ s.dest = m.dest)

variable (dist) in
theorem placeStep_exec (e : Step) : PlacedBy e db (exec dist db e) := by
  cases e with
  | joinPool t p =>
    refine Tx.commit_of (fun db' r h ↦ ?_) (Or.inl .refl)
    rcases placeStep_joinPool h with rfl | ⟨m, hst, hp, ho, hd⟩
    · exact Or.inl .refl
    · exact Or.inr ⟨m, hst, Or.inl ⟨t, p, rfl, hp, ho, hd⟩⟩
  | openPool t p =>
    refine Tx.commit_of (fun db' r h ↦ ?_) (Or.inl .refl)
    rcases placeStep_openPool h with rfl | ⟨m, hst, -, -, hs⟩
    · exact Or.inl .refl
    · exact Or.inr ⟨m, hst, Or.inr hs⟩
  | createRide t params =>
    refine Or.inl (Tx.commit_of (fun _ _ h ↦ ?_) .refl)
    obtain rfl | ⟨m, -, -, rfl⟩ := Rides.create_eq_ok h
    · exact .refl
    · exact .of_eq rfl rfl
  | createOffer t newId locked p =>
    refine Or.inl (Tx.commit_of (fun _ _ h ↦ ?_) .refl)
    rw [createOffer_eq h]
    exact .of_eq rfl rfl
  | acceptInTx t accounts offerId driverId trip =>
    exact Or.inl (Tx.commit_of (fun _ _ h ↦ placeStep_acceptInTx h) .refl)
  | decline t offerId driverId =>
    left
    rw [exec, decline_eq]
    exact .of_eq rfl rfl
  | expireLapsed t locked => exact Or.inl (.of_eq rfl rfl)
  | claimSolo t rideId driverId =>
    refine Or.inl (Tx.commit_of (fun _ _ h ↦ ?_) .refl)
    obtain rfl | ⟨ride, db₁, db₂, u, -, -, h₁, h₂, rfl⟩ := Rides.claimSolo_eq_ok h
    · exact .refl
    have hguard : PlaceStep none db db₁ := by
      rcases acquire_eq_ok h₁ with ⟨-, rfl⟩ | ⟨-, -, rfl⟩
      · exact .refl
      · exact .of_eq rfl rfl
    exact hguard.none_trans ((placeStep_claimRow
      (show claimRow t _ (.solo rideId) _ _ = _ from h₂)).trans_none (.of_eq rfl rfl))
  | transition dateNow rideId driverId event => exact Or.inl placeStep_transition
  | cancel t dateNow params =>
    left
    rcases Rides.cancel_cases t db dateNow params with h | ⟨current, _, _, -, -, rfl, h⟩ <;>
      rw [exec, h]
    · exact .refl
    · cases current.driverId <;> exact .of_eq rfl rfl
  | markNoDriver t rideId generation =>
    left
    rcases Rides.markNoDriver_cases t db rideId generation with h | ⟨_, _, -, -, h⟩ <;> rw [exec, h]
    all_goals exact .of_eq rfl rfl
  | rearmScheduledRide t rideId expectedGeneration =>
    left
    rcases Scheduled.rearmScheduledRide_cases t db rideId expectedGeneration with
      h | ⟨_, -, -, -, h⟩ <;> rw [exec, h]
    all_goals exact .of_eq rfl rfl
  | wakeScheduled rideId generation => exact Or.inl (.of_eq rfl rfl)
  | closeIfOpen t poolId => exact Or.inl (Tx.commit_of (fun _ _ h ↦ placeStep_closeIfOpen h) .refl)
  | hardFailPool t poolId generation => exact Or.inl placeStep_hardFailPool
  | confirmStop t input => exact Or.inl (Tx.commit_of (fun _ _ h ↦ placeStep_confirmStop h) .refl)

end Pools

end Rcab
