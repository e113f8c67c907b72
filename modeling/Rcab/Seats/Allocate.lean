import Rcab.Seats.Frame

/-!
# Seat transactions

What `joinPool` and `openPool` commit: nothing, or one seat together with the completion
of its idempotency record.  A keyed request that runs into its own key is told the pool of
the seat that key produced.  Every other transaction of the system is quiet.
-/

universe u

namespace Rcab

open Matching

variable {db db' : Db} {t : TxClock} {poolId : PoolId}

/-! ## Duplicates of a keyed request -/

section Duplicate

variable {m : NewPoolMember} {k : String}

/-- The seat a key produced for a passenger. -/
def SeatOf (db : Db) (passengerId : PassengerId) (k : String) (m : PoolMember) : Prop :=
  m ∈ db.poolMember ∧ m.passengerId = passengerId ∧ m.idempotencyKey = some k

/-- A keyed duplicate of its own key is told the pool of that key's seat. -/
theorem classifyDuplicate_replay {c : Constraint} {existing : Option PoolId}
    (hkey : m.idempotencyKey = some k) (hk : k ≠ "") (hdup : duplicateOf db m = some c)
    (h : classifyDuplicate db m c = .failed .idempotentReplay existing) :
    ∃ m', SeatOf db m.passengerId k m' ∧ existing = some m'.poolId := by
  have hkeyed : keyed m.idempotencyKey = true := by simp [keyed, hkey, hk]
  unfold classifyDuplicate at h
  simp only [hkeyed, ↓reduceIte] at h
  split at h
  · rename_i byKey hfind
    simp only [InsertMemberResult.failed.injEq, true_and] at h
    have hmem : byKey ∈ duplicateRows db m := List.mem_of_find?_eq_some hfind
    have hk' : byKey.idempotencyKey = m.idempotencyKey := by simpa using List.find?_some hfind
    obtain ⟨hmem, hp, -⟩ := Table.mem_filter.mp hmem
    exact ⟨byKey, ⟨hmem, hp, hk'.trans hkey⟩, h.symm⟩
  · rename_i hnone
    split at h
    · cases h
    · split at h
      · cases h
      · split at h
        · -- The index was violated, so the row is among those read.
          rename_i hc
          subst hc
          unfold duplicateOf at hdup
          split at hdup
          · cases hdup
          split at hdup
          · rename_i hkey'
            obtain ⟨-, r, hr, hp, hrk⟩ := hkey'
            have hrow : r ∈ duplicateRows db m :=
              Table.mem_filter.mpr ⟨hr, hp, Or.inr (Or.inr ⟨by simp [hkey], hrk⟩)⟩
            have hno := List.find?_eq_none.mp hnone r hrow
            simp [hrk] at hno
          split at hdup <;> cases hdup
        · split at h <;> cases h

/-- A keyed duplicate is handed the same pool back only when its seat there was released. -/
theorem classifyDuplicate_alreadyMember {c : Constraint} {existing : Option PoolId}
    (hkey : m.idempotencyKey = some k) (hk : k ≠ "")
    (h : classifyDuplicate db m c = .failed .alreadyMember existing) :
    ∃ r ∈ db.poolMember, r.poolId = m.poolId ∧ r.active = false := by
  have hkeyed : keyed m.idempotencyKey = true := by simp [keyed, hkey, hk]
  unfold classifyDuplicate at h
  simp only [hkeyed, ↓reduceIte, not_true_eq_false, false_or, and_false] at h
  split at h
  · cases h
  · split at h
    · rename_i hany
      obtain ⟨r, hr, hact⟩ := (Option.any_eq_true _ _).mp hany
      have hmem := List.mem_of_find?_eq_some hr
      have hpool := List.find?_some hr
      exact ⟨r, (Table.mem_filter.mp hmem).1, by simpa using hpool, by simpa [hkeyed] using hact⟩
    · split at h
      · cases h
      · split at h <;> cases h

/-- A keyed request whose seat was refused as a duplicate. -/
theorem insertMember_duplicate {reason : InsertMemberFailure} {existing : Option PoolId}
    (hi : SeatInv db) (hkey : m.idempotencyKey = some k) (hk : k ≠ "")
    (h : insertMember t db m = .ok (db', .failed reason existing)) :
    reason ≠ .alreadyMember ∧ (reason = .idempotentReplay →
      ∃ m', SeatOf db m.passengerId k m' ∧ existing = some m'.poolId) := by
  unfold insertMember at h
  split at h
  · cases h
  split at h
  · cases h
  split at h
  · obtain ⟨-, h⟩ := Tx.ok_inj h
    obtain ⟨rfl, -⟩ := InsertMemberResult.failed.inj h
    exact ⟨by simp, by simp⟩
  rename_i pool hpool
  split at h
  · obtain ⟨-, h⟩ := Tx.ok_inj h
    obtain ⟨rfl, -⟩ := InsertMemberResult.failed.inj h
    exact ⟨by simp, by simp⟩
  rename_i ho
  split at h
  · rename_i c hc
    obtain ⟨-, h⟩ := Tx.ok_inj h
    refine ⟨?_, ?_⟩
    · -- A released seat is in a pool that is over, and this pool is open.
      rintro rfl
      obtain ⟨r, hr, hp, hna⟩ := classifyDuplicate_alreadyMember hkey hk h
      obtain ⟨s, hs, hid, hover⟩ := hi.pool r hr
      obtain rfl : s = pool :=
        Table.unique hs (Table.mem_of_get hpool) ((hid.trans hp).trans (Table.key_of_get hpool).symm)
      have hterm := hover hna
      rw [not_not.mp ho] at hterm
      exact hterm
    · rintro rfl
      exact classifyDuplicate_replay hkey hk hc h
  · split at h
    · cases h
    · obtain ⟨-, h⟩ := Tx.ok_inj h
      obtain ⟨rfl, -⟩ := InsertMemberResult.failed.inj h
      exact ⟨by simp, by simp⟩

end Duplicate

/-! ## Completion -/

/-- A completion is no business of the seats. -/
theorem seatStep_completeSeat {dateNow : Time} {i : Option SeatIdempotency} {o : SeatOutcome} :
    SeatStep none db (completeSeat dateNow db i o) := by
  cases i with
  | none => exact .of_eq rfl rfl
  | some i => exact .of_eq rfl rfl

/-- It writes the records alone, whatever else changed before. -/
theorem records_completeSeat {dateNow : Time} {i : Option SeatIdempotency} {o : SeatOutcome}
    (h : db'.idempotencyRecord = db.idempotencyRecord) :
    (completeSeat dateNow db' i o).idempotencyRecord =
      (completeSeat dateNow db i o).idempotencyRecord := by
  cases i with
  | none => exact h
  | some i => simp only [completeSeat, Rides.completeIn, h]

/-! ## Joining and opening -/

/-- One commit that seats a passenger and completes the claim it was made under. -/
structure Seats (dateNow : Time) (idempotency : Option SeatIdempotency) (outcome : SeatOutcome)
    (m : PoolMember) (db db' : Db) : Prop where
  poolId : m.poolId = outcome.sharedRideId
  key : m.idempotencyKey = idempotency.map (·.scope.key)
  fare : m.agreedFareCents = some outcome.quote.perSeatPrice.amount
  /-- The key had produced no seat. -/
  fresh : ∀ k, m.idempotencyKey = some k → ∀ m', ¬ SeatOf db m.passengerId k m'
  step : SeatStep (some m) db db'
  records : db'.idempotencyRecord = (completeSeat dateNow db idempotency outcome).idempotencyRecord

theorem duplicateOf_fresh {m : NewPoolMember} (h : duplicateOf db m = none) (k : String)
    (hk : m.idempotencyKey = some k) (m' : PoolMember) : ¬ SeatOf db m.passengerId k m' := by
  rintro ⟨hm, hp, hk'⟩
  exact (of_duplicateOf h).2.1 (by simp [hk]) m' hm hp (hk'.trans hk.symm)

section Pools

variable {D : Type u} [LinearOrder D] {dist : Point → Point → D}

theorem quiet_closeInTxn {pool : SharedRide} {reason : CloseReason} {g : Option ℕ}
    (h : closeInTxn dist t db pool reason = .ok (db', g)) : Quiet db db' := by
  rcases closeInTxn_cases h with ⟨rfl, -, -⟩ | ⟨s, _, u, db₁, hs, ho, -, rfl, h₁, rfl⟩
  · exact .refl
  obtain ⟨rideStops, rfl⟩ := insertItinerary_eq_ok h₁
  exact (quiet_close hs ho).trans (.of_eq rfl rfl rfl)

theorem quiet_closeWhenFull {pool : SharedRide} {n : ℕ} {b : Bool}
    (h : closeWhenFull dist t db pool n = .ok (db', b)) : Quiet db db' := by
  rcases closeWhenFull_cases h with ⟨-, rfl, -⟩ | ⟨-, g, h₁, -⟩
  · exact .refl
  · exact quiet_closeInTxn h₁

theorem quiet_closeIfOpen {poolId : PoolId} {r : CloseIfOpenResult}
    (h : closeIfOpen dist t db poolId = .ok (db', r)) : Quiet db db' := by
  obtain ⟨rfl, -⟩ | ⟨pool, -, -, ⟨-, -, rfl⟩ | ⟨-, g, h₁, -⟩⟩ := closeIfOpen_eq_ok h
  · exact .refl
  · exact quiet_updatePool (SharedRide.retire_rideId t.now) fun s _ _ _ ↦ trivial
  · exact quiet_closeInTxn h₁

/-- The outcome a successful join reports. -/
def joinOutcome (poolId : PoolId) (closedFull : Bool) (seatCount : ℕ) (quote : SeatQuote) :
    SeatOutcome :=
  ⟨poolId, .slotted, if closedFull then .closedFull else .open_, seatCount, quote⟩

/-- A join seats its passenger or does nothing. -/
theorem joinPool_eq_ok {p : JoinPoolParams} {r : JoinPoolResult}
    (h : joinPool dist t db p = .ok (db', r)) :
    (∃ closedFull n quote m, r = .joined closedFull n quote ∧ m.passengerId = p.joiner.passengerId ∧
      Seats p.dateNow p.idempotency (joinOutcome p.poolId closedFull n quote) m db db') ∨
    (∃ reason existing, r = .failed reason existing ∧ db' = db ∧
      ∀ k, p.idempotency.map (·.scope.key) = some k → k ≠ "" → SeatInv db →
        reason ≠ .insert .alreadyMember ∧ (reason = .insert .idempotentReplay →
          ∃ m', SeatOf db p.joiner.passengerId k m' ∧ existing = some m'.poolId)) := by
  unfold joinPool at h
  split at h
  · obtain ⟨rfl, rfl⟩ := Tx.ok_inj h
    exact Or.inr ⟨_, _, rfl, rfl, fun _ _ _ _ ↦ ⟨nofun, nofun⟩⟩
  rename_i pool hpool
  split_ifs at h with ho hc
  · obtain ⟨rfl, rfl⟩ := Tx.ok_inj h
    exact Or.inr ⟨_, _, rfl, rfl, fun _ _ _ _ ↦ ⟨nofun, nofun⟩⟩
  · obtain ⟨rfl, rfl⟩ := Tx.ok_inj h
    exact Or.inr ⟨_, _, rfl, rfl, fun _ _ _ _ ↦ ⟨nofun, nofun⟩⟩
  dsimp only at h
  split at h
  · cases h
  rename_i quote hquote
  obtain ⟨db₁, seat, h₁, h⟩ := Tx.andThen_eq_ok.mp h
  split at h
  · rename_i reason existing
    obtain ⟨rfl, rfl⟩ := Tx.ok_inj h
    obtain rfl := quiet_insertMember_failed h₁
    refine Or.inr ⟨_, _, rfl, rfl, fun k hkey hk hi ↦ ?_⟩
    obtain ⟨hne, hre⟩ := insertMember_duplicate hi hkey hk h₁
    exact ⟨fun he ↦ hne (JoinPoolFailure.insert.inj he),
      fun he ↦ hre (JoinPoolFailure.insert.inj he)⟩
  · rename_i n
    obtain ⟨db₂, closedFull, h₂, h⟩ := Tx.andThen_eq_ok.mp h
    obtain ⟨rfl, rfl⟩ := Tx.ok_inj h
    obtain ⟨hseat, hrec, -, hdup⟩ := seatStep_insertMember h₁
    have hclose := quiet_closeWhenFull h₂
    exact Or.inl ⟨closedFull, n, quote, _, rfl, rfl, rfl, rfl, rfl, duplicateOf_fresh hdup,
      (hseat.trans_none hclose.seats).trans_none seatStep_completeSeat,
      records_completeSeat (hclose.records.trans hrec)⟩

theorem poolMember_insertOpenPool {p : OpenPoolRow} {at_ : Time}
    (h : insertOpenPool t db p = .ok (db', at_)) : db'.poolMember = db.poolMember := by
  obtain ⟨row, -, -, -, -, -, -, -, -, rfl⟩ := insertOpenPool_eq_ok h
  rfl

theorem openPoolInTx_eq_ok {p : OpenPoolParams} {r : OpenPoolResult}
    (h : openPoolInTx dist t db p = .ok (db', r)) :
    (∃ outcome m, r = .opened outcome ∧ m.passengerId = p.passengerId ∧
      Seats p.dateNow p.idempotency outcome m db db') ∨
    (∃ reason, r = .rejected reason ∧
      ∀ k, p.idempotency.map (·.scope.key) = some k → k ≠ "" → SeatInv db →
        ∀ existing, reason = .idempotentReplay existing →
          ∃ m', SeatOf db p.passengerId k m' ∧ existing = some m'.poolId) := by
  unfold openPoolInTx at h
  obtain ⟨db₁, at_, h₁, h⟩ := Tx.andThen_eq_ok.mp h
  have hpool := quiet_insertOpenPool h₁
  -- The new pool adds no seats: a seat found in its transaction was there before.
  have hseats : ∀ {k m'}, SeatOf db₁ p.passengerId k m' ↔ SeatOf db p.passengerId k m' := by
    intro k m'
    rw [SeatOf, SeatOf, poolMember_insertOpenPool h₁]
  dsimp only at h
  split at h
  · cases h
  rename_i quote hquote
  obtain ⟨db₂, seat, h₂, h⟩ := Tx.andThen_eq_ok.mp h
  split at h
  · obtain ⟨rfl, rfl⟩ := Tx.ok_inj h
    exact Or.inr ⟨_, rfl, fun _ _ _ _ _ ↦ nofun⟩
  · rename_i existing
    obtain ⟨rfl, rfl⟩ := Tx.ok_inj h
    refine Or.inr ⟨_, rfl, fun k hkey hk hi existing' he ↦ ?_⟩
    obtain rfl := PoolOpenRejected.idempotentReplay.inj he
    obtain ⟨m', hm', hex⟩ :=
      (insertMember_duplicate (hpool.seats.inv hi) hkey hk h₂).2 rfl
    exact ⟨m', hseats.mp hm', hex⟩
  · cases h
  · rename_i n
    obtain ⟨rfl, rfl⟩ := Tx.ok_inj h
    obtain ⟨hseat, hrec, -, hdup⟩ := seatStep_insertMember h₂
    have hout : Quiet db₂ (Outbox.enqueueOutbox t db₂
      ⟨.sharedRide, p.poolId, 0, .poolExpireSchedule at_, none⟩) := .of_eq rfl rfl rfl
    refine Or.inl ⟨_, _, rfl, rfl, rfl, rfl, rfl, fun k hk m' hm' ↦ ?_,
      ((hpool.seats.none_trans hseat).trans_none hout.seats).trans_none seatStep_completeSeat,
      records_completeSeat (hout.records.trans (hrec.trans hpool.records))⟩
    exact duplicateOf_fresh hdup k hk m' (hseats.mpr hm')

/-- Opening a pool seats its opener or does nothing. -/
theorem openPool_eq_ok {p : OpenPoolParams} {r : OpenPoolResult}
    (h : openPool dist t db p = .ok (db', r)) :
    (∃ outcome m, r = .opened outcome ∧ m.passengerId = p.passengerId ∧
      Seats p.dateNow p.idempotency outcome m db db') ∨
    (∃ reason, r = .rejected reason ∧ db' = db ∧
      ∀ k, p.idempotency.map (·.scope.key) = some k → k ≠ "" → SeatInv db →
        ∀ existing, reason = .idempotentReplay existing →
          ∃ m', SeatOf db p.passengerId k m' ∧ existing = some m'.poolId) := by
  unfold openPool at h
  split at h
  · rename_i db₁ reason h₁
    obtain ⟨rfl, rfl⟩ := Tx.ok_inj h
    rcases openPoolInTx_eq_ok h₁ with ⟨_, _, hr, -⟩ | ⟨_, hr, hre⟩
    · cases hr
    · cases hr
      exact Or.inr ⟨_, rfl, rfl, hre⟩
  · rename_i hnot
    rcases openPoolInTx_eq_ok h with h | ⟨reason, rfl, -⟩
    · exact Or.inl h
    · exact absurd h (hnot db' reason)

/-! ## Any other transaction -/

/-- A step that carries no idempotency key. -/
def Step.Keyless : Step → Prop
  | .openPool _ p => p.idempotency = none
  | .joinPool _ p => p.idempotency = none
  | _ => True

instance : DecidablePred Step.Keyless := fun e ↦ by
  cases e with
  | openPool t p => exact decidable_of_iff (p.idempotency.isNone) Option.isNone_iff_eq_none
  | joinPool t p => exact decidable_of_iff (p.idempotency.isNone) Option.isNone_iff_eq_none
  | _ => exact isTrue trivial

/-- Records untouched, and at most a seat without a key added. -/
def AddsKeyless (db db' : Db) : Prop :=
  ∃ new, SeatStep new db db' ∧ db'.idempotencyRecord = db.idempotencyRecord ∧
    ∀ m, new = some m → m.idempotencyKey = none

theorem Quiet.keyless (h : Quiet db db') : AddsKeyless db db' :=
  ⟨none, h.seats, h.records, SeatStep.not_added⟩

theorem Seats.keyless {dateNow : Time} {outcome : SeatOutcome} {m : PoolMember}
    (h : Seats dateNow none outcome m db db') : AddsKeyless db db' := by
  refine ⟨some m, h.step, h.records, fun m' hm' ↦ ?_⟩
  obtain rfl := Option.some.inj hm'
  exact h.key

variable (dist) in
/-- A step without a key adds at most a seat without one. -/
theorem addsKeyless_exec {e : Step} (he : e.Keyless) : AddsKeyless db (exec dist db e) := by
  cases e with
  | openPool t p =>
      refine Tx.commit_of (fun db' r h ↦ ?_) Quiet.refl.keyless
      rcases openPool_eq_ok h with ⟨outcome, m, -, -, hs⟩ | ⟨reason, -, rfl, -⟩
      · exact Seats.keyless ((show p.idempotency = none from he) ▸ hs)
      · exact Quiet.refl.keyless
  | joinPool t p =>
      refine Tx.commit_of (fun db' r h ↦ ?_) Quiet.refl.keyless
      rcases joinPool_eq_ok h with ⟨_, _, _, m, -, -, hs⟩ | ⟨_, _, -, rfl, -⟩
      · exact Seats.keyless ((show p.idempotency = none from he) ▸ hs)
      · exact Quiet.refl.keyless
  | createRide t params => exact (Tx.commit_of (fun _ _ h ↦ quiet_create h) .refl).keyless
  | createOffer t newId locked p =>
      exact (Tx.commit_of (fun _ _ h ↦ quiet_createOffer h) .refl).keyless
  | acceptInTx t accounts offerId driverId trip =>
      exact (Tx.commit_of (fun _ _ h ↦ quiet_acceptInTx h) .refl).keyless
  | decline t offerId driverId => exact quiet_decline.keyless
  | expireLapsed t locked => exact Quiet.keyless (.of_eq rfl rfl rfl)
  | claimSolo t rideId driverId =>
      exact (Tx.commit_of (fun _ _ h ↦ quiet_claimSolo h) .refl).keyless
  | transition dateNow rideId driverId event => exact quiet_transition.keyless
  | cancel t dateNow params => exact quiet_cancel.keyless
  | markNoDriver t rideId generation => exact quiet_markNoDriver.keyless
  | rearmScheduledRide t rideId expectedGeneration => exact quiet_rearmScheduledRide.keyless
  | wakeScheduled rideId generation => exact Quiet.keyless (.of_eq rfl rfl rfl)
  | closeIfOpen t poolId => exact (Tx.commit_of (fun _ _ h ↦ quiet_closeIfOpen h) .refl).keyless
  | hardFailPool t poolId generation => exact quiet_hardFailPool.keyless
  | confirmStop t input => exact (Tx.commit_of (fun _ _ h ↦ quiet_confirmStop h) .refl).keyless

end Pools

end Rcab
