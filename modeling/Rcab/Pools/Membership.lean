import Rcab.Pools.Simulation

/-!
# Seats are counted, held once, and free of charge changes

What the constraints and triggers of `pool_member` come to over a whole run: every pool
counts its members, a passenger has one active seat over all pools, a member is active
exactly while its pool is not over, the fare of a seat never moves, and a join that fails
leaves everything as it was.
-/

universe u

namespace Rcab

open Dispatch Matching

/-- The pool has a seat of that passenger, at that fare. -/
def PoolView.HasSeat (pkey : PoolId × PassengerId) (fare : Option Int) (v : PoolView) : Prop :=
  ∃ m ∈ v.members, m.pkey = pkey ∧ m.agreedFareCents = fare

/-- A seat released is the same seat. -/
theorem hasSeat_releaseAll {pkey : PoolId × PassengerId} {fare : Option Int} {now : Time}
    {members : List PoolMember} (h : ∃ m ∈ members, m.pkey = pkey ∧ m.agreedFareCents = fare) :
    ∃ m ∈ releaseAll now members, m.pkey = pkey ∧ m.agreedFareCents = fare := by
  obtain ⟨m, hm, hp, hf⟩ := h
  refine ⟨_, List.mem_map_of_mem hm, ?_, ?_⟩ <;> split_ifs <;> first | exact hp | exact hf

/-- A seat is never given up, and its fare never moves. -/
theorem PoolStep.hasSeat {v v' : PoolView} {pkey : PoolId × PassengerId} {fare : Option Int}
    (hst : PoolStep v v') (h : v.HasSeat pkey fare) : v'.HasSeat pkey fare := by
  have happ : ∀ m : PoolMember,
      ∃ x ∈ v.members ++ [m], x.pkey = pkey ∧ x.agreedFareCents = fare := by
    intro m
    obtain ⟨x, hx, hxp⟩ := h
    exact ⟨x, List.mem_append_left _ hx, hxp⟩
  cases hst with
  | idle => exact h
  | opened s m => exact happ m
  | joined s m => exact happ m
  | closed => exact h
  | retired => exact hasSeat_releaseAll h
  | claimed => exact h
  | aborted => exact hasSeat_releaseAll h
  | confirmed => exact h
  | completed => exact hasSeat_releaseAll h

section Runs

variable {D : Type u} [LinearOrder D] {dist : Point → Point → D} {db₀ db db' : Db}
  {tr : List (Db × Step)} {t : TxClock}

/-- The fare of a seat, from any state of a run on. -/
theorem fare_of_run (hi : PoolsInv db) (hr : Run (step dist) db tr db') {m : PoolMember}
    (hm : m ∈ db.poolMember) :
    ∃ m' ∈ db'.poolMember, m'.pkey = m.pkey ∧ m'.agreedFareCents = m.agreedFareCents := by
  have key : PoolsInv db' ∧ (db'.poolView m.poolId).HasSeat m.pkey m.agreedFareCents := by
    refine hr.invariant (I := fun db ↦ PoolsInv db ∧
      (db.poolView m.poolId).HasSeat m.pkey m.agreedFareCents) ?_
      ⟨hi, m, Table.mem_filter.mpr ⟨hm, rfl⟩, rfl, rfl⟩
    rintro db e db' ⟨hi, hseat⟩ hst
    refine ⟨hi.step hst, ?_⟩
    obtain rfl := hst
    exact (poolSim_exec dist hi e).keeps (fun _ _ hst h ↦ hst.hasSeat h) m.poolId hseat
  obtain ⟨-, m', hm', hp, hf⟩ := key
  exact ⟨m', (Table.mem_filter.mp hm').1, hp, hf⟩

/-- A join that fails does nothing. -/
theorem joinPool_failed {p : JoinPoolParams} {reason : JoinPoolFailure} {existing : Option PoolId}
    (h : joinPool dist t db p = .ok (db', .failed reason existing)) : db' = db := by
  rcases joinPool_cases h with ⟨-, rfl⟩ | ⟨_, _, _, _, _, _, _, -, -, -, -, -, hr, -, -⟩
  · rfl
  · cases hr

/-- **Membership**: in every state of every run from a database without pools, each pool
counts its members within its capacity, each passenger has one active seat and one row a
pool, a member is active exactly while its pool is not over, its fare stays what it was, and
a failed join leaves the database as it found it. -/
theorem membership_in_order (dist : Point → Point → D) (h₀ : db₀.NoPools)
    (hr : Run (step dist) db₀ tr db) :
    (∀ s ∈ db.sharedRides,
      s.seatCount = (db.poolMember.filter fun m ↦ m.poolId = s.rideId).length ∧
        s.seatCount ≤ s.maxSeats) ∧
    (∀ m ∈ db.poolMember, ∀ m' ∈ db.poolMember, m.passengerId = m'.passengerId →
      m.active = true ∧ m'.active = true ∨ m.poolId = m'.poolId → m = m') ∧
    (∀ m ∈ db.poolMember, ∃ s ∈ db.sharedRides, s.rideId = m.poolId ∧
      (m.active = true ↔ ¬ (s.poolState = .aborted ∨ s.poolState = .completed))) ∧
    (∀ tr' db', Run (step dist) db tr' db' → ∀ m ∈ db.poolMember,
      ∃ m' ∈ db'.poolMember, m'.pkey = m.pkey ∧ m'.agreedFareCents = m.agreedFareCents) ∧
    ∀ t p db' reason existing,
      joinPool dist t db p = .ok (db', .failed reason existing) → db' = db := by
  have hi := (PoolsInv.of_noPools h₀).run hr
  refine ⟨fun s hs ↦ ⟨((hi.pool s.rideId).seats s (Table.get_of_mem hs)).1, s.capacity⟩, ?_, ?_,
    fun tr' db' hr' m hm ↦ fare_of_run hi hr' hm, fun t p db' reason existing ↦ joinPool_failed⟩
  · rintro m hm m' hm' hp (⟨ha, ha'⟩ | hpool)
    · exact hi.activeOnce m hm m' hm' ha ha' hp
    · exact Table.unique hm hm' (Prod.ext hpool hp)
  · intro m hm
    have hmem : m ∈ (db.poolView m.poolId).members := Table.mem_filter.mpr ⟨hm, rfl⟩
    cases hrow : (db.poolView m.poolId).row with
    | none =>
        rw [((hi.pool m.poolId).absent hrow).1] at hmem
        cases hmem
    | some s =>
        refine ⟨s, Table.mem_of_get hrow, Table.key_of_get hrow, ?_⟩
        rw [(hi.pool m.poolId).active s hrow m hmem]
        cases s.poolState <;> simp [PoolState.Terminal]

end Runs

/-- A pool of one seat, opened by passenger 2. -/
def samplePool : OpenPoolParams where
  poolId := 1
  origin := ⟨0, 0⟩
  dest := ⟨1, 1⟩
  maxSeats := 1
  detourBudgetM := 1000
  passengerId := 2
  timeoutMs := 60000
  quoteFare := fun _ ↦ some ⟨⟨500, "INR"⟩, 1, 1, "fixed_at_join"⟩
  idempotency := none
  dateNow := 0

/-- The database with the sample pool. -/
def samplePooled : Db := exec (D := ℕ) (fun _ _ ↦ 0) .empty (.openPool ⟨0, 0⟩ samplePool)

theorem Db.empty_noPools : Db.empty.NoPools where
  sharedRides := Table.notMem_empty
  poolMember := Table.notMem_empty
  rideStops := Table.notMem_empty

theorem samplePooled_membership : ∃ s ∈ samplePooled.sharedRides, s.rideId = 1 ∧
    s.seatCount = (samplePooled.poolMember.filter fun m ↦ m.poolId = s.rideId).length := by
  have hany : samplePooled.sharedRides.Any fun s ↦ s.rideId = 1 := by decide
  obtain ⟨s, hs, hid⟩ := hany
  have hstep : step (D := ℕ) (fun _ _ ↦ 0) .empty (.openPool ⟨0, 0⟩ samplePool) samplePooled := rfl
  exact ⟨s, hs, hid,
    ((membership_in_order (D := ℕ) (fun _ _ ↦ 0) Db.empty_noPools (.single hstep)).1 s hs).1⟩

end Rcab
