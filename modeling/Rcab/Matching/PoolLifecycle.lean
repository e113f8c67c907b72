import Rcab.Matching.PoolMembership
import Rcab.Outbox.Writer
import Rcab.Rides.Idempotency

/-!
# The pool lifecycle

`shared-ride.repository.ts` and `pool-lifecycle.service.ts`: one transaction opens a
pool, one joins it, one closes it.  The price of a seat comes from `quoteFare`,
which runs inside the transaction and throws when it cannot tell.
-/

universe u

namespace Rcab

/-- `SET pool_state = state, pool_closed_at = now(), dispatch_generation =
dispatch_generation + 1`. -/
def SharedRide.close (state : PoolState) (now : Time) (s : SharedRide) : SharedRide :=
  { s with
    poolState := state
    poolClosedAt := some now
    dispatchGeneration := s.dispatchGeneration + 1 }

@[simp] theorem SharedRide.close_rideId (state : PoolState) (now : Time) (s : SharedRide) :
    (s.close state now).rideId = s.rideId := rfl

@[simp] theorem SharedRide.close_poolState (state : PoolState) (now : Time) (s : SharedRide) :
    (s.close state now).poolState = state := rfl

/-- `SET pool_state = 'aborted', pool_closed_at = now()`. -/
def SharedRide.retire (now : Time) (s : SharedRide) : SharedRide :=
  { s with poolState := .aborted, poolClosedAt := some now }

@[simp] theorem SharedRide.retire_rideId (now : Time) (s : SharedRide) :
    (s.retire now).rideId = s.rideId := rfl

@[simp] theorem SharedRide.retire_poolState (now : Time) (s : SharedRide) :
    (s.retire now).poolState = .aborted := rfl

namespace Matching

open Dispatch (OfferStop)
open Outbox (enqueueOutbox)
open Rides (completeIn)

/-! ## `shared-ride.repository.ts` -/

structure OpenPoolRow where
  rideId : PoolId
  origin : Point
  dest : Point
  maxSeats : Nat
  detourBudgetM : Int
  timeoutMs : Int
deriving DecidableEq, Repr

/-- An open, empty pool; its planned close. -/
def insertOpenPool (t : TxClock) (db : Db) (p : OpenPoolRow) : Tx Time :=
  if (db.sharedRides.get p.rideId).isSome then .error (.constraint .sharedRidesPkey)
  else if h : 1 ≤ p.maxSeats then
    let row : SharedRide :=
      { rideId := p.rideId
        seatCount := 0
        maxSeats := p.maxSeats
        poolState := .open_
        poolClosedAt := some (t.now + p.timeoutMs)
        detourBudgetM := p.detourBudgetM
        origin := p.origin
        dest := p.dest
        capacity := Nat.zero_le _
        maxSeats_pos := h }
    .ok ({ db with sharedRides := db.sharedRides.insert row }, t.now + p.timeoutMs)
  else .error (.constraint .sharedRidesMaxSeats)

/-- The new pool. -/
theorem insertOpenPool_eq_ok {t : TxClock} {db db' : Db} {p : OpenPoolRow} {at_ : Time}
    (h : insertOpenPool t db p = .ok (db', at_)) : ∃ row : SharedRide,
      row.rideId = p.rideId ∧ row.poolState = .open_ ∧ row.seatCount = 0 ∧
      row.maxSeats = p.maxSeats ∧ row.origin = p.origin ∧ row.dispatchGeneration = 0 ∧
      row.claimedByDriverId = none ∧ db.sharedRides.get row.rideId = none ∧
      db' = { db with sharedRides := db.sharedRides.insert row } := by
  unfold insertOpenPool at h
  split_ifs at h with hg hm
  obtain ⟨rfl, -⟩ := Tx.ok_inj h
  exact ⟨_, rfl, rfl, rfl, rfl, rfl, rfl, rfl, by simpa using hg, rfl⟩

/-- The states a pool is closed into. -/
inductive CloseReason where
  | closedFull | closedTimeout
deriving DecidableEq, Repr

def CloseReason.state : CloseReason → PoolState
  | .closedFull => .closedFull
  | .closedTimeout => .closedTimeout

/-- The guarded `open → closed_*`; the new generation, or nothing when not open. -/
def closeOpen (t : TxClock) (db : Db) (poolId : PoolId) (reason : CloseReason) : Db × Option Nat :=
  match db.sharedRides.get poolId with
  | none => (db, none)
  | some s =>
      if s.poolState = .open_ then
        (db.updatePool t.now poolId (SharedRide.close reason.state t.now)
          (SharedRide.close_rideId reason.state t.now), some (s.dispatchGeneration + 1))
      else (db, none)

/-- Retire an open pool without members. -/
def abortEmptyOpen (t : TxClock) (db : Db) (poolId : PoolId) : Db × Bool :=
  match db.sharedRides.get poolId with
  | none => (db, false)
  | some s =>
      if s.poolState = .open_ ∧ s.seatCount = 0 then
        (db.updatePool t.now poolId (SharedRide.retire t.now) (SharedRide.retire_rideId t.now), true)
      else (db, false)

/-! ## `pool-lifecycle.service.ts` -/

/-- The fare of one seat. -/
structure SeatQuote where
  perSeatPrice : Money
  seatMultiplier : ℚ
  detourFactor : ℚ
  policy : String
deriving DecidableEq, Repr

/-- What a seat is priced from. -/
structure SeatFareContext where
  poolId : PoolId
  passengerId : PassengerId
  /-- After this passenger is seated. -/
  seatCount : Nat
  origin : Point
  dest : Point
  stops : List OfferStop
deriving DecidableEq, Repr

/-- `SeatFareQuoter`; `none` is a throw. -/
abbrev SeatFareQuoter := SeatFareContext → Option SeatQuote

structure SeatOutcome where
  sharedRideId : PoolId
  mode : SeatMode
  poolStatus : PoolState
  seatCount : Nat
  quote : SeatQuote
deriving DecidableEq, Repr

/-- The claim the seat transaction completes, and the response it records. -/
structure SeatIdempotency where
  scope : IdempotencyScope
  response : SeatOutcome → CreateRideResponse

/-- `if (p.idempotency) completeIn(…)`. -/
def completeSeat (dateNow : Time) (db : Db) (idempotency : Option SeatIdempotency)
    (outcome : SeatOutcome) : Db :=
  match idempotency with
  | none => db
  | some i => completeIn dateNow db i.scope outcome.sharedRideId (i.response outcome)

/-- Completing a claim leaves the pools alone. -/
@[simp] theorem sharedRides_completeSeat {dateNow : Time} {db : Db} {i : Option SeatIdempotency}
    {o : SeatOutcome} : (completeSeat dateNow db i o).sharedRides = db.sharedRides := by
  cases i <;> rfl

structure OpenPoolParams where
  poolId : PoolId
  origin : Point
  dest : Point
  maxSeats : Nat
  detourBudgetM : Int
  passengerId : PassengerId
  /-- The service's `MATCHING_POOL_TIMEOUT_MS`. -/
  timeoutMs : Int
  quoteFare : SeatFareQuoter
  idempotency : Option SeatIdempotency
  /-- The process clock: the opener's synthetic `joined_at`, and the completion. -/
  dateNow : Time

/-- Why nothing was created. -/
inductive PoolOpenRejected where
  | passengerHasActivePool (existingPoolId : Option PoolId)
  | idempotentReplay (existingPoolId : Option PoolId)
deriving DecidableEq, Repr

inductive OpenPoolResult where
  | opened (outcome : SeatOutcome)
  | rejected (reason : PoolOpenRejected)
deriving DecidableEq, Repr

section Lifecycle

variable {D : Type u} [LinearOrder D] (dist : Point → Point → D)

/-- The transaction of `openPool`, until it throws `PoolOpenRejectedError`. -/
def openPoolInTx (t : TxClock) (db : Db) (p : OpenPoolParams) : Tx OpenPoolResult :=
  (insertOpenPool t db ⟨p.poolId, p.origin, p.dest, p.maxSeats, p.detourBudgetM, p.timeoutMs⟩).andThen
    fun db poolClosedAt ↦
  match p.quoteFare
    { poolId := p.poolId
      passengerId := p.passengerId
      seatCount := 1
      origin := p.origin
      dest := p.dest
      stops := computeStops dist ⟨p.origin, [⟨p.passengerId, p.origin, p.dest, p.dateNow⟩]⟩ } with
  | none => .error (.thrown "quoteFare")
  | some quote =>
  (insertMember t db
    { poolId := p.poolId
      passengerId := p.passengerId
      origin := p.origin
      dest := p.dest
      agreedFareCents := quote.perSeatPrice.amount
      idempotencyKey := p.idempotency.map (·.scope.key) }).andThen fun db seat ↦
  match seat with
  | .failed .passengerHasActivePool existing => .ok (db, .rejected (.passengerHasActivePool existing))
  | .failed .idempotentReplay existing => .ok (db, .rejected (.idempotentReplay existing))
  -- Cannot happen for a pool this transaction just created.
  | .failed reason _ => .error (.thrown s!"openPool: unexpected opener rejection {reason.text}")
  | .ok seatCount =>
      let db := enqueueOutbox t db ⟨.sharedRide, p.poolId, 0, .poolExpireSchedule poolClosedAt, none⟩
      let outcome : SeatOutcome := ⟨p.poolId, .opened, .open_, seatCount, quote⟩
      .ok (completeSeat p.dateNow db p.idempotency outcome, .opened outcome)

/-- `openPool`: a rejected opener rolls the pool back. -/
def openPool (t : TxClock) (db : Db) (p : OpenPoolParams) : Tx OpenPoolResult :=
  match openPoolInTx dist t db p with
  | .ok (_, .rejected reason) => .ok (db, .rejected reason)
  | r => r

/-- The guarded close inside a transaction that holds the pool: bump the generation,
persist the itinerary, record the dispatch intent. -/
def closeInTxn (t : TxClock) (db : Db) (pool : SharedRide) (reason : CloseReason) :
    Tx (Option Nat) :=
  match closeOpen t db pool.rideId reason with
  | (db, none) => .ok (db, none)
  | (db, some generation) =>
      let stops := computeStops dist ⟨pool.origin, listMembers db pool.rideId⟩
      (insertItinerary db pool.rideId stops).andThen fun db _ ↦
      .ok (enqueueOutbox t db
        ⟨.sharedRide, pool.rideId, generation, .poolDispatchRequested pool.rideId reason.state, none⟩,
        some generation)

structure JoinPoolParams where
  poolId : PoolId
  joiner : SharedRideMember
  quoteFare : SeatFareQuoter
  idempotency : Option SeatIdempotency
  /-- The process clock at the completion. -/
  dateNow : Time

inductive JoinPoolFailure where
  | insert (reason : InsertMemberFailure)
  | notFound
deriving DecidableEq, Repr

inductive JoinPoolResult where
  | joined (closedFull : Bool) (seatCount : Nat) (quote : SeatQuote)
  | failed (reason : JoinPoolFailure) (existingPoolId : Option PoolId)
deriving DecidableEq, Repr

/-- The seat that fills a pool closes it. -/
def closeWhenFull (t : TxClock) (db : Db) (pool : SharedRide) (seatCount : Nat) : Tx Bool :=
  if pool.maxSeats ≤ seatCount then
    (closeInTxn dist t db pool .closedFull).andThen fun db closed ↦ .ok (db, closed.isSome)
  else .ok (db, false)

def joinPool (t : TxClock) (db : Db) (p : JoinPoolParams) : Tx JoinPoolResult :=
  match lockPool db p.poolId with
  | none => .ok (db, .failed .notFound none)
  | some pool =>
  if pool.poolState ≠ .open_ then .ok (db, .failed (.insert .poolClosed) none)
  else if pool.maxSeats ≤ pool.seatCount then .ok (db, .failed (.insert .poolFull) none)
  else
  let existing := listMembers db p.poolId
  match p.quoteFare
    { poolId := p.poolId
      passengerId := p.joiner.passengerId
      seatCount := pool.seatCount + 1
      origin := p.joiner.origin
      dest := p.joiner.dest
      stops := computeStops dist
        ⟨pool.origin, existing.filter (·.passengerId ≠ p.joiner.passengerId) ++ [p.joiner]⟩ } with
  | none => .error (.thrown "quoteFare")
  | some quote =>
  (insertMember t db
    { poolId := p.poolId
      passengerId := p.joiner.passengerId
      origin := p.joiner.origin
      dest := p.joiner.dest
      agreedFareCents := quote.perSeatPrice.amount
      idempotencyKey := p.idempotency.map (·.scope.key) }).andThen fun db seat ↦
  match seat with
  | .failed reason existing => .ok (db, .failed (.insert reason) existing)
  | .ok seatCount =>
  (closeWhenFull dist t db pool seatCount).andThen fun db closedFull ↦
  let outcome : SeatOutcome :=
    ⟨p.poolId, .slotted, if closedFull then .closedFull else .open_, seatCount, quote⟩
  .ok (completeSeat p.dateNow db p.idempotency outcome, .joined closedFull seatCount quote)

inductive CloseIfOpenResult where
  | closed | notOpen | abortedEmpty
deriving DecidableEq, Repr

/-- The timeout close. -/
def closeIfOpen (t : TxClock) (db : Db) (poolId : PoolId) : Tx CloseIfOpenResult :=
  match lockPool db poolId with
  | none => .ok (db, .notOpen)
  | some pool =>
  if pool.poolState ≠ .open_ then .ok (db, .notOpen)
  else if pool.seatCount = 0 then
    match abortEmptyOpen t db poolId with
    | (db, true) => .ok (db, .abortedEmpty)
    | (db, false) => .ok (db, .notOpen)
  else
    (closeInTxn dist t db pool .closedTimeout).andThen fun db closed ↦
    .ok (db, if closed.isSome then .closed else .notOpen)

variable {dist}

/-- A pool that is not open is left alone; an open one gets its generation, its stops and its
intent. -/
theorem closeInTxn_cases {t : TxClock} {db db' : Db} {pool : SharedRide} {reason : CloseReason}
    {g : Option Nat} (h : closeInTxn dist t db pool reason = .ok (db', g)) :
    (db' = db ∧ g = none ∧
        ∀ s, db.sharedRides.get pool.rideId = some s → s.poolState ≠ .open_) ∨
      ∃ s closed u db₁, db.sharedRides.get pool.rideId = some s ∧ s.poolState = .open_ ∧
        g = some (s.dispatchGeneration + 1) ∧
        closed = db.updatePool t.now pool.rideId (SharedRide.close reason.state t.now)
          (SharedRide.close_rideId reason.state t.now) ∧
        insertItinerary closed pool.rideId
          (computeStops dist ⟨pool.origin, listMembers closed pool.rideId⟩) = .ok (db₁, u) ∧
        db' = enqueueOutbox t db₁ ⟨.sharedRide, pool.rideId, s.dispatchGeneration + 1,
          .poolDispatchRequested pool.rideId reason.state, none⟩ := by
  unfold closeInTxn closeOpen at h
  cases hs : db.sharedRides.get pool.rideId with
  | none =>
      rw [hs] at h
      obtain ⟨rfl, rfl⟩ := Tx.ok_inj h
      refine Or.inl ⟨rfl, rfl, fun s hs ↦ ?_⟩
      cases hs
  | some s =>
      rw [hs] at h
      dsimp only at h
      by_cases ho : s.poolState = .open_
      · rw [if_pos ho] at h
        obtain ⟨db₁, u, h₁, h⟩ := Tx.andThen_eq_ok.mp h
        obtain ⟨rfl, rfl⟩ := Tx.ok_inj h
        exact Or.inr ⟨s, _, u, db₁, rfl, ho, rfl, rfl, h₁, rfl⟩
      · rw [if_neg ho] at h
        obtain ⟨rfl, rfl⟩ := Tx.ok_inj h
        exact Or.inl ⟨rfl, rfl, fun s' hs' ↦ Option.some.inj hs' ▸ ho⟩

theorem closeWhenFull_cases {t : TxClock} {db db' : Db} {pool : SharedRide} {n : Nat} {b : Bool}
    (h : closeWhenFull dist t db pool n = .ok (db', b)) :
    (n < pool.maxSeats ∧ db' = db ∧ b = false) ∨
      pool.maxSeats ≤ n ∧ ∃ g, closeInTxn dist t db pool .closedFull = .ok (db', g) ∧
        b = g.isSome := by
  unfold closeWhenFull at h
  split_ifs at h with hn
  · obtain ⟨db₁, g, h₁, h⟩ := Tx.andThen_eq_ok.mp h
    obtain ⟨rfl, rfl⟩ := Tx.ok_inj h
    exact Or.inr ⟨hn, g, h₁, rfl⟩
  · obtain ⟨rfl, rfl⟩ := Tx.ok_inj h
    exact Or.inl ⟨Nat.lt_of_not_le hn, rfl, rfl⟩

/-- A rejected opener leaves nothing behind; otherwise the pool is there with one seat taken. -/
theorem openPool_cases {t : TxClock} {db db' : Db} {p : OpenPoolParams} {r : OpenPoolResult}
    (h : openPool dist t db p = .ok (db', r)) :
    ((∃ reason, r = .rejected reason) ∧ db' = db) ∨
      ∃ db₁ at_ quote db₂ n outcome,
        insertOpenPool t db
          ⟨p.poolId, p.origin, p.dest, p.maxSeats, p.detourBudgetM, p.timeoutMs⟩ = .ok (db₁, at_) ∧
        insertMember t db₁ ⟨p.poolId, p.passengerId, p.origin, p.dest, quote.perSeatPrice.amount,
          p.idempotency.map (·.scope.key)⟩ = .ok (db₂, .ok n) ∧
        outcome = ⟨p.poolId, .opened, .open_, n, quote⟩ ∧ r = .opened outcome ∧
        db' = completeSeat p.dateNow
          (enqueueOutbox t db₂ ⟨.sharedRide, p.poolId, 0, .poolExpireSchedule at_, none⟩)
          p.idempotency outcome := by
  unfold openPool at h
  split at h
  · obtain ⟨rfl, rfl⟩ := Tx.ok_inj h
    exact Or.inl ⟨⟨_, rfl⟩, rfl⟩
  rename_i hnot
  cases r with
  | rejected reason => exact absurd h (hnot _ _)
  | opened outcome =>
  obtain ⟨db₁, at_, h₁, h⟩ := Tx.andThen_eq_ok.mp h
  split at h
  · cases h
  rename_i quote hquote
  obtain ⟨db₂, seat, h₂, h⟩ := Tx.andThen_eq_ok.mp h
  split at h
  · cases (Tx.ok_inj h).2
  · cases (Tx.ok_inj h).2
  · cases h
  rename_i n
  obtain ⟨rfl, hr⟩ := Tx.ok_inj h
  obtain rfl := OpenPoolResult.opened.inj hr
  exact Or.inr ⟨db₁, at_, quote, db₂, n, _, h₁, h₂, rfl, rfl, rfl⟩

/-- A failed join does nothing; otherwise an open pool takes the seat, and closes when it is full. -/
theorem joinPool_cases {t : TxClock} {db db' : Db} {p : JoinPoolParams} {r : JoinPoolResult}
    (h : joinPool dist t db p = .ok (db', r)) :
    ((∃ reason existing, r = .failed reason existing) ∧ db' = db) ∨
      ∃ pool quote db₁ n db₂ closedFull outcome, db.sharedRides.get p.poolId = some pool ∧
        pool.poolState = .open_ ∧ pool.seatCount < pool.maxSeats ∧
        insertMember t db ⟨p.poolId, p.joiner.passengerId, p.joiner.origin, p.joiner.dest,
          quote.perSeatPrice.amount, p.idempotency.map (·.scope.key)⟩ = .ok (db₁, .ok n) ∧
        closeWhenFull dist t db₁ pool n = .ok (db₂, closedFull) ∧
        r = .joined closedFull n quote ∧
        outcome = ⟨p.poolId, .slotted, if closedFull then .closedFull else .open_, n, quote⟩ ∧
        db' = completeSeat p.dateNow db₂ p.idempotency outcome := by
  unfold joinPool at h
  split at h
  · obtain ⟨rfl, rfl⟩ := Tx.ok_inj h
    exact Or.inl ⟨⟨_, _, rfl⟩, rfl⟩
  rename_i pool hpool
  split_ifs at h with ho hc
  · obtain ⟨rfl, rfl⟩ := Tx.ok_inj h
    exact Or.inl ⟨⟨_, _, rfl⟩, rfl⟩
  · obtain ⟨rfl, rfl⟩ := Tx.ok_inj h
    exact Or.inl ⟨⟨_, _, rfl⟩, rfl⟩
  dsimp only at h
  split at h
  · cases h
  rename_i quote hquote
  obtain ⟨db₁, seat, h₁, h⟩ := Tx.andThen_eq_ok.mp h
  cases seat with
  | failed reason existing =>
    obtain ⟨rfl, rfl⟩ := Tx.ok_inj h
    rcases insertMember_eq_ok h₁ with ⟨-, rfl⟩ | ⟨_, -, -, hr, -⟩
    · exact Or.inl ⟨⟨_, _, rfl⟩, rfl⟩
    · cases hr
  | ok n =>
    obtain ⟨db₂, closedFull, h₂, h⟩ := Tx.andThen_eq_ok.mp h
    obtain ⟨rfl, rfl⟩ := Tx.ok_inj h
    exact Or.inr ⟨pool, quote, db₁, n, db₂, closedFull, _, hpool, not_not.mp ho,
      Nat.lt_of_not_le hc, h₁, h₂, rfl, rfl, rfl⟩

/-- A timeout leaves a pool that is not open alone, aborts an empty one and closes any other. -/
theorem closeIfOpen_eq_ok {t : TxClock} {db db' : Db} {poolId : PoolId} {r : CloseIfOpenResult}
    (h : closeIfOpen dist t db poolId = .ok (db', r)) :
    (db' = db ∧ r = .notOpen) ∨
      ∃ pool, db.sharedRides.get poolId = some pool ∧ pool.poolState = .open_ ∧
        ((pool.seatCount = 0 ∧ r = .abortedEmpty ∧
            db' = db.updatePool t.now poolId (SharedRide.retire t.now)
              (SharedRide.retire_rideId t.now)) ∨
          (pool.seatCount ≠ 0 ∧ ∃ g, closeInTxn dist t db pool .closedTimeout = .ok (db', g) ∧
            r = if g.isSome then .closed else .notOpen)) := by
  unfold closeIfOpen at h
  split at h
  · obtain ⟨rfl, rfl⟩ := Tx.ok_inj h
    exact Or.inl ⟨rfl, rfl⟩
  rename_i pool hpool
  have hget : db.sharedRides.get poolId = some pool := hpool
  split_ifs at h with ho hc
  · obtain ⟨rfl, rfl⟩ := Tx.ok_inj h
    exact Or.inl ⟨rfl, rfl⟩
  · rw [not_not] at ho
    simp only [abortEmptyOpen, hget, ho, hc, and_self, if_true] at h
    obtain ⟨rfl, rfl⟩ := Tx.ok_inj h
    exact Or.inr ⟨pool, hget, ho, Or.inl ⟨hc, rfl, rfl⟩⟩
  · obtain ⟨db₁, g, h₁, h⟩ := Tx.andThen_eq_ok.mp h
    obtain ⟨rfl, rfl⟩ := Tx.ok_inj h
    exact Or.inr ⟨pool, hget, not_not.mp ho, Or.inr ⟨hc, g, h₁, rfl⟩⟩

end Lifecycle

end Matching

end Rcab
