import Rcab.Pools.Priced

/-!
# The seat that fills a pool

`joinPool` closes the pool its seat fills; `openPool` does not, so a pool of one seat stays open
when it is opened.  Pools of more seats have room while they are open (`open_has_room_iff`).
-/

universe u

namespace Rcab

open Matching
open Relation (ReflTransGen)

/-! ## The capacity of a pool -/

theorem SharedRide.seatOne_maxSeats (s : SharedRide) : s.seatOne.maxSeats = s.maxSeats := by
  unfold SharedRide.seatOne
  split <;> rfl

/-- The pool keeps its capacity, and is not opened again. -/
def PoolView.Capped (v v' : PoolView) : Prop :=
  ∀ s, v.row = some s → ∃ s', v'.row = some s' ∧ s'.maxSeats = s.maxSeats ∧
    (s'.poolState = .open_ → s.poolState = .open_)

theorem PoolStep.capped {v v' : PoolView} (hst : PoolStep v v') : v.Capped v' := by
  intro s hrow
  have heq : ∀ {s₀ : SharedRide}, v.row = some s₀ → s₀ = s := fun h₀ ↦
    Option.some.inj (h₀.symm.trans hrow)
  have hmoves : ∀ {s₀ s' : SharedRide}, v.row = some s₀ → Moves s₀ s' → s'.maxSeats = s.maxSeats :=
    fun h₀ hmv ↦ hmv.maxSeats.trans (congrArg _ (heq h₀))
  cases hst with
  | idle => exact ⟨s, hrow, rfl, id⟩
  | opened _ _ hnone =>
    rw [hrow] at hnone
    cases hnone
  | joined s₀ _ h₀ ho =>
    obtain rfl := heq h₀
    exact ⟨_, rfl, s₀.seatOne_maxSeats, fun _ ↦ ho⟩
  | closed s₀ reason now _ h₀ ho =>
    obtain rfl := heq h₀
    exact ⟨_, rfl, rfl, fun _ ↦ ho⟩
  | retired s₀ s' _ h₀ ho _ _ hmv => exact ⟨s', rfl, hmoves h₀ hmv, fun _ ↦ heq h₀ ▸ ho⟩
  | claimed s₀ d now h₀ =>
    obtain rfl := heq h₀
    exact ⟨_, rfl, rfl, id⟩
  | aborted s₀ s' _ h₀ _ _ hs hmv =>
    exact ⟨s', rfl, hmoves h₀ hmv, fun ho ↦ by rw [hs] at ho; cases ho⟩
  | confirmed s₀ s' _ _ _ h₀ _ _ _ hs hmv =>
    exact ⟨s', rfl, hmoves h₀ hmv, fun ho ↦ by rw [hs] at ho; cases ho⟩
  | completed s₀ s' _ _ _ h₀ _ _ _ hs hmv =>
    exact ⟨s', rfl, hmoves h₀ hmv, fun ho ↦ by rw [hs] at ho; cases ho⟩

theorem PoolView.Capped.of_steps {v v' : PoolView} (h : ReflTransGen PoolStep v v') :
    v.Capped v' := by
  induction h with
  | refl => exact fun s hrow ↦ ⟨s, hrow, rfl, fun h ↦ h⟩
  | tail _ hst ih =>
    intro s hrow
    obtain ⟨s₁, hrow₁, hmax₁, ho₁⟩ := ih s hrow
    obtain ⟨s₂, hrow₂, hmax₂, ho₂⟩ := hst.capped s₁ hrow₁
    exact ⟨s₂, hrow₂, hmax₂.trans hmax₁, fun h ↦ ho₁ (ho₂ h)⟩

/-! ## Full and open -/

/-- The pool is open though no seat is left. -/
def FullAt (db : Db) (id : PoolId) : Prop :=
  ∃ s, db.sharedRides.get id = some s ∧ s.poolState = .open_ ∧ s.seatCount = s.maxSeats

section Steps

variable {D : Type u} [LinearOrder D] {dist : Point → Point → D} {db db' : Db} {t : TxClock}
  {id : PoolId}

/-- A pool nobody was seated in is no fuller. -/
theorem not_fullAt_of_members (hi : PoolsInv db) (hi' : PoolsInv db') (hsim : PoolSim db db')
    (horigin : (db'.route id).origin = (db.route id).origin)
    (hmembers : (db'.route id).members = (db.route id).members) (h : ¬ FullAt db id) :
    ¬ FullAt db' id := by
  rintro ⟨s', hs', ho', hfull'⟩
  cases hs : db.sharedRides.get id with
  | none =>
    have hnone : (db.route id).origin = none := congrArg (Option.map SharedRide.origin) hs
    have hsome : (db'.route id).origin = some s'.origin :=
      congrArg (Option.map SharedRide.origin) hs'
    rw [horigin, hnone] at hsome
    cases hsome
  | some s =>
    obtain ⟨s₁, hs₁, hmax, ho⟩ := PoolView.Capped.of_steps (hsim.steps id) s hs
    obtain rfl := Option.some.inj (hs'.symm.trans hs₁)
    have hlength : (db'.poolView id).members.length = (db.poolView id).members.length := by
      have hlen := congrArg List.length hmembers
      simpa only [Db.route, PoolView.route, List.length_map] using hlen
    refine h ⟨s, hs, ho ho', ?_⟩
    rw [← hmax, ← hfull', ((hi.pool id).seats s hs).1, ((hi'.pool id).seats s' hs').1, hlength]

/-- A close leaves no open pool behind. -/
theorem closeInTxn_not_open {pool : SharedRide} {reason : CloseReason} {g : Option ℕ}
    (h : closeInTxn dist t db pool reason = .ok (db', g)) {s : SharedRide}
    (hs : db'.sharedRides.get pool.rideId = some s) : s.poolState ≠ .open_ := by
  rcases closeInTxn_cases h with ⟨rfl, -, hclosed⟩ | ⟨s₀, _, u, db₁, hrow, -, -, rfl, h₁, rfl⟩
  · exact hclosed s hs
  obtain ⟨rideStops, rfl⟩ := insertItinerary_eq_ok h₁
  have hs : (db.updatePool t.now pool.rideId (SharedRide.close reason.state t.now)
    (SharedRide.close_rideId reason.state t.now)).sharedRides.get pool.rideId = some s := hs
  rw [Db.get_sharedRides_updatePool hrow] at hs
  obtain rfl := Option.some.inj hs
  cases reason <;> exact PoolState.noConfusion

/-- A seated passenger's pool, with one seat more. -/
theorem insertMember_row {m : NewPoolMember} {n : ℕ} (h : insertMember t db m = .ok (db', .ok n)) :
    ∃ pool s, db.sharedRides.get m.poolId = some pool ∧ db'.sharedRides.get m.poolId = some s ∧
      s.poolState = .open_ ∧ n = pool.seatCount + 1 ∧ s.seatCount = n ∧
      s.maxSeats = pool.maxSeats := by
  rcases insertMember_eq_ok h with ⟨⟨_, _, hr⟩, -⟩ | ⟨pool, hpool, ho, hn, hcap, -, -, rfl⟩
  · cases hr
  obtain rfl := InsertMemberResult.ok.inj hn
  refine ⟨pool, _, hpool, Db.get_sharedRides_updatePool (by exact hpool), ?_, rfl, ?_,
    pool.seatOne_maxSeats⟩
  · simpa using ho
  · show pool.seatOne.seatCount = pool.seatCount + 1
    rw [SharedRide.seatOne, dif_pos hcap]

/-- A rejected opener leaves nothing behind. -/
theorem openPool_rejected {p : OpenPoolParams} {reason : PoolOpenRejected}
    (h : openPool dist t db p = .ok (db', .rejected reason)) : db' = db := by
  rcases openPool_cases h with ⟨-, rfl⟩ | ⟨_, _, _, _, _, _, -, -, -, hr, -⟩
  · rfl
  · cases hr

/-- A pool as it is opened: one seat is taken, and it is open. -/
theorem openPool_row {p : OpenPoolParams} {outcome : SeatOutcome}
    (h : openPool dist t db p = .ok (db', .opened outcome)) :
    ∃ s, db'.sharedRides.get p.poolId = some s ∧ s.poolState = .open_ ∧ s.seatCount = 1 ∧
      s.maxSeats = p.maxSeats := by
  rcases openPool_cases h with ⟨⟨_, hr⟩, -⟩ | ⟨db₁, at_, quote, db₂, n, _, h₁, h₂, -, -, rfl⟩
  · cases hr
  obtain ⟨row, hid, -, hzero, hmax, -, -, -, hfree, rfl⟩ := insertOpenPool_eq_ok h₁
  obtain ⟨pool, s, hpool, hs, ho, hn, hseats, hcap⟩ := insertMember_row h₂
  obtain rfl : row = pool := by
    have hpool : (db.sharedRides.insert row).get p.poolId = some pool := hpool
    have hid : p.poolId = row.rideId := hid.symm
    rw [Table.get_insert hfree, if_pos hid, Option.some.injEq] at hpool
    exact hpool
  refine ⟨s, ?_, ho, ?_, hcap.trans hmax⟩
  · rw [sharedRides_completeSeat]
    exact hs
  · rw [hseats, hn, hzero]

/-- The seat that fills a pool closes it. -/
theorem joinPool_not_fullAt {p : JoinPoolParams} {closedFull : Bool} {n : ℕ} {quote : SeatQuote}
    (h : joinPool dist t db p = .ok (db', .joined closedFull n quote)) : ¬ FullAt db' p.poolId := by
  rcases joinPool_cases h with
    ⟨⟨_, _, hr⟩, -⟩ | ⟨pool, _, db₁, m, db₂, full, _, hpool, -, -, h₁, h₂, -, -, rfl⟩
  · cases hr
  obtain ⟨pool', s, hpool', hs, -, hm, hseats, hmax⟩ := insertMember_row h₁
  obtain rfl : pool = pool' := Option.some.inj (hpool.symm.trans hpool')
  rintro ⟨s', hs', ho', hfull⟩
  rw [sharedRides_completeSeat] at hs'
  rcases closeWhenFull_cases h₂ with ⟨hroom, rfl, -⟩ | ⟨-, g, h₃, -⟩
  · obtain rfl := Option.some.inj (hs.symm.trans hs')
    omega
  · rw [← Table.key_of_get hpool] at hs'
    exact closeInTxn_not_open h₃ hs' ho'

/-- A timeout seats nobody. -/
theorem members_closeIfOpen {poolId : PoolId} {r : CloseIfOpenResult}
    (h : closeIfOpen dist t db poolId = .ok (db', r)) (id : PoolId) :
    (db'.route id).origin = (db.route id).origin ∧ (db'.route id).members = (db.route id).members := by
  obtain ⟨rfl, -⟩ | ⟨pool, -, -, ⟨-, -, rfl⟩ | ⟨-, g, h₁, -⟩⟩ := closeIfOpen_eq_ok h
  · exact ⟨rfl, rfl⟩
  · have hroutes : RoutesKept db (db.updatePool t.now poolId (SharedRide.retire t.now)
        (SharedRide.retire_rideId t.now)) :=
      routesKept_updatePool (SharedRide.retire_rideId t.now) fun _ ↦ rfl
    exact ⟨congrArg _ (hroutes id), congrArg _ (hroutes id)⟩
  · rcases route_closeInTxn h₁ with rfl | ⟨-, hroute⟩
    · exact ⟨rfl, rfl⟩
    · constructor <;> rw [hroute id]

/-! ## Runs -/

/-- `MATCHING_MAX_SEATS`, of every pool that is opened. -/
def Step.Configured (maxSeats : ℕ) : Step → Prop
  | .openPool _ p => p.maxSeats = maxSeats
  | _ => True

/-- Opening pools of more than one seat leaves none full and open. -/
theorem not_fullAt_exec (hi : PoolsInv db) {maxSeats : ℕ} (hmax : 2 ≤ maxSeats) {e : Step}
    (he : e.Configured maxSeats) (h : ∀ id, ¬ FullAt db id) (id : PoolId) :
    ¬ FullAt (exec dist db e) id := by
  have hi' : PoolsInv (exec dist db e) := hi.step (e := e) rfl
  have hsim : PoolSim db (exec dist db e) := poolSim_exec dist hi e
  have hmembers := @not_fullAt_of_members db (exec dist db e) id hi hi' hsim
  have hkept (hroute : (exec dist db e).route id = db.route id) : ¬ FullAt (exec dist db e) id :=
    hmembers (congrArg _ hroute) (congrArg _ hroute) (h id)
  cases e with
  | openPool t p =>
    rcases Tx.commit_eq (openPool dist t db p) db with hdb | ⟨r, hr⟩
    · exact hkept (congrArg (Db.route · id) hdb)
    cases r with
    | rejected reason => exact hkept (congrArg (Db.route · id) (openPool_rejected hr))
    | opened outcome =>
      by_cases hid : id = p.poolId
      · subst hid
        obtain ⟨s, hs, -, hone, hcap⟩ := openPool_row hr
        rintro ⟨s', hs', -, hfull⟩
        obtain rfl := Option.some.inj (hs.symm.trans hs')
        have hmax' : p.maxSeats = maxSeats := he
        omega
      · exact hkept ((openPool_opened hi hr).2.2 id hid)
  | joinPool t p =>
    rcases Tx.commit_eq (joinPool dist t db p) db with hdb | ⟨r, hr⟩
    · exact hkept (congrArg (Db.route · id) hdb)
    cases r with
    | failed reason existing => exact hkept (congrArg (Db.route · id) (joinPool_failed hr))
    | joined closedFull n quote =>
      by_cases hid : id = p.poolId
      · exact hid ▸ joinPool_not_fullAt hr
      · obtain ⟨-, -, -, -, -, hothers⟩ := joinPool_joined hi hr
        exact hkept (hothers id hid)
  | closeIfOpen t poolId =>
    rcases Tx.commit_eq (closeIfOpen dist t db poolId) db with hdb | ⟨r, hr⟩
    · exact hkept (congrArg (Db.route · id) hdb)
    · obtain ⟨horigin, hsame⟩ := members_closeIfOpen hr id
      exact hmembers horigin hsame (h id)
  | _ => exact hkept (routesKept_exec dist (by trivial) id)

theorem not_fullAt_run {maxSeats : ℕ} (hmax : 2 ≤ maxSeats) {db₀ : Db} {tr : List (Db × Step)}
    (h₀ : db₀.NoPools)
    (hr : Run (only (step dist) fun _ e ↦ e.Configured maxSeats) db₀ tr db) (id : PoolId) :
    ¬ FullAt db id := by
  have key : PoolsInv db ∧ ∀ id, ¬ FullAt db id := by
    refine hr.invariant (I := fun db ↦ PoolsInv db ∧ ∀ id, ¬ FullAt db id) ?_
      ⟨.of_noPools h₀, fun id ⟨s, hs, _⟩ ↦ h₀.sharedRides s (Table.mem_of_get hs)⟩
    rintro db e db' ⟨hi, h⟩ ⟨hst, he⟩
    obtain rfl := hst
    exact ⟨hi.step rfl, not_fullAt_exec hi hmax he h⟩
  exact key.2 id

end Steps

/-- The opener takes the one seat of the sample pool. -/
theorem samplePooled_full {D : Type u} [LinearOrder D] (dist : Point → Point → D) :
    ∃ s ∈ (exec dist .empty (.openPool ⟨0, 0⟩ samplePool)).sharedRides,
      s.poolState = .open_ ∧ s.seatCount = s.maxSeats := by
  have hopened : ∃ db outcome, openPool dist ⟨0, 0⟩ .empty samplePool = .ok (db, .opened outcome) :=
    ⟨_, _, rfl⟩
  obtain ⟨db, outcome, h⟩ := hopened
  obtain ⟨s, hs, ho, hone, hmax⟩ := openPool_row h
  rw [exec, h]
  exact ⟨s, Table.mem_of_get hs, ho, hone.trans hmax.symm⟩

theorem samplePooled_run {D : Type u} [LinearOrder D] (dist : Point → Point → D) :
    Run (only (step dist) fun _ e ↦ e.Configured 1) .empty
      [(.empty, .openPool ⟨0, 0⟩ samplePool)] (exec dist .empty (.openPool ⟨0, 0⟩ samplePool)) :=
  .single ⟨rfl, rfl⟩

/-- **Open pools have room**, in every run with this configuration, exactly if a pool has more than
one seat. -/
theorem open_has_room_iff {D : Type u} [LinearOrder D] (dist : Point → Point → D) {maxSeats : ℕ}
    (h : 1 ≤ maxSeats) :
    (∀ db₀ tr db, db₀.NoPools →
      Run (only (step dist) fun _ e ↦ e.Configured maxSeats) db₀ tr db →
      ∀ s ∈ db.sharedRides, s.poolState = .open_ → s.seatCount ≠ s.maxSeats) ↔ 2 ≤ maxSeats := by
  constructor
  · intro hroom
    by_contra hlt
    obtain rfl : maxSeats = 1 := by omega
    obtain ⟨s, hs, ho, hfull⟩ := samplePooled_full dist
    exact hroom _ _ _ Db.empty_noPools (samplePooled_run dist) s hs ho hfull
  · intro hmax db₀ tr db h₀ hr s hs ho hfull
    exact not_fullAt_run hmax h₀ hr s.rideId ⟨s, Table.get_of_mem hs, ho, hfull⟩

theorem sampleTwo_has_room : ∃ s ∈ (exec (D := ℕ) (fun _ _ ↦ 0) .empty
    (.openPool ⟨0, 0⟩ { samplePool with maxSeats := 2 })).sharedRides,
      s.poolState = .open_ ∧ s.seatCount ≠ s.maxSeats := by
  have hopen : (exec (D := ℕ) (fun _ _ ↦ 0) .empty
      (.openPool ⟨0, 0⟩ { samplePool with maxSeats := 2 })).sharedRides.Any fun s ↦
        s.poolState = .open_ := by decide
  have hrun : Run (only (step (D := ℕ) fun _ _ ↦ 0) fun _ e ↦ e.Configured 2) .empty
      [(.empty, .openPool ⟨0, 0⟩ { samplePool with maxSeats := 2 })]
      (exec (D := ℕ) (fun _ _ ↦ 0) .empty
        (.openPool ⟨0, 0⟩ { samplePool with maxSeats := 2 })) := .single ⟨rfl, rfl⟩
  obtain ⟨s, hs, ho⟩ := hopen
  refine ⟨s, hs, ho, ?_⟩
  exact (open_has_room_iff (D := ℕ) (fun _ _ ↦ 0) (by decide : 1 ≤ 2)).mpr (Nat.le_refl 2) _ _ _
    Db.empty_noPools hrun s hs ho

/-- A pool of one seat stays open when it is full. -/
theorem samplePooled_not_closed : ¬ ∀ maxSeats : ℕ, 1 ≤ maxSeats → ∀ db₀ tr db, db₀.NoPools →
    Run (only (step (D := ℕ) fun _ _ ↦ 0) fun _ e ↦ e.Configured maxSeats) db₀ tr db →
    ∀ s ∈ db.sharedRides, s.poolState = .open_ → s.seatCount ≠ s.maxSeats := by
  intro h
  obtain ⟨s, hs, ho, hfull⟩ := samplePooled_full (D := ℕ) fun _ _ ↦ 0
  exact h 1 (Nat.le_refl 1) _ _ _ Db.empty_noPools (samplePooled_run _) s hs ho hfull

end Rcab
