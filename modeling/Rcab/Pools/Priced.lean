import Rcab.Pools.Route

/-!
# The last fare is agreed for the route that is driven

A seat is priced inside its transaction, from stops computed of request data and the members read
there.  The itinerary is computed once more when the pool closes, from the rows and maybe in
another transaction.  For the last passenger seated the two are the same list.
-/

universe u

namespace Rcab

open Dispatch Matching

section Pricing

variable {D : Type u} [LinearOrder D] (dist : Point → Point → D)

/-! ## What a seat is priced from -/

/-- Of all it could be asked, the price is taken in this context only. -/
def PricedFrom {α : Type} (run : SeatFareQuoter → Tx α) (quoteFare : SeatFareQuoter)
    (ctx : SeatFareContext) : Prop :=
  ∀ q : SeatFareQuoter, q ctx = quoteFare ctx → run q = run quoteFare

/-- The step seats a passenger in the pool, at a price for these stops. -/
inductive Prices (db : Db) : Step → PoolId → List OfferStop → Prop
  | opened {t : TxClock} {p : OpenPoolParams} {db' : Db} {outcome : SeatOutcome}
      {ctx : SeatFareContext} (h : openPool dist t db p = .ok (db', .opened outcome))
      (hctx : PricedFrom (fun q ↦ openPool dist t db { p with quoteFare := q }) p.quoteFare ctx) :
      Prices db (.openPool t p) p.poolId ctx.stops
  | joined {t : TxClock} {p : JoinPoolParams} {db' : Db} {closedFull : Bool} {n : ℕ}
      {quote : SeatQuote} {ctx : SeatFareContext}
      (h : joinPool dist t db p = .ok (db', .joined closedFull n quote))
      (hctx : PricedFrom (fun q ↦ joinPool dist t db { p with quoteFare := q }) p.quoteFare ctx) :
      Prices db (.joinPool t p) p.poolId ctx.stops

def openContext (p : OpenPoolParams) : SeatFareContext where
  poolId := p.poolId
  passengerId := p.passengerId
  seatCount := 1
  origin := p.origin
  dest := p.dest
  stops := computeStops dist ⟨p.origin, [⟨p.passengerId, p.origin, p.dest, p.dateNow⟩]⟩

def joinContext (db : Db) (pool : SharedRide) (p : JoinPoolParams) : SeatFareContext where
  poolId := p.poolId
  passengerId := p.joiner.passengerId
  seatCount := pool.seatCount + 1
  origin := p.joiner.origin
  dest := p.joiner.dest
  stops := computeStops dist
    ⟨pool.origin, (listMembers db p.poolId).filter (·.passengerId ≠ p.joiner.passengerId) ++
      [p.joiner]⟩

/-- A transaction that fails without its price is priced in no other context. -/
theorem PricedFrom.eq {α : Type} {run : SeatFareQuoter → Tx α} {quoteFare : SeatFareQuoter}
    {ctx own : SeatFareContext} {r : Db × α} (h : PricedFrom run quoteFare ctx)
    (hrun : run quoteFare = .ok r)
    (hnone : ∀ q : SeatFareQuoter, q own = none → ∃ e, run q = .error e) :
    ctx = own := by
  by_contra hne
  let q : SeatFareQuoter := fun c ↦ if c = ctx then quoteFare c else none
  have hq : q ctx = quoteFare ctx := if_pos rfl
  obtain ⟨e, he⟩ := hnone q (if_neg (Ne.symm hne))
  rw [h q hq, hrun] at he
  cases he

variable {dist} {t : TxClock} {db db' : Db}

theorem openPool_pricedFrom (p : OpenPoolParams) :
    PricedFrom (fun q ↦ openPool dist t db { p with quoteFare := q }) p.quoteFare
      (openContext dist p) := by
  intro q hq
  simp only [openContext] at hq
  simp only [openPool, openPoolInTx, hq]

theorem openPool_none {p : OpenPoolParams} {q : SeatFareQuoter} (hq : q (openContext dist p) = none) :
    ∃ e, openPool dist t db { p with quoteFare := q } = .error e := by
  have htx : ∃ e, openPoolInTx dist t db { p with quoteFare := q } = .error e := by
    simp only [openContext] at hq
    simp only [openPoolInTx, hq]
    cases insertOpenPool t db
      ⟨p.poolId, p.origin, p.dest, p.maxSeats, p.detourBudgetM, p.timeoutMs⟩ with
    | error e => exact ⟨e, rfl⟩
    | ok r => exact ⟨_, rfl⟩
  obtain ⟨e, he⟩ := htx
  exact ⟨e, by simp only [openPool, he]⟩

theorem joinPool_pricedFrom {p : JoinPoolParams} {pool : SharedRide}
    (hpool : lockPool db p.poolId = some pool) :
    PricedFrom (fun q ↦ joinPool dist t db { p with quoteFare := q }) p.quoteFare
      (joinContext dist db pool p) := by
  intro q hq
  simp only [joinContext] at hq
  simp only [joinPool, hpool, hq]

theorem joinPool_none {p : JoinPoolParams} {pool : SharedRide} {q : SeatFareQuoter}
    (hpool : lockPool db p.poolId = some pool) (ho : pool.poolState = .open_)
    (hcap : ¬ pool.maxSeats ≤ pool.seatCount) (hq : q (joinContext dist db pool p) = none) :
    ∃ e, joinPool dist t db { p with quoteFare := q } = .error e := by
  simp only [joinContext] at hq
  simp only [joinPool, hpool, hq]
  rw [if_neg (not_not.mpr ho), if_neg hcap]
  exact ⟨_, rfl⟩

/-! ## The members of a route -/

theorem listMembers_riders (db : Db) (id : PoolId) :
    ((listMembers db id).map SharedRideMember.undated).Perm (db.route id).members := by
  rw [listMembers, List.map_map]
  exact (List.perm_insertionSort MemberOrder _).map _

theorem nodup_riders (db : Db) (id : PoolId) :
    ((db.route id).members.map SharedRideMember.passengerId).Nodup := by
  have hmap : (db.route id).members.map SharedRideMember.passengerId =
      (db.poolView id).members.map PoolMember.passengerId := by
    simp only [Db.route, PoolView.route, List.map_map]
    rfl
  rw [hmap]
  exact Table.nodup_map_filter fun m m' hm hm' hp ↦ Prod.ext (hm.trans hm'.symm) hp

/-- The stops of the members as the closing transaction lists them. -/
theorem computeStops_listMembers (origin : Point) (id : PoolId) :
    computeStops dist ⟨origin, listMembers db id⟩ =
      computeStops dist ⟨origin, (db.route id).members⟩ := by
  rw [← computeStops_undated]
  refine computeStops_perm dist origin (listMembers_riders db id) ?_
  exact ((listMembers_riders db id).map _).nodup_iff.mpr (nodup_riders db id)

/-! ## What a close does to a route -/

@[simp] theorem seatOne_origin (s : SharedRide) : s.seatOne.origin = s.origin := by
  unfold SharedRide.seatOne
  split <;> rfl

theorem route_insertItinerary {poolId : PoolId} {stops : List OfferStop} {u : Unit}
    (h : insertItinerary db poolId stops = .ok (db', u)) (id : PoolId) :
    db'.route id = ⟨(db.route id).origin, (db.route id).members,
      (db.route id).stops ++ if id = poolId then stops else []⟩ := by
  have hplan : (if id = poolId then stops.map (stopRow poolId) else []).map RideStop.plan =
      if id = poolId then stops else [] := by
    split_ifs
    · rw [List.map_map]
      exact List.map_id stops
    · rfl
  rw [Db.route, poolView_insertItinerary h id, PoolView.route, List.map_append, hplan]
  rfl

/-- A close appends the stops of the members there are. -/
theorem route_closeInTxn {pool : SharedRide} {reason : CloseReason} {g : Option ℕ}
    (h : closeInTxn dist t db pool reason = .ok (db', g)) :
    db' = db ∨ (∃ s, db.sharedRides.get pool.rideId = some s ∧ s.poolState = .open_) ∧
      ∀ id, db'.route id = ⟨(db.route id).origin, (db.route id).members, (db.route id).stops ++
        if id = pool.rideId then computeStops dist ⟨pool.origin, (db.route id).members⟩ else []⟩ := by
  rcases closeInTxn_cases h with ⟨rfl, -, -⟩ | ⟨s, _, u, db₁, hs, ho, -, rfl, h₁, rfl⟩
  · exact Or.inl rfl
  refine Or.inr ⟨⟨s, hs, ho⟩, fun id ↦ ?_⟩
  have hkept : RoutesKept db (db.updatePool t.now pool.rideId
      (SharedRide.close reason.state t.now) (SharedRide.close_rideId reason.state t.now)) :=
    routesKept_updatePool _ fun _ ↦ rfl
  refine (route_insertItinerary h₁ id).trans ?_
  rw [computeStops_listMembers, hkept id, hkept pool.rideId]
  by_cases hid : id = pool.rideId
  · rw [if_pos hid, if_pos hid, hid]
  · rw [if_neg hid, if_neg hid]

/-- The rider a new member is. -/
def Matching.NewPoolMember.rider (m : NewPoolMember) : SharedRideMember :=
  ⟨m.passengerId, m.origin, m.dest, 0⟩

theorem route_completeSeat {dateNow : Time} {i : Option SeatIdempotency} {o : SeatOutcome}
    (id : PoolId) : (completeSeat dateNow db i o).route id = db.route id :=
  congrArg PoolView.route (poolView_completeSeat id)

/-- A seat adds its rider to the route. -/
theorem route_insertMember {m : NewPoolMember} {n : ℕ} (h : insertMember t db m = .ok (db', .ok n))
    (id : PoolId) : db'.route id = if id = m.poolId then
      ⟨(db.route id).origin, (db.route id).members ++ [m.rider], (db.route id).stops⟩
      else db.route id := by
  rcases insertMember_eq_ok h with ⟨⟨_, _, hr⟩, -⟩ | ⟨pool, hpool, -, -, -, hdup, -, rfl⟩
  · cases hr
  rw [Db.route, poolView_insertMember hpool hdup]
  split_ifs with hid
  · have horigin : (db.route id).origin = some pool.origin := by
      rw [hid]
      exact congrArg (Option.map SharedRide.origin) hpool
    rw [horigin, PoolView.route, Option.map_some, List.map_append]
    exact congrArg (fun origin ↦ Route.mk (some origin) _ _) (seatOne_origin pool)
  · rfl

/-- A passenger who is seated had no seat in the pool. -/
theorem not_member_of_insertMember {m : NewPoolMember} {n : ℕ}
    (h : insertMember t db m = .ok (db', .ok n)) :
    ∀ x ∈ listMembers db m.poolId, x.passengerId ≠ m.passengerId := by
  rcases insertMember_eq_ok h with ⟨⟨_, _, hr⟩, -⟩ | ⟨pool, -, -, -, -, hdup, -, -⟩
  · cases hr
  intro x hx
  obtain ⟨row, hrow, rfl⟩ := List.mem_map.mp hx
  obtain ⟨hrow, hpool⟩ := Table.mem_filter.mp ((List.mem_insertionSort MemberOrder).mp hrow)
  intro hp
  exact Table.get_eq_none.mp (of_duplicateOf hdup).1 row hrow (Prod.ext hpool hp)

/-! ## The last price -/

variable (dist) in
/-- The pool's route is the one of these stops, which are persisted if any are. -/
structure PricedAs (stops : List OfferStop) (poolId : PoolId) (db : Db) : Prop where
  planned : ∃ origin, (db.route poolId).origin = some origin ∧
    computeStops dist ⟨origin, (db.route poolId).members⟩ = stops
  persisted : (db.route poolId).stops = [] ∨ (db.route poolId).stops = stops

namespace PricedAs

variable {stops : List OfferStop} {poolId : PoolId}

theorem of_route_eq (h : PricedAs dist stops poolId db) (he : db'.route poolId = db.route poolId) :
    PricedAs dist stops poolId db' := ⟨he ▸ h.planned, he ▸ h.persisted⟩

/-- A close persists the stops. -/
theorem closeInTxn {pool : SharedRide} {reason : CloseReason} {g : Option ℕ}
    (h : PricedAs dist stops pool.rideId db) (horigin : (db.route pool.rideId).origin = some pool.origin)
    (hopen : ∀ s, db.sharedRides.get pool.rideId = some s → s.poolState = .open_ →
      (db.route pool.rideId).stops = [])
    (hc : closeInTxn dist t db pool reason = .ok (db', g)) : PricedAs dist stops pool.rideId db' := by
  rcases route_closeInTxn hc with rfl | ⟨⟨s, hs, ho⟩, hroute⟩
  · exact h
  have hstops : computeStops dist ⟨pool.origin, (db.route pool.rideId).members⟩ = stops := by
    obtain ⟨origin, ho, hplan⟩ := h.planned
    obtain rfl := Option.some.inj (horigin.symm.trans ho)
    exact hplan
  have hr := hroute pool.rideId
  rw [if_pos rfl, hopen s hs ho, List.nil_append, hstops] at hr
  constructor
  · rw [hr]
    exact h.planned
  · rw [hr]
    exact Or.inr rfl

end PricedAs

/-- An open pool has no stops. -/
theorem stops_of_open (hi : PoolsInv db) {id : PoolId} {s : SharedRide}
    (hs : db.sharedRides.get id = some s) (ho : s.poolState = .open_) : (db.route id).stops = [] := by
  rw [Db.route, PoolView.route, ((hi.pool id).whileOpen s hs ho).2]
  rfl

/-- The pool that was opened, priced for its opener. -/
theorem openPool_opened (hi : PoolsInv db) {p : OpenPoolParams} {outcome : SeatOutcome}
    (h : openPool dist t db p = .ok (db', .opened outcome)) :
    db.sharedRides.get p.poolId = none ∧ PricedAs dist (openContext dist p).stops p.poolId db' ∧
      ∀ id, id ≠ p.poolId → db'.route id = db.route id := by
  rcases openPool_cases h with ⟨⟨_, hr⟩, -⟩ | ⟨db₁, at_, quote, db₂, n, _, h₁, h₂, -, -, rfl⟩
  · cases hr
  obtain ⟨row, hid, -, -, -, horigin, -, -, hfree', rfl⟩ := insertOpenPool_eq_ok h₁
  have hid : row.rideId = p.poolId := hid
  have hfree : db.sharedRides.get p.poolId = none := hid ▸ hfree'
  have hinsert : ∀ id, ({ db with sharedRides := db.sharedRides.insert row } : Db).route id =
      if id = p.poolId then ⟨some p.origin, (db.route id).members, (db.route id).stops⟩
      else db.route id := by
    intro id
    rw [Db.route, poolView_insertPool hfree', hid]
    split_ifs
    · rw [PoolView.route, Option.map_some, horigin]
      rfl
    · rfl
  have hroute : ∀ (o : SeatOutcome) (id : PoolId), (completeSeat p.dateNow
      (Outbox.enqueueOutbox t db₂ ⟨.sharedRide, p.poolId, 0, .poolExpireSchedule at_, none⟩)
        p.idempotency o).route id = db₂.route id := fun o id ↦ route_completeSeat id
  obtain ⟨hm, hs⟩ := (hi.pool p.poolId).absent hfree
  have hempty : db.route p.poolId = ⟨none, [], []⟩ := by
    rw [Db.route, PoolView.route, hm, hs, show (db.poolView p.poolId).row = none from hfree]
    rfl
  refine ⟨hfree, ?_, fun id hne ↦ ?_⟩
  · have hr := route_insertMember h₂ p.poolId
    rw [if_pos rfl, hinsert, if_pos rfl, hempty] at hr
    refine PricedAs.of_route_eq ?_ (hroute _ p.poolId)
    constructor
    · rw [hr]
      refine ⟨p.origin, rfl, ?_⟩
      exact computeStops_undated dist p.origin [⟨p.passengerId, p.origin, p.dest, p.dateNow⟩]
    · rw [hr]
      exact Or.inl rfl
  · have hr := route_insertMember h₂ id
    rw [if_neg hne, hinsert, if_neg hne] at hr
    exact (hroute _ id).trans hr

/-- The pool that was joined, priced for its new member. -/
theorem joinPool_joined (hi : PoolsInv db) {p : JoinPoolParams} {closedFull : Bool} {n : ℕ}
    {quote : SeatQuote} (h : joinPool dist t db p = .ok (db', .joined closedFull n quote)) :
    ∃ pool, lockPool db p.poolId = some pool ∧ pool.poolState = .open_ ∧
      ¬ pool.maxSeats ≤ pool.seatCount ∧
      PricedAs dist (joinContext dist db pool p).stops p.poolId db' ∧
      ∀ id, id ≠ p.poolId → db'.route id = db.route id := by
  rcases joinPool_cases h with
    ⟨⟨_, _, hr⟩, -⟩ | ⟨pool, _, db₁, m, db₂, full, _, hpool, ho, hcap, h₁, h₂, -, -, rfl⟩
  · cases hr
  have hid : pool.rideId = p.poolId := Table.key_of_get hpool
  have hseat := route_insertMember h₁
  have horigin : (db.route p.poolId).origin = some pool.origin :=
    congrArg (Option.map SharedRide.origin) hpool
  have hstops : (db.route p.poolId).stops = [] := stops_of_open hi hpool ho
  have hown := hseat p.poolId
  rw [if_pos rfl, hstops] at hown
  -- The joiner was no member, so it is added to all of them.
  have hctx : (joinContext dist db pool p).stops = computeStops dist
      ⟨pool.origin, (db.route p.poolId).members ++
        [⟨p.joiner.passengerId, p.joiner.origin, p.joiner.dest, 0⟩]⟩ := by
    have hall : (listMembers db p.poolId).filter (·.passengerId ≠ p.joiner.passengerId) =
        listMembers db p.poolId :=
      List.filter_eq_self.mpr fun x hx ↦ decide_eq_true (not_member_of_insertMember h₁ x hx)
    have hperm : ((listMembers db p.poolId ++ [p.joiner]).map SharedRideMember.undated).Perm
        ((db.route p.poolId).members ++
          [⟨p.joiner.passengerId, p.joiner.origin, p.joiner.dest, 0⟩]) := by
      rw [List.map_append]
      exact (listMembers_riders db p.poolId).append_right _
    simp only [joinContext]
    rw [hall, ← computeStops_undated]
    refine computeStops_perm dist pool.origin hperm ?_
    have hnodup := nodup_riders db₁ p.poolId
    rw [hown] at hnodup
    exact (hperm.map _).nodup_iff.mpr hnodup
  have hpriced : PricedAs dist (joinContext dist db pool p).stops p.poolId db₁ := by
    constructor
    · rw [hown]
      exact ⟨pool.origin, horigin, hctx.symm⟩
    · rw [hown]
      exact Or.inl rfl
  have hclosed : PricedAs dist (joinContext dist db pool p).stops p.poolId db₂ ∧
      ∀ id, id ≠ p.poolId → db₂.route id = db₁.route id := by
    rcases closeWhenFull_cases h₂ with ⟨-, rfl, -⟩ | ⟨-, g, h₃, -⟩
    · exact ⟨hpriced, fun _ _ ↦ rfl⟩
    · constructor
      · rw [← hid] at hpriced hown horigin ⊢
        refine hpriced.closeInTxn ?_ (fun _ _ _ ↦ ?_) h₃
        · rw [hown]
          exact horigin
        · rw [hown]
      · intro id hne
        rcases route_closeInTxn h₃ with rfl | ⟨-, hroute⟩
        · rfl
        · rw [hroute id, if_neg (hid ▸ hne), List.append_nil]
  refine ⟨pool, hpool, ho, Nat.not_le.mpr hcap, hclosed.1.of_route_eq (route_completeSeat _),
    fun id hne ↦ ?_⟩
  rw [route_completeSeat, hclosed.2 id hne, hseat id, if_neg hne]

/-- A timeout persists the stops, or leaves them. -/
theorem PricedAs.closeIfOpen {stops : List OfferStop} {id poolId : PoolId} (hi : PoolsInv db)
    (h : PricedAs dist stops id db) {r : CloseIfOpenResult}
    (hc : closeIfOpen dist t db poolId = .ok (db', r)) : PricedAs dist stops id db' := by
  obtain ⟨rfl, -⟩ | ⟨pool, hpool, -, ⟨-, -, rfl⟩ | ⟨-, g, h₁, -⟩⟩ := closeIfOpen_eq_ok hc
  · exact h
  · have hroutes : RoutesKept db (db.updatePool t.now poolId (SharedRide.retire t.now)
        (SharedRide.retire_rideId t.now)) :=
      routesKept_updatePool (SharedRide.retire_rideId t.now) fun _ ↦ rfl
    exact h.of_route_eq (hroutes id)
  · by_cases hown : id = pool.rideId
    · subst hown
      have horigin : (db.route pool.rideId).origin = some pool.origin := by
        rw [Table.key_of_get hpool]
        exact congrArg (Option.map SharedRide.origin) hpool
      exact h.closeInTxn horigin (fun s hs ho ↦ stops_of_open hi hs ho) h₁
    · rcases route_closeInTxn h₁ with rfl | ⟨-, hroute⟩
      · exact h
      · refine h.of_route_eq ?_
        rw [hroute id, if_neg hown, List.append_nil]

/-- Whoever was seated last, the pool goes by the stops it was priced for. -/
theorem PricedAs.exec {stops : List OfferStop} {id : PoolId} (hi : PoolsInv db)
    (h : PricedAs dist stops id db) {e : Step} (hlast : ∀ stops', ¬ Prices dist db e id stops') :
    PricedAs dist stops id (exec dist db e) := by
  cases e with
  | openPool t p =>
      refine Tx.commit_of (fun db' r hr ↦ ?_) h
      cases r with
      | rejected reason =>
          rcases openPool_cases hr with ⟨-, rfl⟩ | ⟨_, _, _, _, _, _, -, -, -, hr, -⟩
          · exact h
          · cases hr
      | opened outcome =>
          obtain ⟨hfree, -, hothers⟩ := openPool_opened hi hr
          refine h.of_route_eq (hothers id ?_)
          -- The pool is there, and this one was not.
          rintro rfl
          obtain ⟨origin, ho, -⟩ := h.planned
          rw [show (db.route p.poolId).origin = none from
            congrArg (Option.map SharedRide.origin) hfree] at ho
          cases ho
  | joinPool t p =>
      refine Tx.commit_of (fun db' r hr ↦ ?_) h
      cases r with
      | failed reason existing => exact joinPool_failed hr ▸ h
      | joined closedFull n quote =>
          obtain ⟨pool, hpool, -, -, -, hothers⟩ := joinPool_joined hi hr
          refine h.of_route_eq (hothers id ?_)
          rintro rfl
          exact hlast _ (.joined hr (joinPool_pricedFrom hpool))
  | closeIfOpen t poolId => exact Tx.commit_of (fun db' r hr ↦ h.closeIfOpen hi hr) h
  | _ => exact h.of_route_eq (routesKept_exec dist (by trivial) id)

theorem Prices.pricedAs {stops : List OfferStop} {id : PoolId} (hi : PoolsInv db) {e : Step}
    (h : Prices dist db e id stops) : PricedAs dist stops id (Rcab.exec dist db e) := by
  cases h with
  | opened h hctx =>
      obtain rfl := hctx.eq h fun q hq ↦ openPool_none hq
      obtain ⟨-, hpriced, -⟩ := openPool_opened hi h
      simpa only [Rcab.exec, h, Tx.commit_ok] using hpriced
  | joined h hctx =>
      obtain ⟨pool, hpool, ho, hcap, hpriced, -⟩ := joinPool_joined hi h
      obtain rfl := hctx.eq h fun q hq ↦ joinPool_none hpool ho hcap hq
      simpa only [Rcab.exec, h, Tx.commit_ok] using hpriced

variable (dist) in
/-- In any run: once a passenger is seated in a pool, in which nobody is seated after that, the
pool's stops from its close on are the ones that passenger's seat was priced from, in type, place,
passenger and index. -/
theorem last_price_is_of_the_route {db₀ : Db} {tr tr' : List (Db × Step)} (h₀ : db₀.NoPools)
    (hr : Run (step dist) db₀ tr db) {e : Step} {id : PoolId} {stops : List OfferStop}
    (hp : Prices dist db e id stops) (hr' : Run (step dist) (exec dist db e) tr' db')
    (hlast : ∀ x ∈ tr', ∀ stops', ¬ Prices dist x.1 x.2 id stops') :
    (∃ s, db'.sharedRides.get id = some s) ∧
      ∀ s, db'.sharedRides.get id = some s → s.poolState ≠ .open_ →
        (findByRideId db' id).map RideStop.plan = stops := by
  have hi : PoolsInv db := (PoolsInv.of_noPools h₀).run hr
  have hi₁ : PoolsInv (exec dist db e) := hi.step rfl
  have key : PoolsInv db' ∧ PricedAs dist stops id db' := by
    have hrun : (∀ x ∈ tr', ∀ stops', ¬ Prices dist x.1 x.2 id stops') →
        PoolsInv db' ∧ PricedAs dist stops id db' := by
      refine hr'.invariant_trace (I := fun tr' db' ↦ (∀ x ∈ tr', ∀ stops',
        ¬ Prices dist x.1 x.2 id stops') → PoolsInv db' ∧ PricedAs dist stops id db') ?_
        fun _ ↦ ⟨hi₁, hp.pricedAs hi⟩
      rintro tr₁ s e' s' ih hst hno
      obtain ⟨his, hps⟩ := ih fun x hx ↦ hno x (List.mem_append_left _ hx)
      refine ⟨his.step hst, ?_⟩
      obtain rfl := hst
      exact hps.exec his (hno (s, e') (List.mem_append_right _ List.mem_cons_self))
    exact hrun hlast
  obtain ⟨hi', hpriced⟩ := key
  obtain ⟨origin, ho, -⟩ := hpriced.planned
  obtain ⟨s, hs, -⟩ := Option.map_eq_some_iff.mp ho
  refine ⟨⟨s, hs⟩, fun s' hs' hne ↦ ?_⟩
  -- A pool that was closed has stops, so they are the ones that were persisted.
  rw [(hi'.pool id).findByRideId_eq]
  rcases hpriced.persisted with hnil | hstops
  · obtain ⟨-, -, hit⟩ := (hi'.pool id).onceClosed s' hs' hne
    obtain ⟨hcount, hpos⟩ := (hi'.pool id).seats s' hs'
    have hlen := hit.length
    have hzero : ((db'.poolView id).stops.map RideStop.plan).length = 0 := by
      rw [show (db'.poolView id).stops.map RideStop.plan = [] from hnil]
      rfl
    rw [hzero, List.length_map] at hlen
    omega
  · exact hstops

end Pricing

/-- The sample pool goes by the stops that its opener's seat was priced from. -/
theorem sampleTimedOut_route : ∃ s, sampleTimedOut.sharedRides.get 1 = some s ∧
    (findByRideId sampleTimedOut 1).map RideStop.plan =
      (openContext (D := ℕ) (fun _ _ ↦ 0) samplePool).stops := by
  have hok : ∃ db' outcome, openPool (D := ℕ) (fun _ _ ↦ 0) ⟨0, 0⟩ .empty samplePool =
      .ok (db', .opened outcome) := ⟨_, _, rfl⟩
  obtain ⟨db', outcome, hok⟩ := hok
  have hclose : step (D := ℕ) (fun _ _ ↦ 0) samplePooled (.closeIfOpen ⟨60000, 60000⟩ 1)
      sampleTimedOut := rfl
  obtain ⟨⟨s, hs⟩, hstops⟩ := last_price_is_of_the_route (fun _ _ ↦ 0) Db.empty_noPools .nil
    (.opened hok (openPool_pricedFrom samplePool)) (.single hclose) (by
      rintro x hx stops' hp
      rw [List.mem_singleton.mp hx] at hp
      cases hp)
  refine ⟨s, hs, hstops s hs ?_⟩
  have hclosed : (sampleTimedOut.sharedRides.get samplePool.poolId).all
      fun s ↦ s.poolState ≠ .open_ := by
    decide
  rw [hs] at hclosed
  simpa using hclosed

end Rcab
