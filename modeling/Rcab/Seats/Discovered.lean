import Rcab.Matching.Discovery
import Rcab.Pools.Capacity
import Rcab.Pools.Membership
import Rcab.Seats.Places
import Rcab.Seats.System

/-!
# Who shares a pool

The shared bookings with the search that finds their pools: a keyed request searches in a statement
of its own and joins later, one candidate after the other, and a request without a key joins pools
that some search for its places has found.  However searches, joins, closings and everything else
interleave, whoever has a seat opened the pool or suits it (`seats_suit`), and a request tries what
is left of its candidates from the best on.
-/

universe u v

namespace Rcab

open Rides Matching

variable {𝕜 : Type v} [Field 𝕜] [LinearOrder 𝕜]

/-- The bookings, and what requests without a key have found. -/
structure SearchWorld where
  seats : World
  found : List (Point × Point × PoolId)

inductive SearchEvent where
  | seats (e : Event)
  /-- A request without a key searches. -/
  | search (origin dest : Point) (pools : List PoolId)

/-- A search of the pools there are, with routes the router gave. -/
def Discovered (c : Matcher 𝕜) (routed : Point → Point → List (Coord 𝕜) → Prop) (db : Db)
    (origin dest : Point) (result : Option (List PoolId)) : Prop :=
  ∃ candidates polylines, candidates.Perm (c.findCandidates db origin dest) ∧
    (∀ s ∈ candidates, ∀ p₁ p₂, polylines s.rideId = some (p₁, p₂) →
      routed origin dest p₁ ∧ routed s.origin s.dest p₂) ∧
    (c.discover polylines origin dest candidates).map (List.map (·.pool.rideId)) = result

section System

variable (c : Matcher 𝕜) (routed : Point → Point → List (Coord 𝕜) → Prop)

/-- Candidates come from a search. -/
def SearchEvent.Allowed (w : SearchWorld) : SearchEvent → Prop
  | .seats e => e.Allowed w.seats ∧
      (∀ i env r, e = .run i env → w.seats.requests i = some (r, .candidates) →
        Discovered c routed w.seats.db r.origin r.dest env.candidates) ∧
      ∀ t p, e = .other (.joinPool t p) → (p.joiner.origin, p.joiner.dest, p.poolId) ∈ w.found
  | .search origin dest pools => Discovered c routed w.seats.db origin dest (some pools)

variable {D : Type u} [LinearOrder D] (dist : Point → Point → D)

def SearchWorld.next (w : SearchWorld) : SearchEvent → SearchWorld
  | .seats e => { w with seats := w.seats.next dist e }
  | .search origin dest pools => { w with found := pools.map ((origin, dest, ·)) ++ w.found }

/-- The system. -/
def SearchWorld.step (w : SearchWorld) (e : SearchEvent) (w' : SearchWorld) : Prop :=
  e.Allowed c routed w ∧ w.next dist e = w'

end System

/-- No request, no seat, nothing found. -/
structure SearchWorld.Initial (w : SearchWorld) : Prop where
  seats : w.seats.Initial
  found : w.found = []

/-! ## Suiting a pool -/

variable {c : Matcher 𝕜} {routed : Point → Point → List (Coord 𝕜) → Prop} {db db' : Db}
  {origin dest : Point} {poolId : PoolId} {composite : 𝕜} {seat : Option PoolMember}

/-- The pool of that name suits a passenger. -/
def SuitsPool (c : Matcher 𝕜) (routed : Point → Point → List (Coord 𝕜) → Prop) (db : Db)
    (origin dest : Point) (poolId : PoolId) (composite : 𝕜) : Prop :=
  ∃ s ∈ db.sharedRides, s.rideId = poolId ∧ c.Suits routed origin dest s composite

/-- The passenger of a seat opened its pool, or suits it. -/
def SeatSuits (c : Matcher 𝕜) (routed : Point → Point → List (Coord 𝕜) → Prop) (db : Db)
    (m : PoolMember) : Prop :=
  ∃ s ∈ db.sharedRides, s.rideId = m.poolId ∧
    (s.origin = m.origin ∧ s.dest = m.dest ∨ ∃ composite, c.Suits routed m.origin m.dest s composite)

/-- Pools in the order they are tried in, from the best on. -/
def SuitInOrder (c : Matcher 𝕜) (routed : Point → Point → List (Coord 𝕜) → Prop) (db : Db)
    (origin dest : Point) (pools : List PoolId) : Prop :=
  ∃ composites : List 𝕜, composites.Pairwise (fun a b ↦ b ≤ a) ∧
    List.Forall₂ (SuitsPool c routed db origin dest) pools composites

theorem suits_of_sameRoute {s s' : SharedRide} (e : SameRoute s s')
    (h : c.Suits routed origin dest s composite) : c.Suits routed origin dest s' composite := by
  have ho : c.detourOrigin origin s' = c.detourOrigin origin s := by
    rw [Matcher.detourOrigin, e.origin]
    rfl
  have hd : c.detourDest dest s' = c.detourDest dest s := by
    rw [Matcher.detourDest, e.dest]
    rfl
  have hcomp (score : 𝕜) : c.composite score origin dest s' = c.composite score origin dest s := by
    rw [Matcher.composite, ho, hd]
    rfl
  obtain ⟨p₁, p₂, score, h₁, h₂, hrest⟩ := h.similar
  refine ⟨by rw [e.origin]; exact h.originNear, by rw [e.dest]; exact h.destNear,
    ⟨p₁, p₂, score, h₁, ?_, ?_⟩, ?_, ?_⟩
  · rw [e.origin, e.dest]
    exact h₂
  · rw [hcomp]
    exact hrest
  · rw [ho, e.detourBudgetM]
    exact h.originDetour
  · rw [hd, e.detourBudgetM]
    exact h.destDetour

theorem SuitsPool.mono (h : SuitsPool c routed db origin dest poolId composite)
    (hst : PlaceStep seat db db') : SuitsPool c routed db' origin dest poolId composite := by
  obtain ⟨s, hs, hid, hsuits⟩ := h
  obtain ⟨s', hs', e⟩ := hst.pools s hs
  exact ⟨s', hs', e.rideId.trans hid, suits_of_sameRoute e hsuits⟩

theorem SuitInOrder.mono {pools : List PoolId} (h : SuitInOrder c routed db origin dest pools)
    (hst : PlaceStep seat db db') : SuitInOrder c routed db' origin dest pools := by
  obtain ⟨composites, hsorted, hall⟩ := h
  exact ⟨composites, hsorted, hall.imp fun _ _ h ↦ h.mono hst⟩

theorem SuitInOrder.tail {pools : List PoolId}
    (h : SuitInOrder c routed db origin dest (poolId :: pools)) :
    (∃ composite, SuitsPool c routed db origin dest poolId composite) ∧
      SuitInOrder c routed db origin dest pools := by
  obtain ⟨composites, hsorted, hall⟩ := h
  cases hall with
  | cons hhead hall => exact ⟨⟨_, hhead⟩, _, hsorted.tail, hall⟩

theorem SuitInOrder.of_mem {pools : List PoolId} (h : SuitInOrder c routed db origin dest pools)
    (hid : poolId ∈ pools) : ∃ composite, SuitsPool c routed db origin dest poolId composite := by
  induction pools with
  | nil => cases hid
  | cons id pools ih =>
    obtain ⟨hhead, htail⟩ := h.tail
    rcases List.mem_cons.mp hid with rfl | hid
    · exact hhead
    · exact ih htail hid

/-- Whoever suits the pool may have a seat in it. -/
theorem SuitsPool.seatSuits {m : PoolMember}
    (h : SuitsPool c routed db m.origin m.dest m.poolId composite) : SeatSuits c routed db m := by
  obtain ⟨s, hs, hid, hsuits⟩ := h
  exact ⟨s, hs, hid, Or.inr ⟨composite, hsuits⟩⟩

theorem SeatSuits.mono {m m' : PoolMember} (h : SeatSuits c routed db m) (e : SamePlaces m m')
    (hst : PlaceStep seat db db') : SeatSuits c routed db' m' := by
  obtain ⟨s, hs, hid, hsuits⟩ := h
  obtain ⟨s', hs', es⟩ := hst.pools s hs
  refine ⟨s', hs', es.rideId.trans (hid.trans e.poolId.symm), ?_⟩
  rw [e.origin, e.dest, es.origin, es.dest]
  exact hsuits.imp id fun ⟨composite, h⟩ ↦ ⟨composite, suits_of_sameRoute es h⟩

/-- What a search finds suits. -/
theorem suitInOrder_of_discovered {pools : List PoolId}
    (h : Discovered c routed db origin dest (some pools)) :
    SuitInOrder c routed db origin dest pools := by
  obtain ⟨candidates, polylines, hperm, hrouted, hmap⟩ := h
  obtain ⟨l, hl, rfl⟩ := Option.map_eq_some_iff.mp hmap
  obtain ⟨hsuits, hsorted⟩ := Matcher.discover_spec hperm hrouted hl
  refine ⟨l.map (·.composite), List.pairwise_map.mpr hsorted, ?_⟩
  rw [List.forall₂_map_left_iff, List.forall₂_map_right_iff, List.forall₂_same]
  exact fun x hx ↦ ⟨x.pool, (hsuits x hx).1, rfl, (hsuits x hx).2⟩

/-! ## A statement of a request -/

section Statements

variable {D : Type u} [LinearOrder D] {dist : Point → Point → D} {env : Env} {r : SharedRequest}
  {phase : Phase}

/-- A seat is added to the pool that is tried, or to a new one, and candidates come from the search
or are what is left of them. -/
structure Places (env : Env) (r : SharedRequest) (phase : Phase) (db : Db) (e : Effect) : Prop where
  step : PlaceStep none db e.db ∨ ∃ m, PlaceStep (some m) db e.db ∧ m.origin = r.origin ∧
    m.dest = r.dest ∧ ((∃ rest, phase = .join (m.poolId :: rest)) ∨
      ∃ s ∈ e.db.sharedRides, s.rideId = m.poolId ∧ s.origin = m.origin ∧ s.dest = m.dest)
  phase : ∀ pools, e.phase = .join pools →
    phase = .candidates ∧ env.candidates = some pools ∨ ∃ poolId, phase = .join (poolId :: pools)

/-- Neither. -/
theorem Places.of_eq {e : Effect} (hs : e.db.sharedRides = db.sharedRides)
    (hm : e.db.poolMember = db.poolMember) (hp : ∀ pools, e.phase ≠ .join pools) :
    Places env r phase db e :=
  ⟨Or.inl (.of_eq hs hm), fun pools h ↦ absurd h (hp pools)⟩

theorem places_tryJoin {rest : List PoolId} :
    Places env r (.join (poolId :: rest)) db (tryJoin dist env db r poolId rest) := by
  have hrest : ∀ pools, Phase.join rest = .join pools →
      Phase.join (poolId :: rest) = .candidates ∧ env.candidates = some pools ∨
        ∃ id, Phase.join (poolId :: rest) = .join (id :: pools) :=
    fun pools h ↦ Or.inr ⟨poolId, by rw [Phase.join.inj h]⟩
  unfold tryJoin
  split_ifs
  · exact ⟨Or.inl .refl, hrest⟩
  split
  · exact .of_eq rfl rfl (by simp [throwing])
  · rename_i h
    refine ⟨?_, by simp⟩
    rcases placeStep_joinPool h with rfl | ⟨m, hst, hp, ho, hd⟩
    · exact Or.inl .refl
    · exact Or.inr ⟨m, hst, ho, hd, Or.inl ⟨rest, by rw [hp]⟩⟩
  · rename_i h
    obtain rfl := joinPool_failed h
    exact .of_eq rfl rfl (by simp)
  · rename_i h
    obtain rfl := joinPool_failed h
    exact .of_eq rfl rfl (by simp)
  · rename_i h
    obtain rfl := joinPool_failed h
    exact .of_eq rfl rfl (by simp [throwing])
  · rename_i h
    obtain rfl := joinPool_failed h
    exact ⟨Or.inl .refl, hrest⟩

theorem places_tryOpen : Places env r .openPool db (tryOpen dist env db r) := by
  unfold tryOpen
  split_ifs
  · exact .of_eq rfl rfl (by simp [throwing])
  split
  · exact .of_eq rfl rfl (by simp [throwing])
  · rename_i h
    refine ⟨?_, by simp⟩
    rcases placeStep_openPool h with rfl | ⟨m, hst, ho, hd, hs⟩
    · exact Or.inl .refl
    · exact Or.inr ⟨m, hst, ho, hd, Or.inr hs⟩
  · rename_i h
    obtain rfl := openPool_rejected h
    exact .of_eq rfl rfl (by simp)
  · rename_i h
    obtain rfl := openPool_rejected h
    exact .of_eq rfl rfl (by simp [throwing])

variable (dist) in
theorem places_statement (phase : Phase) :
    Places env r phase db (statement dist env db r phase) := by
  cases phase with
  | insert =>
    simp only [statement]
    split <;> rename_i db' h <;> obtain ⟨hm, hs⟩ := claimInsert_frame h <;>
      exact .of_eq hs hm (by simp)
  | reclaim =>
    simp only [statement]
    split <;> rename_i db' h <;> obtain ⟨rfl, -⟩ := Prod.mk.inj h <;>
      exact .of_eq rfl rfl (by simp)
  | read =>
    simp only [statement, readExisting]
    split
    · exact .of_eq rfl rfl (by simp)
    split_ifs
    · exact .of_eq rfl rfl (by simp)
    split <;> exact .of_eq rfl rfl (by simp)
  | lookup onNull =>
    simp only [statement, lookupRecord]
    split <;> exact .of_eq rfl rfl (by simp)
  | lookupSeat onNull =>
    simp only [statement, lookupByKey]
    split
    · split <;> exact .of_eq rfl rfl (by simp [throwing])
    · split <;> exact .of_eq rfl rfl (by simp)
  | candidates =>
    simp only [statement]
    split
    · exact .of_eq rfl rfl (by simp [throwing])
    · rename_i pools hpools
      exact ⟨Or.inl .refl, fun pools' h ↦ Or.inl ⟨rfl, by rw [hpools, Phase.join.inj h]⟩⟩
  | join candidates =>
    cases candidates with
    | nil => exact .of_eq rfl rfl (by simp [statement])
    | cons poolId rest => exact places_tryJoin
  | openPool => exact places_tryOpen
  | findSeat poolId =>
    simp only [statement]
    split
    · exact .of_eq rfl rfl (by simp [throwing])
    · split <;> exact .of_eq rfl rfl (by simp [throwing])
  | complete response tries => exact .of_eq rfl rfl (by simp [statement])
  | release error => exact .of_eq rfl rfl (by simp [statement])
  | succeeded response => exact .of_eq rfl rfl (by simp [statement])
  | failed error => exact .of_eq rfl rfl (by simp [statement])
  | crashed => exact .of_eq rfl rfl (by simp [statement])

/-- A throw ends the tries. -/
theorem onThrow_ne_join {phase : Phase} (pools : List PoolId) : phase.onThrow ≠ .join pools := by
  cases phase with
  | complete response tries => rcases tries with _ | _ | tries <;> simp [Phase.onThrow]
  | _ => simp [Phase.onThrow]

variable (dist) in
theorem places_statementFaulty (phase : Phase) :
    Places env r phase db (statementFaulty dist env db r phase) := by
  have h : Places env r phase db (statement dist env db r phase) := places_statement dist phase
  unfold statementFaulty
  dsimp only
  split
  · exact h
  · exact ⟨h.step, fun pools hp ↦ absurd hp (onThrow_ne_join pools)⟩
  · exact .of_eq rfl rfl onThrow_ne_join
  · exact ⟨h.step, by simp⟩
  · exact .of_eq rfl rfl (by simp)

end Statements

/-! ## Runs -/

section Runs

variable {D : Type u} [LinearOrder D] {dist : Point → Point → D} {w₀ w w' : SearchWorld}
  {e : SearchEvent}

/-- What every reachable world satisfies. -/
structure SuitInv (c : Matcher 𝕜) (routed : Point → Point → List (Coord 𝕜) → Prop)
    (w : SearchWorld) : Prop where
  seats : ∀ m ∈ w.seats.db.poolMember, SeatSuits c routed w.seats.db m
  found : ∀ x ∈ w.found, ∃ composite, SuitsPool c routed w.seats.db x.1 x.2.1 x.2.2 composite
  requests : ∀ i r pools, w.seats.requests i = some (r, .join pools) →
    SuitInOrder c routed w.seats.db r.origin r.dest pools

namespace SuitInv

theorem initial (h : w.Initial) : SuitInv c routed w where
  seats m hm := absurd hm (h.seats.seats m)
  found x hx := by simp [h.found] at hx
  requests i r pools hi := by simp [h.seats.requests i] at hi

/-- A transaction whose new seat suits, after which candidates are old ones or suit. -/
theorem commit (h : SuitInv c routed w) {requests : ℕ → Option (SharedRequest × Phase)}
    (hst : PlaceStep seat w.seats.db db')
    (hnew : ∀ m, seat = some m → SeatSuits c routed db' m)
    (hreq : ∀ i r pools, requests i = some (r, .join pools) →
      w.seats.requests i = some (r, .join pools) ∨
        SuitInOrder c routed w.seats.db r.origin r.dest pools) :
    SuitInv c routed ⟨⟨db', requests⟩, w.found⟩ where
  seats m' hm' := by
    rcases hst.seats m' hm' with ⟨m, hm, e⟩ | ⟨m, hm, e⟩
    · exact (h.seats m hm).mono e hst
    · exact (hnew m hm).mono e .refl
  found x hx := by
    obtain ⟨composite, hsuits⟩ := h.found x hx
    exact ⟨composite, hsuits.mono hst⟩
  requests i r pools hi := by
    rcases hreq i r pools hi with hold | hsuit
    · exact (h.requests i r pools hold).mono hst
    · exact hsuit.mono hst

/-- A request's statement. -/
theorem run (h : SuitInv c routed w) {i : ℕ} {env : Env} {r : SharedRequest} {phase : Phase}
    (hi : w.seats.requests i = some (r, phase))
    (hsearch : phase = .candidates →
      Discovered c routed w.seats.db r.origin r.dest env.candidates) :
    SuitInv c routed ⟨⟨(statementFaulty dist env w.seats.db r phase).db,
      Function.update w.seats.requests i
        (some (r, (statementFaulty dist env w.seats.db r phase).phase))⟩, w.found⟩ := by
  have hplaces : Places env r phase w.seats.db (statementFaulty dist env w.seats.db r phase) :=
    places_statementFaulty dist phase
  have hreq : ∀ j r' pools, Function.update w.seats.requests i
      (some (r, (statementFaulty dist env w.seats.db r phase).phase)) j = some (r', .join pools) →
      w.seats.requests j = some (r', .join pools) ∨
        SuitInOrder c routed w.seats.db r'.origin r'.dest pools := by
    intro j r' pools hj
    rcases requests_update hj with ⟨rfl, rfl, hp⟩ | ⟨-, hj⟩
    · right
      rcases hplaces.phase pools hp.symm with ⟨hc, hcand⟩ | ⟨id, rfl⟩
      · exact suitInOrder_of_discovered (hcand ▸ hsearch hc)
      · exact (h.requests j r' _ hi).tail.2
    · exact Or.inl hj
  rcases hplaces.step with hst | ⟨m, hst, ho, hd, ⟨rest, rfl⟩ | ⟨s, hs, hid, hso, hsd⟩⟩
  · exact h.commit hst (fun _ hm ↦ by cases hm) hreq
  · refine h.commit hst (fun m' hm ↦ ?_) hreq
    obtain rfl := Option.some.inj hm
    obtain ⟨⟨composite, hsuits⟩, -⟩ := (h.requests i r _ hi).tail
    rw [← ho, ← hd] at hsuits
    exact (hsuits.mono hst).seatSuits
  · refine h.commit hst (fun m' hm ↦ ?_) hreq
    obtain rfl := Option.some.inj hm
    exact ⟨s, hs, hid, Or.inl ⟨hso, hsd⟩⟩

/-- Any other transaction: who joins has found the pool. -/
theorem other (h : SuitInv c routed w) {s : Step}
    (hjoin : ∀ t p, s = .joinPool t p → (p.joiner.origin, p.joiner.dest, p.poolId) ∈ w.found) :
    SuitInv c routed ⟨⟨exec dist w.seats.db s, w.seats.requests⟩, w.found⟩ := by
  have hreq : ∀ j r pools, w.seats.requests j = some (r, .join pools) →
      w.seats.requests j = some (r, .join pools) ∨
        SuitInOrder c routed w.seats.db r.origin r.dest pools := fun _ _ _ hj ↦ Or.inl hj
  rcases placeStep_exec dist s with hst | ⟨m, hst, ⟨t, p, hs, hid, ho, hd⟩ | ⟨s', hs', hrest⟩⟩
  · exact h.commit hst (fun _ hm ↦ by cases hm) hreq
  · refine h.commit hst (fun m' hm ↦ ?_) hreq
    obtain rfl := Option.some.inj hm
    obtain ⟨composite, hsuits⟩ := h.found _ (hjoin t p hs)
    dsimp only at hsuits
    rw [← hid, ← ho, ← hd] at hsuits
    exact (hsuits.mono hst).seatSuits
  · refine h.commit hst (fun m' hm ↦ ?_) hreq
    obtain rfl := Option.some.inj hm
    exact ⟨s', hs', hrest.1, Or.inl hrest.2⟩

theorem step (h : SuitInv c routed w) (hst : w.step c routed dist e w') : SuitInv c routed w' := by
  obtain ⟨hal, rfl⟩ := hst
  cases e with
  | search origin dest pools =>
    refine ⟨h.seats, fun x hx ↦ ?_, h.requests⟩
    rcases List.mem_append.mp hx with hx | hx
    · obtain ⟨id, hid, rfl⟩ := List.mem_map.mp hx
      exact (suitInOrder_of_discovered hal).of_mem hid
    · exact h.found x hx
  | seats e =>
    obtain ⟨hal, hsearch, hjoin⟩ := hal
    have hst : w.seats.step dist e (w.seats.next dist e) := ⟨hal, rfl⟩
    change SuitInv c routed ⟨w.seats.next dist e, w.found⟩
    rcases World.step_cases hst with ⟨i, r, rfl, -, hw⟩ | ⟨i, env, r, phase, rfl, hr, -, hw⟩ | ⟨s, rfl, -, hw⟩
    · rw [hw]
      refine h.commit .refl (fun _ hm ↦ by cases hm) fun j r' pools hj ↦ ?_
      rcases requests_update hj with ⟨-, -, hp⟩ | ⟨-, hj⟩
      · cases hp
      · exact Or.inl hj
    · rw [hw]
      exact h.run hr fun hc ↦ hsearch i env r rfl (hc ▸ hr)
    · rw [hw]
      exact h.other fun t p hs ↦ hjoin t p (congrArg Event.other hs)

end SuitInv

end Runs

/-! ## A search and a join -/

/-- Everything is near. -/
def sampleMatcher : Matcher ℚ := ⟨fun _ _ _ ↦ true, fun _ _ ↦ 0, 1200, 7 / 10⟩

def sampleNobody : SearchWorld := ⟨⟨.empty, fun _ ↦ none⟩, []⟩

def sampleFare : SeatFareQuoter := fun _ ↦ some ⟨⟨500, "INR"⟩, 1, 1, "fixed_at_join"⟩

def sampleOpening : OpenPoolParams where
  poolId := 1
  origin := ⟨0, 0⟩
  dest := ⟨1, 1⟩
  maxSeats := 3
  detourBudgetM := 800
  passengerId := 10
  timeoutMs := 60000
  quoteFare := sampleFare
  idempotency := none
  dateNow := 0

def sampleJoining : JoinPoolParams where
  poolId := 1
  joiner := ⟨20, ⟨0, 1⟩, ⟨1, 2⟩, 40⟩
  quoteFare := sampleFare
  idempotency := none
  dateNow := 50

/-- Passenger 10 opens a pool, which passenger 20 finds and joins. -/
def sampleSharing : List SearchEvent :=
  [.seats (.other (.openPool ⟨0, 0⟩ sampleOpening)), .search ⟨0, 1⟩ ⟨1, 2⟩ [1],
    .seats (.other (.joinPool ⟨50, 50⟩ sampleJoining))]

def sampleOpened : SearchWorld :=
  sampleNobody.next (D := ℕ) (fun _ _ ↦ 0) (.seats (.other (.openPool ⟨0, 0⟩ sampleOpening)))

def sampleShared : SearchWorld :=
  sampleSharing.foldl (SearchWorld.next (D := ℕ) fun _ _ ↦ 0) sampleNobody

/-- The routes of one point each, all the same. -/
def samplePolylines : Polylines ℚ := fun _ ↦ some ([(0, 0)], [(0, 0)])

theorem discovered_sampleOpened :
    Discovered sampleMatcher (fun _ _ _ ↦ True) sampleOpened.seats.db ⟨0, 1⟩ ⟨1, 2⟩ (some [1]) := by
  refine ⟨sampleMatcher.findCandidates sampleOpened.seats.db ⟨0, 1⟩ ⟨1, 2⟩, samplePolylines, .refl _,
    fun _ _ _ _ _ ↦ ⟨trivial, trivial⟩, ?_⟩
  decide +kernel

theorem reachable_sampleShared :
    Reachable (SearchWorld.step sampleMatcher (fun _ _ _ ↦ True) (D := ℕ) fun _ _ ↦ 0) sampleNobody
      sampleShared := by
  have hok : Enabled (SearchEvent.Allowed sampleMatcher fun _ _ _ ↦ True)
      (SearchWorld.next (D := ℕ) fun _ _ ↦ 0) sampleNobody sampleSharing := by
    refine ⟨⟨rfl, fun _ _ _ h ↦ (by cases h), fun _ _ h ↦ (by cases h)⟩, discovered_sampleOpened,
      ⟨rfl, fun _ _ _ h ↦ (by cases h), ?_⟩, trivial⟩
    intro t p hp
    cases hp
    exact List.mem_cons_self
  exact ⟨_, Run.of_enabled _ (fun _ _ h ↦ ⟨h, rfl⟩) sampleSharing hok⟩

end Rcab
