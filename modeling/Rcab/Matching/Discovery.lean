import Mathlib.Data.List.Sort
import Mathlib.Data.Rat.Cast.Defs
import Rcab.Db.Schema
import Rcab.Matching.RouteSimilarity

/-!
# Finding a pool

`SharedRideRepository.findCandidates` and the first loop of `MatchingService.findOrCreatePool`: the
open pools with a free seat whose ends are near the request's, those of them whose route is similar
and that are not too far out of the way, the best first (`discover_spec`).

PostGIS's distance, the haversine formula and the answers of the router are parameters.  A score that
is none is a `TypeError` of the source, which like a failing router ends the request.
-/

universe u

namespace Rcab.Matching

/-- What discovery measures with, and its configuration. -/
structure Matcher (𝕜 : Type u) where
  /-- `ST_DWithin`, between two geographies. -/
  dWithin : Point → Point → ℕ → Bool
  haversineM : Coord 𝕜 → Coord 𝕜 → 𝕜
  /-- `ROUTE_SIMILARITY_SATURATION_M`. -/
  saturation : 𝕜
  /-- `MATCHING_SIMILARITY_THRESHOLD`. -/
  similarityThreshold : 𝕜

/-- What `getPolyline` answers in each turn of the loop: the request's route, and the pool's. -/
abbrev Polylines (𝕜 : Type u) := PoolId → Option (List (Coord 𝕜) × List (Coord 𝕜))

structure Scored (𝕜 : Type u) where
  pool : SharedRide
  composite : 𝕜

variable {𝕜 : Type u} [Field 𝕜] [LinearOrder 𝕜]

/-- `[lng, lat]`. -/
def coordOf (p : Point) : Coord 𝕜 := (p.lng, p.lat)

namespace Matcher

variable (c : Matcher 𝕜)

/-- In the order of the table, which Postgres does not promise. -/
def findCandidates (db : Db) (origin dest : Point) : List SharedRide :=
  db.sharedRides.filter fun s ↦ c.dWithin s.origin origin 1500 ∧ c.dWithin s.dest dest 1500 ∧
    s.poolState = .open_ ∧ s.seatCount < s.maxSeats

def detourOrigin (origin : Point) (pool : SharedRide) : 𝕜 :=
  c.haversineM (coordOf origin) (coordOf pool.origin)

def detourDest (dest : Point) (pool : SharedRide) : 𝕜 :=
  c.haversineM (coordOf dest) (coordOf pool.dest)

def composite (score : 𝕜) (origin dest : Point) (pool : SharedRide) : 𝕜 :=
  score - 5 / 10000 * (c.detourOrigin origin pool + c.detourDest dest pool)

/-- One turn of the loop: it throws, or the pool is passed over or pushed. -/
def turn (polylines : Polylines 𝕜) (origin dest : Point) (pool : SharedRide) :
    Option (Option (Scored 𝕜)) :=
  match polylines pool.rideId with
  | none => none
  | some (p₁, p₂) =>
      match scoreRoutes c.haversineM c.saturation p₁ p₂ with
      | none => none
      | some score =>
          if score < c.similarityThreshold then some none
          else if pool.detourBudgetM < c.detourOrigin origin pool ∨
              pool.detourBudgetM < c.detourDest dest pool then some none
          else some (some ⟨pool, c.composite score origin dest pool⟩)

/-- The loop. -/
def qualify (polylines : Polylines 𝕜) (origin dest : Point) :
    List SharedRide → Option (List (Scored 𝕜))
  | [] => some []
  | pool :: pools =>
      match c.turn polylines origin dest pool with
      | none => none
      | some scored => (qualify polylines origin dest pools).map (scored.toList ++ ·)

/-- `qualified.sort`, which keeps the order of equals. -/
def discover (polylines : Polylines 𝕜) (origin dest : Point) (candidates : List SharedRide) :
    Option (List (Scored 𝕜)) :=
  (c.qualify polylines origin dest candidates).map
    (List.mergeSort · fun a b ↦ b.composite ≤ a.composite)

/-- The pool suits a passenger from `origin` to `dest`, this well. -/
structure Suits (routed : Point → Point → List (Coord 𝕜) → Prop) (origin dest : Point)
    (pool : SharedRide) (composite : 𝕜) : Prop where
  originNear : c.dWithin pool.origin origin 1500
  destNear : c.dWithin pool.dest dest 1500
  /-- The routes are similar enough. -/
  similar : ∃ p₁ p₂ score, routed origin dest p₁ ∧ routed pool.origin pool.dest p₂ ∧
    scoreRoutes c.haversineM c.saturation p₁ p₂ = some score ∧ c.similarityThreshold ≤ score ∧
    composite = c.composite score origin dest pool
  originDetour : c.detourOrigin origin pool ≤ pool.detourBudgetM
  destDetour : c.detourDest dest pool ≤ pool.detourBudgetM

variable {c} {polylines : Polylines 𝕜} {origin dest : Point} {pool : SharedRide}
  {pools : List SharedRide} {l : List (Scored 𝕜)} {x : Scored 𝕜}
  {routed : Point → Point → List (Coord 𝕜) → Prop}

/-- What is pushed. -/
theorem turn_eq_some_some : c.turn polylines origin dest pool = some (some x) ↔
    ∃ p₁ p₂ score, polylines pool.rideId = some (p₁, p₂) ∧
      scoreRoutes c.haversineM c.saturation p₁ p₂ = some score ∧ c.similarityThreshold ≤ score ∧
      c.detourOrigin origin pool ≤ pool.detourBudgetM ∧
      c.detourDest dest pool ≤ pool.detourBudgetM ∧
      x = ⟨pool, c.composite score origin dest pool⟩ := by
  unfold turn
  constructor
  · intro h
    split at h
    · cases h
    rename_i p₁ p₂ hp
    split at h
    · cases h
    rename_i score hscore
    split_ifs at h with hlow hfar
    · cases h
    · cases h
    obtain ⟨ho, hd⟩ := not_or.mp hfar
    exact ⟨p₁, p₂, score, hp, hscore, not_lt.mp hlow, not_lt.mp ho, not_lt.mp hd,
      (Option.some.inj (Option.some.inj h)).symm⟩
  · rintro ⟨p₁, p₂, score, hp, hscore, hhigh, ho, hd, rfl⟩
    rw [hp]
    dsimp only
    rw [hscore]
    dsimp only
    rw [if_neg (not_lt.mpr hhigh), if_neg (not_or.mpr ⟨not_lt.mpr ho, not_lt.mpr hd⟩)]

/-- Nothing else is pushed, and no turn is left out. -/
theorem mem_qualify (h : c.qualify polylines origin dest pools = some l) :
    x ∈ l ↔ ∃ pool ∈ pools, c.turn polylines origin dest pool = some (some x) := by
  induction pools generalizing l with
  | nil =>
    obtain rfl := Option.some.inj h
    simp
  | cons pool pools ih =>
    rw [qualify] at h
    split at h
    · cases h
    rename_i scored hturn
    obtain ⟨rest, hrest, rfl⟩ := Option.map_eq_some_iff.mp h
    rw [List.mem_append, ih hrest, List.exists_mem_cons_iff, hturn]
    simp

/-- What discovery finds: each pool that suits, the best first. -/
theorem discover_spec {db : Db} {candidates : List SharedRide}
    (hperm : candidates.Perm (c.findCandidates db origin dest))
    (hrouted : ∀ s ∈ candidates, ∀ p₁ p₂, polylines s.rideId = some (p₁, p₂) →
      routed origin dest p₁ ∧ routed s.origin s.dest p₂)
    (h : c.discover polylines origin dest candidates = some l) :
    (∀ x ∈ l, x.pool ∈ db.sharedRides ∧ c.Suits routed origin dest x.pool x.composite) ∧
      l.Pairwise fun a b ↦ b.composite ≤ a.composite := by
  obtain ⟨l, hl, rfl⟩ := Option.map_eq_some_iff.mp h
  constructor
  · intro x hx
    obtain ⟨pool, hpool, hturn⟩ := (mem_qualify hl).mp (List.mem_mergeSort.mp hx)
    obtain ⟨p₁, p₂, score, hp, hscore, hhigh, ho, hd, rfl⟩ := turn_eq_some_some.mp hturn
    obtain ⟨hmem, hno, hnd, -⟩ := Table.mem_filter.mp (hperm.mem_iff.mp hpool)
    obtain ⟨hr₁, hr₂⟩ := hrouted pool hpool p₁ p₂ hp
    exact ⟨hmem, hno, hnd, ⟨p₁, p₂, score, hr₁, hr₂, hscore, hhigh, rfl⟩, ho, hd⟩
  · have hsorted := @List.pairwise_mergeSort _
      (fun a b : Scored 𝕜 ↦ decide (b.composite ≤ a.composite))
      (fun a b c hab hbc ↦ decide_eq_true (le_trans (of_decide_eq_true hbc) (of_decide_eq_true hab)))
      (fun a b ↦ by simpa using le_total b.composite a.composite) l
    exact hsorted.imp of_decide_eq_true

end Matcher

end Rcab.Matching
