import Rcab.Lib.ReadThrough
import Rcab.Matching.RouteSimilarity
import Rcab.Pricing.SeatFare
import Rcab.Routing.Geohash

/-!
# Routes and distances, through Redis

`PricingService.getRouteMetrics` and `RouteSimilarityService.getPolyline` read through one Redis,
each under its prefix and the cells of both ends, for an hour.  Whoever else asks meanwhile, and
whatever fails, a call returns what the router said for a route between the same two cells, and never
what the other service stored (`route_answer`).

A stored text is the value it is the JSON of, or nothing when it is not JSON.
-/

namespace Rcab.Routing

open ReadThrough (Scheme State Event Phase Answer)

/-- `RouteSpec`, `RouteInput`. -/
structure RouteRequest where
  kind : CacheKind
  origin : Point
  dest : Point
deriving DecidableEq

inductive RouteAnswer where
  | metrics (metrics : Pricing.RouteMetrics)
  | polyline (coords : List (Matching.Coord ℚ))
deriving DecidableEq

def RouteAnswer.kind : RouteAnswer → CacheKind
  | .metrics _ => .metrics
  | .polyline _ => .polyline

/-- `getRouteMetrics` asks again for what is not JSON, `getPolyline` throws. -/
def routeCache : Scheme RouteRequest RouteAnswer String (Option RouteAnswer) where
  key r := cacheKey r.kind r.origin r.dest
  encode := some
  decode := id
  ttl := 3600 * 1000
  refetch r := r.kind = .metrics

/-- The router answers what it is asked for. -/
def RouteAnswer.Fits (r : RouteRequest) (v : RouteAnswer) : Prop := v.kind = r.kind

variable {s₀ s : State RouteRequest RouteAnswer String (Option RouteAnswer)} {i : ℕ}
  {r : RouteRequest} {v : RouteAnswer} {t : Time}

/-- An answer is of the kind that was asked for, and the router gave it for a route between the same
cells: in this call, or it had been stored for less than an hour when it was read. -/
theorem route_answer (h₀ : s₀.Initial)
    (h : Reachable (State.step routeCache RouteAnswer.Fits) s₀ s)
    (hi : s.calls i = some (r, .returned v t)) :
    v.kind = r.kind ∧ ∃ a ∈ s.answers, a.value = v ∧ a.request.kind = r.kind ∧
      SameCell a.request.origin r.origin ∧ SameCell a.request.dest r.dest ∧ a.at_ ≤ t ∧
      (a.call = i ∧ a.request = r ∨
        ∃ t₀, (a, t₀) ∈ s.writes ∧ a.at_ ≤ t₀ ∧ t₀ ≤ t ∧ t < t₀ + 3600 * 1000) := by
  have hfits : ∀ r r' v, routeCache.key r = routeCache.key r' → RouteAnswer.Fits r v →
      RouteAnswer.Fits r' v := by
    intro r r' v hkey hv
    exact hv.trans (cacheKey_eq_iff.mp hkey).1
  obtain ⟨hv, a, ha, hav, hkey, hat, hfrom⟩ :=
    ReadThrough.returned_of_reachable (fun _ ↦ rfl) hfits h₀ h hi
  obtain ⟨hkind, horigin, hdest⟩ := cacheKey_eq_iff.mp hkey
  exact ⟨hv, a, ha, hav, hkind, horigin, hdest, hat, hfrom⟩

/-- A distance is asked for, and a minute later that of a route beside it. -/
def sampleAsking : RouteRequest := ⟨.metrics, ⟨0, 0⟩, ⟨1, 1⟩⟩

def sampleBeside : RouteRequest := ⟨.metrics, ⟨1 / 2000, 0⟩, ⟨1, 1⟩⟩

def sampleDistance : RouteAnswer := .metrics ⟨157000, 7200⟩

def sampleCalls : List (Event RouteRequest RouteAnswer String) :=
  [.call 0 sampleAsking, .get 0 true, .ask 0 (some sampleDistance), .tick 40, .set 0 true false,
    .tick 60000, .call 1 sampleBeside, .get 1 true]

def sampleUnasked : State RouteRequest RouteAnswer String (Option RouteAnswer) :=
  ⟨0, fun _ ↦ none, fun _ ↦ none, [], []⟩

def sampleServed : State RouteRequest RouteAnswer String (Option RouteAnswer) :=
  sampleCalls.foldl (State.next routeCache) sampleUnasked

theorem reachable_sampleServed :
    Reachable (State.step routeCache RouteAnswer.Fits) sampleUnasked sampleServed := by
  have hok : Enabled (fun s e ↦ Event.Allowed RouteAnswer.Fits s e) (State.next routeCache)
      sampleUnasked sampleCalls := by
    refine ⟨rfl, trivial, ?_, trivial, trivial, trivial, rfl, trivial, trivial⟩
    rintro r phase v hr hv
    obtain rfl := Option.some.inj hv
    obtain ⟨rfl, -⟩ := Prod.mk.inj (Option.some.inj hr)
    rfl
  exact ⟨_, Run.of_enabled _ (fun _ _ h ↦ ⟨h, rfl⟩) sampleCalls hok⟩

theorem sampleServed_answer :
    ∃ a ∈ sampleServed.answers, a.call = 0 ∧ a.value = sampleDistance ∧
      SameCell a.request.origin sampleBeside.origin := by
  have hi : sampleServed.calls 1 = some (sampleBeside, .returned sampleDistance 60040) := by
    decide +kernel
  obtain ⟨-, a, ha, hv, -, ho, -, -, hfrom⟩ :=
    route_answer ⟨fun _ ↦ rfl, fun _ ↦ rfl, rfl, rfl⟩ reachable_sampleServed hi
  have hcall : ∀ a ∈ sampleServed.answers, a.call = 0 := by decide +kernel
  exact ⟨a, ha, hcall a ha, hv, ho⟩

end Rcab.Routing
