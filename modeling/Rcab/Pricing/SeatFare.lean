import Mathlib.Data.Rat.Floor
import Mathlib.Tactic.Linarith
import Mathlib.Tactic.Positivity
import Rcab.Matching.PoolLifecycle

/-!
# The fare of a seat

`money.ts` and `pricing.service.ts`, in exact arithmetic.  A seat costs the solo price times a
multiplier for its seat count times the passenger's detour, clamped so that the seat costs no more
than the solo ride (`quoteSeatInItinerary_fare`).

What the routing service answers is a parameter.
-/

namespace Rcab.Pricing

open Dispatch (OfferStop)
open Matching (SeatQuote SeatFareContext)

/-! ## `money.ts` -/

/-- `Math.round`: halves go up. -/
def mathRound (x : ℚ) : ℤ := ⌊x + 1 / 2⌋

def inr (amount : ℚ) : Money := ⟨mathRound amount, "INR"⟩

def mulMoney (m : Money) (factor : ℚ) : Money := ⟨mathRound (m.amount * factor), m.currency⟩

/-! ## `pricing.service.ts` -/

structure RouteMetrics where
  distanceM : ℚ
  durationS : ℚ
deriving DecidableEq, Repr

structure FareParams where
  baseCents : ℚ
  perKmCents : ℚ
  perMinCents : ℚ
  baseCents_nonneg : 0 ≤ baseCents
  perKmCents_nonneg : 0 ≤ perKmCents
  perMinCents_nonneg : 0 ≤ perMinCents

structure SharedParams where
  seatMultiplier2 : ℚ
  seatMultiplier3 : ℚ
  seatMultiplier2_range : 1 / 100 ≤ seatMultiplier2 ∧ seatMultiplier2 ≤ 1
  seatMultiplier3_range : 1 / 100 ≤ seatMultiplier3 ∧ seatMultiplier3 ≤ 1

def quoteSoloFromMetrics (fare : FareParams) (metrics : RouteMetrics) : Money :=
  let km := metrics.distanceM / 1000
  let min := metrics.durationS / 60
  inr (fare.baseCents + fare.perKmCents * km + fare.perMinCents * min)

def clamp (v lo hi : ℚ) : ℚ := max lo (min hi v)

def seatMultiplierFor (shared : SharedParams) (seatCount : ℕ) : ℚ :=
  if seatCount ≤ 1 then 1
  else if seatCount = 2 then shared.seatMultiplier2
  else shared.seatMultiplier3

/-- `SHARED_FARE_POLICY`. -/
def sharedFarePolicy : String := "fixed_at_join"

structure SeatMetrics where
  soloPrice : Money
  seatCount : ℕ
  directDistanceM : ℚ
  poolDistanceM : ℚ

def quoteSeatFromMetrics (shared : SharedParams) (input : SeatMetrics) : SeatQuote :=
  let seatMultiplier := seatMultiplierFor shared input.seatCount
  let rawDetour :=
    if 0 < input.directDistanceM then input.poolDistanceM / input.directDistanceM else 1
  let cap := 1 / seatMultiplier
  let detourFactor := clamp rawDetour 1 cap
  let perSeatPrice := mulMoney input.soloPrice (seatMultiplier * detourFactor)
  ⟨perSeatPrice, seatMultiplier, detourFactor, sharedFarePolicy⟩

/-- The part of OSRM's response that is read. -/
structure OsrmRouteResponse where
  code : String
  /-- The legs of the first route. -/
  legs : Option (List RouteMetrics)

inductive PricingError where
  | osrmUnavailable
  | thrown (message : String)
deriving DecidableEq, Repr

/-- What routing answers. -/
structure Osrm where
  /-- `getRouteMetrics`, from the cache or OSRM. -/
  route : Point → Point → Except PricingError RouteMetrics
  /-- The response for several waypoints; nothing when the call fails. -/
  itinerary : List Point → Option OsrmRouteResponse

def getItineraryLegs (osrm : Osrm) (stops : List OfferStop) :
    Except PricingError (List RouteMetrics) :=
  if stops.length < 2 then .ok []
  else match osrm.itinerary (stops.map OfferStop.point) with
    | some ⟨code, some legs⟩ =>
        if code ≠ "Ok" ∨ legs.length ≠ stops.length - 1 then .error .osrmUnavailable
        else if ∃ leg ∈ legs, leg.distanceM < 0 then .error .osrmUnavailable
        else .ok legs
    | _ => .error .osrmUnavailable

/-- What the legs between two stops add up to. -/
def legsDistance (legs : List RouteMetrics) (pickupIdx dropoffIdx : ℕ) : ℚ :=
  ((legs.take dropoffIdx).drop pickupIdx).foldl (fun sum leg ↦ sum + leg.distanceM) 0

def pickupIdx (ctx : SeatFareContext) : Option ℕ :=
  ctx.stops.findIdx? fun s ↦ s.type = .pickup ∧ s.passengerId = ctx.passengerId

def dropoffIdx (ctx : SeatFareContext) : Option ℕ :=
  ctx.stops.findIdx? fun s ↦ s.type = .dropoff ∧ s.passengerId = ctx.passengerId

def quoteSeatInItinerary (fare : FareParams) (shared : SharedParams) (osrm : Osrm)
    (ctx : SeatFareContext) : Except PricingError SeatQuote :=
  match pickupIdx ctx, dropoffIdx ctx with
  | some pickupIdx, some dropoffIdx =>
      if dropoffIdx ≤ pickupIdx then .error (noRide ctx)
      else match osrm.route ctx.origin ctx.dest with
        | .error e => .error e
        | .ok direct =>
            let quote (rideDistanceM : ℚ) := quoteSeatFromMetrics shared
              { soloPrice := quoteSoloFromMetrics fare direct
                seatCount := ctx.seatCount
                directDistanceM := direct.distanceM
                poolDistanceM := rideDistanceM }
            -- the itinerary of one passenger is the direct route
            if 2 < ctx.stops.length then
              match getItineraryLegs osrm ctx.stops with
              | .error e => .error e
              | .ok legs => .ok (quote (legsDistance legs pickupIdx dropoffIdx))
            else .ok (quote direct.distanceM)
  | _, _ => .error (noRide ctx)
where
  noRide (ctx : SeatFareContext) : PricingError :=
    .thrown (s!"quoteSeatInItinerary: passenger {ctx.passengerId} needs a pickup before a dropoff " ++
      "in the itinerary")

/-! ## Rounding and clamping -/

@[gcongr] theorem mathRound_mono {x y : ℚ} (h : x ≤ y) : mathRound x ≤ mathRound y :=
  Int.floor_mono (by linarith)

@[simp] theorem mathRound_intCast (n : ℤ) : mathRound n = n := by
  rw [mathRound, Int.floor_intCast_add]
  norm_num

theorem le_clamp (v lo hi : ℚ) : lo ≤ clamp v lo hi := le_max_left _ _

theorem clamp_le {lo hi : ℚ} (h : lo ≤ hi) (v : ℚ) : clamp v lo hi ≤ hi :=
  max_le h (min_le_left _ _)

theorem clamp_mono {v v' : ℚ} (h : v ≤ v') (lo hi : ℚ) : clamp v lo hi ≤ clamp v' lo hi :=
  max_le_max le_rfl (min_le_min le_rfl h)

/-! ## One seat -/

section Seat

variable (shared : SharedParams)

theorem seatMultiplierFor_range (seatCount : ℕ) :
    0 < seatMultiplierFor shared seatCount ∧ seatMultiplierFor shared seatCount ≤ 1 := by
  obtain ⟨h2, h2'⟩ := shared.seatMultiplier2_range
  obtain ⟨h3, h3'⟩ := shared.seatMultiplier3_range
  rw [seatMultiplierFor]
  split_ifs <;> constructor <;> linarith

/-- The factor of the solo price is between the multiplier and one. -/
theorem factor_range (seatCount : ℕ) (v : ℚ) :
    seatMultiplierFor shared seatCount ≤
      seatMultiplierFor shared seatCount * clamp v 1 (1 / seatMultiplierFor shared seatCount) ∧
    seatMultiplierFor shared seatCount * clamp v 1 (1 / seatMultiplierFor shared seatCount) ≤ 1 := by
  obtain ⟨hpos, hle⟩ := seatMultiplierFor_range shared seatCount
  have hcap : 1 ≤ 1 / seatMultiplierFor shared seatCount := one_le_one_div hpos hle
  constructor
  · exact le_mul_of_one_le_right hpos.le (le_clamp _ _ _)
  · calc seatMultiplierFor shared seatCount * clamp v 1 (1 / seatMultiplierFor shared seatCount)
        ≤ seatMultiplierFor shared seatCount * (1 / seatMultiplierFor shared seatCount) :=
          mul_le_mul_of_nonneg_left (clamp_le hcap v) hpos.le
      _ = 1 := mul_one_div_cancel hpos.ne'

variable {shared} {input : SeatMetrics}

variable (shared input) in
/-- A seat costs at most the solo price, and at least its share of it. -/
theorem quoteSeatFromMetrics_range (hsolo : 0 ≤ input.soloPrice.amount) :
    mathRound (input.soloPrice.amount * seatMultiplierFor shared input.seatCount) ≤
      (quoteSeatFromMetrics shared input).perSeatPrice.amount ∧
    (quoteSeatFromMetrics shared input).perSeatPrice.amount ≤ input.soloPrice.amount := by
  have hs : (0 : ℚ) ≤ input.soloPrice.amount := by exact_mod_cast hsolo
  simp only [quoteSeatFromMetrics, mulMoney]
  generalize (if 0 < input.directDistanceM then input.poolDistanceM / input.directDistanceM
    else 1) = rawDetour
  obtain ⟨hlow, hhigh⟩ := factor_range shared input.seatCount rawDetour
  refine ⟨mathRound_mono (mul_le_mul_of_nonneg_left hlow hs), ?_⟩
  calc mathRound (input.soloPrice.amount * (seatMultiplierFor shared input.seatCount *
        clamp rawDetour 1 (1 / seatMultiplierFor shared input.seatCount)))
      ≤ mathRound (input.soloPrice.amount * 1) :=
        mathRound_mono (mul_le_mul_of_nonneg_left hhigh hs)
    _ = input.soloPrice.amount := by rw [mul_one, mathRound_intCast]

/-- Alone, a passenger pays the solo price. -/
theorem quoteSeatFromMetrics_alone (h : input.seatCount ≤ 1) :
    (quoteSeatFromMetrics shared input).perSeatPrice = input.soloPrice := by
  have hone : ∀ v : ℚ, clamp v 1 (1 / 1) = 1 := fun v ↦
    le_antisymm (clamp_le (by norm_num) v |>.trans (by norm_num)) (le_clamp _ _ _)
  simp only [quoteSeatFromMetrics, seatMultiplierFor, if_pos h, hone, mulMoney, mul_one,
    mathRound_intCast]

/-- A longer ride costs no less. -/
theorem quoteSeatFromMetrics_mono (hsolo : 0 ≤ input.soloPrice.amount) {d : ℚ}
    (h : input.poolDistanceM ≤ d) : (quoteSeatFromMetrics shared input).perSeatPrice.amount ≤
      (quoteSeatFromMetrics shared { input with poolDistanceM := d }).perSeatPrice.amount := by
  have hs : (0 : ℚ) ≤ input.soloPrice.amount := by exact_mod_cast hsolo
  obtain ⟨hpos, -⟩ := seatMultiplierFor_range shared input.seatCount
  have hraw : (if 0 < input.directDistanceM then input.poolDistanceM / input.directDistanceM
      else 1) ≤ if 0 < input.directDistanceM then d / input.directDistanceM else 1 := by
    split_ifs with hd
    · exact div_le_div_of_nonneg_right h hd.le
    · exact le_rfl
  exact mathRound_mono (mul_le_mul_of_nonneg_left
    (mul_le_mul_of_nonneg_left (clamp_mono hraw _ _) hpos.le) hs)

end Seat

/-! ## One seat of an itinerary -/

section Itinerary

variable (fare : FareParams) (shared : SharedParams) {osrm osrm' : Osrm} {ctx ctx' : SeatFareContext}
  {direct : RouteMetrics} {legs legs' : List RouteMetrics} {p d p' d' : ℕ}

/-- The itinerary has the passenger's pickup before their dropoff, and routing answers. -/
structure Routed (osrm : Osrm) (ctx : SeatFareContext) (p d : ℕ) (direct : RouteMetrics)
    (legs : List RouteMetrics) : Prop where
  pickup : pickupIdx ctx = some p
  dropoff : dropoffIdx ctx = some d
  order : p < d
  route : osrm.route ctx.origin ctx.dest = .ok direct
  itinerary : 2 < ctx.stops.length →
    osrm.itinerary (ctx.stops.map OfferStop.point) = some ⟨"Ok", some legs⟩
  length : legs.length = ctx.stops.length - 1
  nonneg : ∀ leg ∈ legs, 0 ≤ leg.distanceM

/-- How far the passenger rides. -/
def rideDistance (ctx : SeatFareContext) (p d : ℕ) (direct : RouteMetrics)
    (legs : List RouteMetrics) : ℚ :=
  if 2 < ctx.stops.length then legsDistance legs p d else direct.distanceM

variable {fare shared}

/-- Nothing but the distance of their ride matters. -/
theorem quoteSeatInItinerary_eq (h : Routed osrm ctx p d direct legs) :
    quoteSeatInItinerary fare shared osrm ctx = .ok (quoteSeatFromMetrics shared
      ⟨quoteSoloFromMetrics fare direct, ctx.seatCount, direct.distanceM,
        rideDistance ctx p d direct legs⟩) := by
  have hneg : ¬ ∃ leg ∈ legs, leg.distanceM < 0 := fun ⟨leg, hleg, hlt⟩ ↦
    absurd hlt (not_lt.mpr (h.nonneg leg hleg))
  simp only [quoteSeatInItinerary, h.pickup, h.dropoff, h.route, if_neg (Nat.not_le.mpr h.order),
    rideDistance]
  by_cases hlen : 2 < ctx.stops.length
  · have hlegs : getItineraryLegs osrm ctx.stops = .ok legs := by
      have hok : ¬ (("Ok" : String) ≠ "Ok" ∨ legs.length ≠ ctx.stops.length - 1) := by
        simp [h.length]
      simp only [getItineraryLegs, if_neg (by omega : ¬ ctx.stops.length < 2), h.itinerary hlen,
        if_neg hok, if_neg hneg]
    simp only [if_pos hlen, hlegs]
  · simp only [if_neg hlen]

/-- Legs outside the ride do not count. -/
theorem legsDistance_congr (h : ∀ i, p ≤ i → i < d → legs'[i]? = legs[i]?) :
    legsDistance legs' p d = legsDistance legs p d := by
  have hslice : (legs'.take d).drop p = (legs.take d).drop p := by
    refine List.ext_getElem? fun i ↦ ?_
    rw [List.getElem?_drop, List.getElem?_drop, List.getElem?_take, List.getElem?_take]
    split_ifs with hi
    · exact h _ (Nat.le_add_right _ _) hi
    · rfl
  rw [legsDistance, hslice, legsDistance]

variable (fare shared) in
/-- **The fare of a seat.**

It is at least the passenger's share of the solo price and at most the solo price, which it is for a
passenger alone.  A passenger who rides further, with the same direct route and seat count, pays no
less, and the legs they do not ride make no difference. -/
theorem quoteSeatInItinerary_fare (h : Routed osrm ctx p d direct legs)
    (hsolo : 0 ≤ (quoteSoloFromMetrics fare direct).amount) :
    ∃ q, quoteSeatInItinerary fare shared osrm ctx = .ok q ∧
      mathRound ((quoteSoloFromMetrics fare direct).amount * seatMultiplierFor shared ctx.seatCount) ≤
        q.perSeatPrice.amount ∧
      q.perSeatPrice.amount ≤ (quoteSoloFromMetrics fare direct).amount ∧
      (ctx.seatCount ≤ 1 → q.perSeatPrice = quoteSoloFromMetrics fare direct) ∧
      (∀ osrm' ctx' p' d' legs', Routed osrm' ctx' p' d' direct legs' →
        ctx'.seatCount = ctx.seatCount →
        rideDistance ctx p d direct legs ≤ rideDistance ctx' p' d' direct legs' →
        ∃ q', quoteSeatInItinerary fare shared osrm' ctx' = .ok q' ∧
          q.perSeatPrice.amount ≤ q'.perSeatPrice.amount) ∧
      ∀ osrm' legs', Routed osrm' ctx p d direct legs' →
        (∀ i, p ≤ i → i < d → legs'[i]? = legs[i]?) →
        quoteSeatInItinerary fare shared osrm' ctx = .ok q := by
  refine ⟨_, quoteSeatInItinerary_eq h, ?_⟩
  obtain ⟨hlow, hhigh⟩ := quoteSeatFromMetrics_range shared
    ⟨quoteSoloFromMetrics fare direct, ctx.seatCount, direct.distanceM,
      rideDistance ctx p d direct legs⟩ hsolo
  refine ⟨hlow, hhigh, fun hone ↦ quoteSeatFromMetrics_alone hone,
    fun osrm' ctx' p' d' legs' h' hseats hle ↦ ?_,
    fun osrm' legs' h' hsame ↦ ?_⟩
  · refine ⟨_, quoteSeatInItinerary_eq h', ?_⟩
    rw [hseats]
    exact quoteSeatFromMetrics_mono hsolo hle
  · rw [quoteSeatInItinerary_eq h', rideDistance, legsDistance_congr hsame, ← rideDistance]

end Itinerary

/-- A kilometre costs a rupee. -/
def sampleFare : FareParams := ⟨0, 100, 0, le_rfl, by norm_num, le_rfl⟩

def sampleShared : SharedParams :=
  ⟨7 / 10, 55 / 100, by constructor <;> norm_num, by constructor <;> norm_num⟩

/-- Two passengers, of whom the second rides the last two legs. -/
def sampleContext : SeatFareContext where
  poolId := 1
  passengerId := 20
  seatCount := 2
  origin := ⟨0, 0⟩
  dest := ⟨1, 1⟩
  stops := [⟨.pickup, ⟨0, 0⟩, 10, 0⟩, ⟨.pickup, ⟨0, 0⟩, 20, 1⟩, ⟨.dropoff, ⟨1, 1⟩, 10, 2⟩,
    ⟨.dropoff, ⟨1, 1⟩, 20, 3⟩]

def sampleLegs : List RouteMetrics := [⟨1000, 60⟩, ⟨8000, 600⟩, ⟨3000, 200⟩]

def sampleOsrm : Osrm where
  route _ _ := .ok ⟨10000, 700⟩
  itinerary _ := some ⟨"Ok", some sampleLegs⟩

theorem sampleContext_fare : ∃ q,
    quoteSeatInItinerary sampleFare sampleShared sampleOsrm sampleContext = .ok q ∧
      700 ≤ q.perSeatPrice.amount ∧ q.perSeatPrice.amount ≤ 1000 := by
  have hrouted : Routed sampleOsrm sampleContext 1 3 ⟨10000, 700⟩ sampleLegs :=
    ⟨by decide, by decide, by decide, rfl, fun _ ↦ rfl, rfl, by decide +kernel⟩
  have hsolo : (quoteSoloFromMetrics sampleFare ⟨10000, 700⟩).amount = 1000 := by decide +kernel
  have hshare : mathRound (1000 * seatMultiplierFor sampleShared 2) = 700 := by decide +kernel
  obtain ⟨q, hq, hlow, hhigh, -⟩ := quoteSeatInItinerary_fare sampleFare sampleShared hrouted
    (hsolo ▸ by norm_num)
  rw [hsolo] at hlow hhigh
  exact ⟨q, hq, hshare ▸ hlow, hhigh⟩

end Rcab.Pricing
