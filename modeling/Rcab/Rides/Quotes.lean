import Rcab.Auth.Tokens
import Rcab.Pricing.SeatFare
import Rcab.Rides.Controller
import Rcab.Rides.OneRide

/-!
# Quoting and booking with tokens

`AuthGuard`, `RidesController.quote` and `verifyQuote` around the bookings: a request names its
caller by an access token and its fare by a quote token, and either is whatever the client sends.
A token someone without the secret can send is one the api issued, or one it never signed
(`JwtService.Presentable`).
-/

universe u v

namespace Rcab.Rides

open Auth

/-! ## The quote -/

/-- `coordsMatch` compares the four coordinates one by one. -/
def coordEps : ℚ := 1 / 10 ^ 6

structure Near (p q : Point) : Prop where
  lat : |p.lat - q.lat| < coordEps
  lng : |p.lng - q.lng| < coordEps

instance {p q : Point} : Decidable (Near p q) :=
  decidable_of_iff (|p.lat - q.lat| < coordEps ∧ |p.lng - q.lng| < coordEps)
    ⟨fun h ↦ ⟨h.1, h.2⟩, fun h ↦ ⟨h.1, h.2⟩⟩

/-- The claims of another body have no coordinates. -/
def CoordsMatch (claims : Option QuoteClaims) (origin dest : Point) : Prop :=
  match claims with
  | none => False
  | some claims => Near claims.origin origin ∧ Near claims.dest dest

instance {claims : Option QuoteClaims} {origin dest : Point} :
    Decidable (CoordsMatch claims origin dest) := by
  unfold CoordsMatch
  cases claims <;> infer_instance

/-- `SHARED_QUOTE_SEATS`. -/
def sharedQuoteSeats : ℕ := 2

structure SharedEstimate where
  perSeatPrice : Money
  seatMultiplier : ℚ
  detourFactor : ℚ
  seatCount : ℕ
deriving DecidableEq, Repr

structure QuoteResponse (Token : Type v) where
  type : RideType
  distanceM : ℚ
  durationS : ℚ
  soloFare : Money
  quoteToken : Token
  sharedEstimate : Option SharedEstimate

/-- The claims of the token that answers a quote. -/
def quoteFor (fare : Pricing.FareParams) (origin dest : Point) (metrics : Pricing.RouteMetrics) :
    QuoteClaims where
  origin
  dest
  soloFareCents := (Pricing.quoteSoloFromMetrics fare metrics).amount
  distanceM := metrics.distanceM
  durationS := metrics.durationS

section Endpoints

variable {Token : Type v} (jwt : JwtService TokenBody Token) (fare : Pricing.FareParams)
  (shared : Pricing.SharedParams)

/-- `AuthGuard.canActivate` and `assertClient`. -/
def authorizeClient (bearer : Token) (dateNow : Time) : Except HttpError AccessTokenClaims :=
  match verifyAccessToken jwt bearer dateNow with
  | none => .error ⟨401, "unauthorized", "Invalid or expired token"⟩
  | some user =>
      if user.role ≠ .client then .error ⟨403, "forbidden", "Client role required"⟩ else .ok user

/-- `POST /v1/rides/quote`, from what routing answers for the route. -/
def quoteEndpoint (bearer : Token) (type : RideType) (origin dest : Point)
    (metrics : Pricing.RouteMetrics) (dateNow : Time) : Except HttpError (QuoteResponse Token) :=
  match authorizeClient jwt bearer dateNow with
  | .error e => .error e
  | .ok _ =>
  let solo := Pricing.quoteSoloFromMetrics fare metrics
  let seat := Pricing.quoteSeatFromMetrics shared
    ⟨solo, sharedQuoteSeats, metrics.distanceM, metrics.distanceM⟩
  .ok
    { type
      distanceM := metrics.distanceM
      durationS := metrics.durationS
      soloFare := solo
      quoteToken := signQuote jwt (quoteFor fare origin dest metrics) dateNow
      sharedEstimate := if type = .shared then
          some ⟨seat.perSeatPrice, Pricing.seatMultiplierFor shared sharedQuoteSeats,
            seat.detourFactor, sharedQuoteSeats⟩
        else none }

/-- `verifyQuote`: the fare the token locks for the route. -/
def verifyQuote (token : Token) (origin dest : Point) (dateNow : Time) :
    Except QuoteFailure ℤ :=
  match verifyQuoteToken jwt token dateNow with
  | .error .expired => .error .expired
  | .error .invalid => .error .invalid
  | .ok claims =>
      if CoordsMatch claims origin dest then .ok ((claims.map QuoteClaims.soloFareCents).getD 0)
      else .error .mismatch

variable {jwt} {token : Token} {origin dest : Point} {dateNow : Time} {soloFareCents : ℤ}

/-- A fare that is accepted stands in a quote for this route. -/
theorem verifyQuote_eq_ok (h : verifyQuote jwt token origin dest dateNow = .ok soloFareCents) :
    ∃ claims, verifyQuoteToken jwt token dateNow = .ok (some claims) ∧
      Near claims.origin origin ∧ Near claims.dest dest ∧
      claims.soloFareCents = soloFareCents := by
  unfold verifyQuote at h
  split at h
  · cases h
  · cases h
  · rename_i claims hv
    split_ifs at h with hm
    cases claims with
    | none => exact hm.elim
    | some claims => exact ⟨claims, hv, hm.1, hm.2, Except.ok.inj h⟩

/-- The token of a quote buys the route at its fare for five minutes, to the second, and another
route never. -/
theorem verifyQuote_signQuote (hjwt : jwt.Lawful) (claims : QuoteClaims) (quotedAt : Time) :
    verifyQuote jwt (signQuote jwt claims quotedAt) origin dest dateNow =
      if seconds quotedAt + quoteTtlSeconds ≤ seconds dateNow then .error .expired
      else if Near claims.origin origin ∧ Near claims.dest dest then .ok claims.soloFareCents
      else .error .mismatch := by
  unfold verifyQuote verifyQuoteToken signQuote
  by_cases hexp : seconds quotedAt + quoteTtlSeconds ≤ seconds dateNow
  · rw [hjwt.verify_sign_expired hexp, if_pos hexp]
  · rw [hjwt.verify_sign ⟨rfl, by simp⟩ (not_le.mp hexp), if_neg hexp]
    rfl

end Endpoints

end Rcab.Rides
