import Rcab.Auth.RefreshToken
import Rcab.Lib.Jwt

/-!
# The two kinds of tokens

`access-token.ts` and `quote-token.service.ts`.  Access tokens and quote tokens are signed with the
same secret by one `JwtService`; the issuer tells them apart (`access_not_quote`).
-/

universe v

namespace Rcab

/-- An `HttpException`: its status and its body. -/
structure HttpError where
  status : ℕ
  code : String
  message : String
deriving DecidableEq, Repr

namespace Auth

/-- The claims locked into a quote token: the fare and the route the client was shown. -/
structure QuoteClaims where
  origin : Point
  dest : Point
  soloFareCents : ℤ
  distanceM : ℚ
  durationS : ℚ
deriving DecidableEq, Repr

/-- What is put into a token. -/
inductive TokenBody where
  | access (typ : String) (claims : AccessTokenClaims)
  | quote (claims : QuoteClaims)
deriving DecidableEq, Repr

abbrev TokenClaims := JwtClaims TokenBody

/-- `JWT_ISSUER`, `JWT_AUDIENCE`, `ACCESS_TOKEN_TYPE`, `ACCESS_TOKEN_TTL_SECONDS`. -/
def jwtIssuer : String := "rcab"

def jwtAudience : String := "rcab-api"

def accessTokenType : String := "access"

def accessTokenTtlSeconds : ℤ := 900

/-- `QUOTE_ISSUER`, `QUOTE_TTL`. -/
def quoteIssuer : String := "rcab-quote"

def quoteTtlSeconds : ℤ := 5 * 60

/-- `Math.floor(Date.now() / 1000)`. -/
def seconds (dateNow : Time) : ℤ := dateNow / 1000

def accessClaims (claims : AccessTokenClaims) (dateNow : Time) : TokenClaims where
  iss := jwtIssuer
  aud := jwtAudience
  iat := seconds dateNow
  exp := seconds dateNow + accessTokenTtlSeconds
  body := .access accessTokenType claims

/-- The audience is the module's default. -/
def quoteClaims (claims : QuoteClaims) (dateNow : Time) : TokenClaims where
  iss := quoteIssuer
  aud := jwtAudience
  iat := seconds dateNow
  exp := seconds dateNow + quoteTtlSeconds
  body := .quote claims

section Service

variable {Token : Type v} (jwt : JwtService TokenBody Token)

def signAccessToken (claims : AccessTokenClaims) (dateNow : Time) : Token :=
  jwt.sign (accessClaims claims dateNow)

/-- Nothing where the source throws. -/
def verifyAccessToken (token : Token) (dateNow : Time) : Option AccessTokenClaims :=
  match jwt.verify token ⟨jwtIssuer, some jwtAudience⟩ (seconds dateNow) with
  | .ok ⟨_, _, _, _, .access typ claims⟩ => if typ ≠ accessTokenType then none else some claims
  | _ => none

/-- `AuthGuard.canActivate`, for the header's token, if it has one. -/
def authGuard (bearer : Option Token) (dateNow : Time) : Except HttpError AccessTokenClaims :=
  match bearer with
  | none => .error ⟨401, "unauthorized", "Missing Bearer token"⟩
  | some token =>
      match verifyAccessToken jwt token dateNow with
      | none => .error ⟨401, "unauthorized", "Invalid or expired token"⟩
      | some user => .ok user

/-- `QuoteTokenService.sign`. -/
def signQuote (claims : QuoteClaims) (dateNow : Time) : Token :=
  jwt.sign (quoteClaims claims dateNow)

/-- `QuoteTokenService.verify`: the claims are nothing for a body that is no quote. -/
def verifyQuoteToken (token : Token) (dateNow : Time) : Except JwtError (Option QuoteClaims) :=
  match jwt.verify token ⟨quoteIssuer, none⟩ (seconds dateNow) with
  | .error e => .error e
  | .ok ⟨_, _, _, _, .quote claims⟩ => .ok (some claims)
  | .ok _ => .ok none

variable {jwt} {token : Token} {dateNow dateNow' : Time} {claims : AccessTokenClaims}
  {quote : QuoteClaims} {issued : List TokenClaims}

theorem verifyAccessToken_eq_some (h : verifyAccessToken jwt token dateNow = some claims) :
    ∃ c, jwt.verify token ⟨jwtIssuer, some jwtAudience⟩ (seconds dateNow) = .ok c ∧
      c.body = .access accessTokenType claims := by
  unfold verifyAccessToken at h
  split at h
  · rename_i iss aud iat exp typ claims' hv
    split_ifs at h with htyp
    obtain rfl := not_not.mp htyp
    obtain rfl := Option.some.inj h
    exact ⟨_, hv, rfl⟩
  · cases h

theorem authGuard_eq_ok {bearer : Option Token} (h : authGuard jwt bearer dateNow = .ok claims) :
    ∃ token, bearer = some token ∧ verifyAccessToken jwt token dateNow = some claims := by
  unfold authGuard at h
  split at h
  · cases h
  rename_i token
  split at h
  · cases h
  rename_i user hv
  obtain rfl := Except.ok.inj h
  exact ⟨token, rfl, hv⟩

theorem verifyQuoteToken_eq_ok (h : verifyQuoteToken jwt token dateNow = .ok (some quote)) :
    ∃ c, jwt.verify token ⟨quoteIssuer, none⟩ (seconds dateNow) = .ok c ∧
      c.body = .quote quote := by
  unfold verifyQuoteToken at h
  split at h
  · cases h
  · rename_i iss aud iat exp quote' hv
    obtain rfl := Option.some.inj (Except.ok.inj h)
    exact ⟨_, hv, rfl⟩
  · cases h

/-- No token is accepted as an access token by one handler and as a quote by another. -/
theorem access_not_quote (hjwt : jwt.Lawful)
    (ha : verifyAccessToken jwt token dateNow = some claims) :
    verifyQuoteToken jwt token dateNow' ≠ .ok (some quote) := by
  intro hq
  obtain ⟨c, hc, -⟩ := verifyAccessToken_eq_some ha
  obtain ⟨c', hc', -⟩ := verifyQuoteToken_eq_ok hq
  exact absurd (hjwt.issuer_unique hc hc') (by decide)

end Service

end Auth

end Rcab
