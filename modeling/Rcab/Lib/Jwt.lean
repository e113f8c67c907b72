import Mathlib.Data.Int.Notation
import Mathlib.Data.Option.Basic
import Mathlib.Logic.Function.Basic
import Mathlib.Algebra.Order.Ring.Int

/-!
# Signed claims

A service that signs claims and reads them back, as its users see it: `JwtService.Lawful` says when
a token is accepted, `Presentable` which tokens someone without the secret can come by.  What is
accepted was issued (`Lawful.mem_issued`), for this issuer and before it expired.
-/

universe u v

namespace Rcab

/-- The claims the service adds, and the body it was given.  Times are seconds. -/
structure JwtClaims (β : Type u) where
  iss : String
  aud : String
  iat : ℤ
  exp : ℤ
  body : β
deriving DecidableEq, Repr

structure VerifyOptions where
  issuer : String
  audience : Option String := none
deriving DecidableEq, Repr

inductive JwtError where
  /-- `TokenExpiredError`. -/
  | expired
  /-- `JsonWebTokenError`. -/
  | invalid
deriving DecidableEq, Repr

structure JwtService (β : Type u) (Token : Type v) where
  sign : JwtClaims β → Token
  /-- At a time in seconds. -/
  verify : Token → VerifyOptions → ℤ → Except JwtError (JwtClaims β)

/-- The options a token is checked against. -/
structure JwtClaims.Meets {β : Type u} (c : JwtClaims β) (options : VerifyOptions) : Prop where
  issuer : c.iss = options.issuer
  audience : ∀ a, options.audience = some a → c.aud = a

namespace JwtService

variable {β : Type u} {Token : Type v}

/-- A token is accepted while it lasts when it was signed here, for these options.  That it expired
is found out before the options are looked at. -/
structure Lawful (jwt : JwtService β Token) : Prop where
  sign_injective : Function.Injective jwt.sign
  verify_eq_ok : ∀ t options now c, jwt.verify t options now = .ok c ↔
    t = jwt.sign c ∧ c.Meets options ∧ now < c.exp
  verify_eq_expired : ∀ t options now, jwt.verify t options now = .error .expired ↔
    ∃ c, t = jwt.sign c ∧ c.exp ≤ now

/-- A token that was issued, or that the service never signed. -/
def Presentable (jwt : JwtService β Token) (issued : List (JwtClaims β)) (t : Token) : Prop :=
  ∀ c, t = jwt.sign c → c ∈ issued

variable {jwt : JwtService β Token} {issued : List (JwtClaims β)} {t : Token}
  {options options' : VerifyOptions} {now now' : ℤ} {c c' : JwtClaims β}

theorem Presentable.mono {issued' : List (JwtClaims β)} (h : jwt.Presentable issued t)
    (hsub : ∀ c ∈ issued, c ∈ issued') : jwt.Presentable issued' t :=
  fun c hc ↦ hsub c (h c hc)

namespace Lawful

/-- Nobody forges a token. -/
theorem mem_issued (h : jwt.Lawful) (hp : jwt.Presentable issued t)
    (hv : jwt.verify t options now = .ok c) : c ∈ issued :=
  hp c ((h.verify_eq_ok ..).mp hv).1

theorem meets (h : jwt.Lawful) (hv : jwt.verify t options now = .ok c) : c.Meets options :=
  ((h.verify_eq_ok ..).mp hv).2.1

theorem unexpired (h : jwt.Lawful) (hv : jwt.verify t options now = .ok c) : now < c.exp :=
  ((h.verify_eq_ok ..).mp hv).2.2

/-- A token is what was signed, while it lasts. -/
theorem verify_sign (h : jwt.Lawful) (hm : c.Meets options) (hexp : now < c.exp) :
    jwt.verify (jwt.sign c) options now = .ok c :=
  (h.verify_eq_ok ..).mpr ⟨rfl, hm, hexp⟩

/-- And is known to have expired from then on. -/
theorem verify_sign_expired (h : jwt.Lawful) (hexp : c.exp ≤ now) :
    jwt.verify (jwt.sign c) options now = .error .expired :=
  (h.verify_eq_expired ..).mpr ⟨c, rfl, hexp⟩

/-- What a token says does not depend on who reads it. -/
theorem verify_unique (h : jwt.Lawful) (hv : jwt.verify t options now = .ok c)
    (hv' : jwt.verify t options' now' = .ok c') : c = c' :=
  h.sign_injective (((h.verify_eq_ok ..).mp hv).1.symm.trans ((h.verify_eq_ok ..).mp hv').1)

/-- A token is good for one issuer only. -/
theorem issuer_unique (h : jwt.Lawful) (hv : jwt.verify t options now = .ok c)
    (hv' : jwt.verify t options' now' = .ok c') : options.issuer = options'.issuer := by
  rw [← (h.meets hv).issuer, h.verify_unique hv hv', (h.meets hv').issuer]

end Lawful

/-! ## A lawful service -/

/-- The tokens are the claims themselves. -/
def plain : JwtService β (Option (JwtClaims β)) where
  sign := some
  verify token options now :=
    match token with
    | none => .error .invalid
    | some c =>
        if c.exp ≤ now then .error .expired
        else if c.iss = options.issuer ∧ (options.audience = none ∨ options.audience = some c.aud)
        then .ok c
        else .error .invalid

theorem plain_lawful : (plain : JwtService β (Option (JwtClaims β))).Lawful where
  sign_injective := Option.some_injective _
  verify_eq_ok t options now c := by
    cases t with
    | none => simp [plain]
    | some c' =>
      simp only [plain, Option.some.injEq]
      split_ifs with hexp hopt
      · exact ⟨nofun, fun ⟨heq, _, hlt⟩ ↦ absurd (heq ▸ hexp) (not_le.mpr hlt)⟩
      · refine ⟨fun h ↦ ?_, fun ⟨heq, _⟩ ↦ congrArg Except.ok heq⟩
        obtain rfl := Except.ok.inj h
        refine ⟨rfl, ⟨hopt.1, fun a ha ↦ ?_⟩, not_le.mp hexp⟩
        rw [ha] at hopt
        simpa [eq_comm] using hopt.2
      · refine ⟨nofun, fun ⟨heq, hm, _⟩ ↦ absurd ⟨heq ▸ hm.issuer, ?_⟩ hopt⟩
        cases ha : options.audience with
        | none => exact Or.inl rfl
        | some a => exact Or.inr (by rw [heq, hm.audience a ha])
  verify_eq_expired t options now := by
    cases t with
    | none => simp [plain]
    | some c' =>
      simp only [plain, Option.some.injEq]
      split_ifs with hexp hopt
      · exact ⟨fun _ ↦ ⟨c', rfl, hexp⟩, fun _ ↦ rfl⟩
      · exact ⟨nofun, fun ⟨c, heq, hle⟩ ↦ absurd (heq ▸ hle) hexp⟩
      · exact ⟨nofun, fun ⟨c, heq, hle⟩ ↦ absurd (heq ▸ hle) hexp⟩

theorem presentable_plain (h : c ∈ issued) : plain.Presentable issued (some c) := by
  intro c' hc
  obtain rfl := Option.some.inj hc
  exact h

end JwtService

end Rcab
