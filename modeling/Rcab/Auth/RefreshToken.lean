import Rcab.Db.Schema
import Rcab.Lib.ReadCommitted

/-!
# Refresh tokens

The statements of `auth.service.ts` on `auth_refresh_token`.

A token is a 256-bit random value of which only the SHA-256 digest is stored; here the
digest stands for the token.  What signs the access token is left out: it is its claims.
Instants are milliseconds.
-/

namespace Rcab.Auth

abbrev UserId := Uuid
abbrev FamilyId := Uuid
abbrev TokenHash := Nat

inductive AuthMethod where
  | phone | google
deriving DecidableEq, Repr

inductive Role where
  | client | driver
deriving DecidableEq, Repr

/-- `app_user.status`. -/
inductive UserStatus where
  | active | suspended | deleted
deriving DecidableEq, Repr

/-- `BLOCKED_USER_STATUSES`. -/
def UserStatus.Blocked : UserStatus → Prop
  | .suspended | .deleted => True
  | .active => False

instance : DecidablePred UserStatus.Blocked := fun s ↦ by
  cases s <;> unfold UserStatus.Blocked <;> infer_instance

structure AppUser where
  id : UserId
  role : Role
  phoneE164 : String
  status : UserStatus
deriving DecidableEq, Repr

/-- A row of `auth_refresh_token`. -/
structure RefreshToken where
  tokenHash : TokenHash
  familyId : FamilyId
  userId : UserId
  authMethod : AuthMethod
  expiresAt : Time
  revokedAt : Option Time := none
deriving DecidableEq, Repr

/-- `REFRESH_REUSE_GRACE_SECONDS`. -/
def refreshReuseGraceSeconds : Time := 10

/-- `REFRESH_TTL_MS`. -/
def refreshTtlMs : Time := 30 * 24 * 60 * 60 * 1000

structure AccessTokenClaims where
  sub : UserId
  role : Role
  authMethod : AuthMethod
deriving DecidableEq, Repr

structure TokenUser where
  id : UserId
  role : Role
  phoneE164 : String
deriving DecidableEq, Repr

structure TokenResponse where
  accessToken : AccessTokenClaims
  tokenType : String := "bearer"
  expiresIn : Nat := 900
  refreshToken : TokenHash
  user : TokenUser
deriving DecidableEq, Repr

/-- What the consuming `UPDATE` returns: the token's row joined with its user's. -/
structure ConsumedRefreshRow where
  userId : UserId
  familyId : FamilyId
  authMethod : AuthMethod
  role : Role
  phoneE164 : String
  status : UserStatus
deriving DecidableEq, Repr

def consumedRow (r : RefreshToken) (user : AppUser) : ConsumedRefreshRow :=
  ⟨r.userId, r.familyId, r.authMethod, user.role, user.phoneE164, user.status⟩

/-- The row `issueSession` inserts. -/
def sessionRow (hash : TokenHash) (familyId : FamilyId) (userId : UserId)
    (authMethod : AuthMethod) (dateNow : Time) : RefreshToken :=
  { tokenHash := hash, familyId, userId, authMethod, expiresAt := dateNow + refreshTtlMs }

/-- The response of `issueSession`. -/
def sessionResponse (hash : TokenHash) (row : ConsumedRefreshRow) : TokenResponse where
  accessToken := ⟨row.userId, row.role, row.authMethod⟩
  refreshToken := hash
  user := ⟨row.userId, row.role, row.phoneE164⟩

/-! ## The revoking statements

Every `UPDATE` of the table sets `revoked_at = now()` and nothing else. -/

def RefreshToken.revoke (now : Time) (r : RefreshToken) : RefreshToken :=
  { r with revokedAt := some now }

@[simp] theorem RefreshToken.revoke_tokenHash (now : Time) (r : RefreshToken) :
    (r.revoke now).tokenHash = r.tokenHash := rfl

@[simp] theorem RefreshToken.revoke_familyId (now : Time) (r : RefreshToken) :
    (r.revoke now).familyId = r.familyId := rfl

@[simp] theorem RefreshToken.revoke_revokedAt (now : Time) (r : RefreshToken) :
    (r.revoke now).revokedAt = some now := rfl

inductive Revocation where
  /-- `refresh`: consume the presented token, joined with its user. -/
  | consume (presented : TokenHash) (user : AppUser)
  /-- `refresh`: a replay ends the family. -/
  | replay (familyId : FamilyId)
  /-- `refresh`: a blocked user loses every session. -/
  | disable (userId : UserId)
  /-- `revokePresented`; `revoke` when the owner is given. -/
  | logout (presented : TokenHash) (owner : Option UserId)
deriving DecidableEq, Repr

/-- The `WHERE` clause, in a transaction begun at `now`. -/
def Revocation.Matches (now : Time) (r : RefreshToken) : Revocation → Prop
  | consume presented user =>
      r.tokenHash = presented ∧ r.revokedAt = none ∧ now < r.expiresAt ∧ user.id = r.userId
  | replay familyId => r.revokedAt = none ∧ r.familyId = familyId
  | disable userId => r.userId = userId ∧ r.revokedAt = none
  | logout presented owner =>
      r.tokenHash = presented ∧ (∀ u ∈ owner, r.userId = u) ∧ r.revokedAt = none

instance {now : Time} {u : Revocation} : DecidablePred fun r ↦ u.Matches now r := fun r ↦ by
  cases u <;> unfold Revocation.Matches <;> infer_instance

/-- No statement revokes a token twice. -/
theorem Revocation.Matches.revokedAt {now : Time} {r : RefreshToken} {u : Revocation}
    (h : u.Matches now r) : r.revokedAt = none := by
  cases u with
  | consume presented user => exact h.2.1
  | replay familyId => exact h.1
  | disable userId => exact h.2
  | logout presented owner => exact h.2.2

open ReadCommitted

abbrev TokenStore := Store RefreshToken.tokenHash

/-- The replay branch's subselect: the family of the presented token, when it was revoked
longer than the grace window ago. -/
def replayedFamily (store : TokenStore) (x : ℕ) (presented : TokenHash) (now : Time) :
    Option FamilyId :=
  (store.read x presented).bind fun r ↦ r.revokedAt.bind fun revokedAt ↦
    if revokedAt ≤ now - 1000 * refreshReuseGraceSeconds then some r.familyId else none

theorem replayedFamily_eq_some {store : TokenStore} {x : ℕ} {presented : TokenHash} {now : Time}
    {f : FamilyId} (h : replayedFamily store x presented now = some f) :
    ∃ r, store.read x presented = some r ∧ r.revokedAt ≠ none ∧ r.familyId = f := by
  obtain ⟨r, hr, h⟩ := Option.bind_eq_some_iff.mp h
  obtain ⟨revokedAt, hrev, h⟩ := Option.bind_eq_some_iff.mp h
  split_ifs at h
  exact ⟨r, hr, by simp [hrev], Option.some.inj h⟩

end Rcab.Auth
