import Rcab.Auth.Accounts

/-!
# Who is sent which tokens

Any number of principals sign in, link Google accounts, refresh and log out, their statements in any
order.  A principal presents what Firebase and Google issue for its own identities, the tokens it was
sent, and whatever this api never issued.
-/

universe u v

namespace Rcab.Auth

/-- Whose the identities are, and the digests of the tokens the api generates. -/
structure Provider (P : Type u) where
  firebaseOwner : FirebaseUid → P
  googleOwner : GoogleSub → P
  generated : Set TokenHash

structure SignInWorld (P : Type u) where
  db : AccountDb
  /-- The calls, and who makes them. -/
  calls : ℕ → Option (P × SignInPhase)
  /-- Who makes the refreshes and the logouts. -/
  callers : ℕ → Option P
  /-- The claims of the access tokens each principal was sent. -/
  signed : List (P × TokenClaims)
  /-- The refresh tokens. -/
  given : List (P × TokenHash)

inductive SignInEvent (P : Type u) (Token : Type v) where
  /-- `POST /v1/auth/firebase-exchange`, and its native sibling. -/
  | firebaseExchange (i : ℕ) (p : P) (decoded : Option DecodedIdToken) (dateNow : Time)
  /-- `POST /v1/auth/google/login`. -/
  | googleLogin (i : ℕ) (p : P) (ticket : Option (Option TokenPayload))
  /-- `POST /v1/auth/google/link`. -/
  | googleLink (i : ℕ) (p : P) (bearer : Option Token) (ticket : Option (Option TokenPayload))
      (dateNow : Time)
  /-- The next statement of a call. -/
  | run (i : ℕ) (env : SignInEnv)
  /-- The answer of a call arrives. -/
  | reply (i : ℕ)
  /-- `POST /v1/auth/refresh`, and its native sibling. -/
  | refresh (x : ℕ) (p : P) (presented : TokenHash) (now : Time)
  /-- `POST /v1/auth/native/logout`. -/
  | nativeLogout (x : ℕ) (p : P) (presented : TokenHash) (now : Time)
  /-- `POST /v1/auth/logout`. -/
  | logout (x : ℕ) (p : P) (bearer : Option Token) (presented : TokenHash) (now dateNow : Time)
  /-- A statement of a refresh or a logout, or a change of an account's status. -/
  | session (e : Event)
  /-- The answer of a refresh arrives. -/
  | sessionReply (x : ℕ) (signedAt : Time)

/-- Neither a login nor a request: those have events of their own. -/
def Event.Inner : Event → Prop
  | .login _ _ _ _ _ | .start _ _ _ => False
  | _ => True

/-- The tokens an event generates. -/
def Event.Generates (generated : Set TokenHash) : Event → Prop
  | .statement _ hash _ => hash ∈ generated
  | _ => True

def SignInPhase.Answered : SignInPhase → Prop
  | .answered _ => True
  | _ => False

namespace SignInWorld

variable {P : Type u} {Token : Type v}

/-- The claims of the tokens a principal was sent. -/
def knownTo [DecidableEq P] (w : SignInWorld P) (p : P) : List TokenClaims :=
  (w.signed.filter fun s ↦ s.1 = p).map Prod.snd

/-- A refresh token that the principal was sent, or that is none. -/
def CanPresent (provider : Provider P) (w : SignInWorld P) (p : P) (presented : TokenHash) : Prop :=
  (p, presented) ∈ w.given ∨ presented ∉ provider.generated

section Step

variable (provider : Provider P) (jwt : JwtService TokenBody Token)

def Allowed [DecidableEq P] (w : SignInWorld P) : SignInEvent P Token → Prop
  | .firebaseExchange i p decoded _ =>
      w.calls i = none ∧ ∀ d, decoded = some d → provider.firebaseOwner d.uid = p
  | .googleLogin i p ticket =>
      w.calls i = none ∧ ∀ t, ticket = some (some t) → provider.googleOwner t.sub = p
  | .googleLink i p bearer ticket _ =>
      w.calls i = none ∧ (∀ t, bearer = some t → jwt.Presentable (w.knownTo p) t) ∧
        ∀ t, ticket = some (some t) → provider.googleOwner t.sub = p
  | .run i env => (∃ p phase, w.calls i = some (p, phase) ∧ ¬ phase.Answered) ∧
      env.hash ∈ provider.generated ∧ env.hash ∉ w.db.auth.issued ∧
        FamilyFree w.db.auth.store env.newId
  | .reply _ | .sessionReply _ _ => True
  | .refresh x p presented _ | .nativeLogout x p presented _ =>
      w.db.auth.txs x = none ∧ w.CanPresent provider p presented
  | .logout x p bearer presented _ _ =>
      w.db.auth.txs x = none ∧ w.CanPresent provider p presented ∧
        ∀ t, bearer = some t → jwt.Presentable (w.knownTo p) t
  | .session e => e.Inner ∧ e.Generates provider.generated ∧ e.Allowed w.db.auth

def setCall (w : SignInWorld P) (i : ℕ) (p : P) (phase : SignInPhase) : SignInWorld P :=
  { w with calls := Function.update w.calls i (some (p, phase)) }

/-- A refresh or a logout begins. -/
def start (w : SignInWorld P) (x : ℕ) (p : P) (request : Request) (now : Time) : SignInWorld P :=
  { w with
    db.auth := w.db.auth.next (.start x request now)
    callers := Function.update w.callers x (some p) }

/-- The tokens of a session reach the principal. -/
def send (w : SignInWorld P) (p : P) (response : TokenResponse) (signedAt : Time) :
    SignInWorld P :=
  { w with
    signed := (p, accessClaims response.accessToken signedAt) :: w.signed
    given := (p, response.refreshToken) :: w.given }

/-- What a call begins with, once its input was checked. -/
def begun {α : Type} (checked : Except HttpError α) (k : α → SignInPhase) : SignInPhase :=
  match checked with
  | .error e => .answered (.failed e)
  | .ok a => k a

def next (w : SignInWorld P) : SignInEvent P Token → SignInWorld P
  | .firebaseExchange i p decoded dateNow =>
      w.setCall i p (begun (checkIdToken decoded dateNow) fun (uid, phone) ↦ .findUser uid phone)
  | .googleLogin i p ticket =>
      w.setCall i p (begun (verifyGoogleToken ticket) fun (sub, _) ↦ .findGoogle sub)
  | .googleLink i p bearer ticket dateNow =>
      w.setCall i p (begun (authGuard jwt bearer dateNow) fun user ↦
        begun (verifyGoogleToken ticket) fun (sub, email) ↦ .checkLink user.sub sub email)
  | .run i env =>
      match w.calls i with
      | none => w
      | some (p, phase) =>
          { w with db := (w.db.statementFaulty env phase).1 }.setCall i p
            (w.db.statementFaulty env phase).2
  | .reply i =>
      match w.calls i with
      | some (p, .answered (.session response signedAt)) => w.send p response signedAt
      | _ => w
  | .refresh x p presented now => w.start x p (.refresh presented) now
  | .nativeLogout x p presented now => w.start x p (.logout presented none) now
  | .logout x p bearer presented now dateNow =>
      match authGuard jwt bearer dateNow with
      | .error _ => w
      | .ok user => w.start x p (.logout presented (some user.sub)) now
  | .session e => { w with db.auth := w.db.auth.next e }
  | .sessionReply x signedAt =>
      match w.callers x, w.db.auth.txs x with
      | some p, some ⟨_, _, .committed (.session response)⟩ => w.send p response signedAt
      | _, _ => w

/-- The system. -/
def step [DecidableEq P] (w : SignInWorld P) (e : SignInEvent P Token) (w' : SignInWorld P) : Prop :=
  w.Allowed provider jwt e ∧ w.next jwt e = w'

end Step

/-- Whose an account is. -/
def Owns (provider : Provider P) (db : AccountDb) (p : P) (userId : UserId) : Prop :=
  ∃ a ∈ db.identities, a.userId = userId ∧ provider.firebaseOwner a.firebaseUid = p

/-- Accounts may be there, none of them with a Google account of somebody else; nobody was sent
anything. -/
structure Initial (provider : Provider P) (w : SignInWorld P) : Prop where
  auth : w.db.auth.Initial
  unique : w.db.Unique
  linked : ∀ a ∈ w.db.identities, ∀ sub, a.googleSub = some sub →
    provider.googleOwner sub = provider.firebaseOwner a.firebaseUid
  calls : ∀ i, w.calls i = none
  callers : ∀ x, w.callers x = none
  signed : w.signed = []
  given : w.given = []

end SignInWorld

end Rcab.Auth
