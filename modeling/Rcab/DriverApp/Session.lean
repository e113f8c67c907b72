import Mathlib.Logic.Function.Basic
import Rcab.Lib.Run

/-!
# The session of the driver app

`api_client.dart`, `token_store.dart` and `auth_notifier.dart`: requests that fail with 401 share
one refresh, a refresh saves the rotated tokens or signs out, and the driver signs in and out.

Every await is a cut: an operation of the secure storage takes effect in a step of its own, and the
two of `saveTokens` and of `clear` in either order.  A step also covers what the app does with the
answer up to the next await; only the shared future is looked at in a step after the one that reads
the jwt.  The storage does not fail.
-/

namespace Rcab.DriverApp.Session

/-- A jwt or a refresh token.  Sessions are numbered as sign-ins open them; the refresh tokens of
one succeed each other. -/
structure Token where
  session : ℕ
  serial : ℕ
deriving DecidableEq, Repr

/-- `NativeSession`. -/
structure NativeSession where
  session : ℕ
  access : ℕ
  refresh : ℕ
deriving DecidableEq, Repr

namespace NativeSession

def accessToken (ses : NativeSession) : Token := ⟨ses.session, ses.access⟩

def refreshToken (ses : NativeSession) : Token := ⟨ses.session, ses.refresh⟩

end NativeSession

/-! ## The token store -/

/-- `rcab_jwt` and `rcab_refresh_token`. -/
inductive Field where
  | jwt | refresh
deriving DecidableEq, Repr

/-- What a `Future.wait` over both fields still waits for. -/
inductive Rest where
  | both
  | only (f : Field)
deriving DecidableEq, Repr

def Field.other : Field → Field
  | .jwt => .refresh
  | .refresh => .jwt

def Rest.Has (f : Field) : Rest → Prop
  | .both => True
  | .only g => g = f

instance {f : Field} : DecidablePred (Rest.Has f) := fun
  | .both => inferInstanceAs (Decidable True)
  | .only g => inferInstanceAs (Decidable (g = f))

/-- What is left after one of them. -/
def Rest.land (f : Field) : Rest → Option Rest
  | .both => some (.only f.other)
  | .only _ => none

structure TokenStore where
  jwt : Option Token
  refresh : Option Token
deriving DecidableEq, Repr

namespace TokenStore

def get (store : TokenStore) : Field → Option Token
  | .jwt => store.jwt
  | .refresh => store.refresh

def set (store : TokenStore) (v : Option Token) : Field → TokenStore
  | .jwt => { store with jwt := v }
  | .refresh => { store with refresh := v }

end TokenStore

/-- What `saveTokens` writes. -/
def NativeSession.token (ses : NativeSession) : Field → Token
  | .jwt => ses.accessToken
  | .refresh => ses.refreshToken

/-! ## What goes on -/

/-- `onError` of a request that sent this jwt. -/
inductive Handler where
  | idle
  | reading (sent : Option Token)
  | comparing (sent current : Option Token)
  | awaiting (run : ℕ)
deriving DecidableEq, Repr

/-- `signOut`. -/
inductive SigningOut where
  | reading
  | loggingOut (refresh : Token)
  | clearing (refresh : Option Token) (rest : Rest)
  /-- Leaving Firebase. -/
  | leaving
deriving DecidableEq, Repr

/-- The deletion of the field may land next. -/
def SigningOut.Awaits (f : Field) : SigningOut → Prop
  | .clearing _ rest => rest.Has f
  | _ => True

instance {f : Field} : DecidablePred (SigningOut.Awaits f) := fun
  | .clearing _ rest => inferInstanceAs (Decidable (rest.Has f))
  | .reading | .loggingOut _ | .leaving => inferInstanceAs (Decidable True)

/-- `_refresh`; its result is the new access token, if any. -/
inductive Refresh where
  | idle
  | reading
  | posting (refresh : Token)
  /-- `_signOutIfUnchanged`. -/
  | checking (used : Token)
  /-- The store is read again before the new tokens are saved. -/
  | rechecking (refresh : Token) (ses : NativeSession)
  | saving (ses : NativeSession) (rest : Rest)
  | signingOut (phase : SigningOut)
  | returned (accessToken : Option Token)
  | completed (accessToken : Option Token)
deriving DecidableEq, Repr

/-- `signInWithFirebaseToken`. -/
inductive SignIn where
  | idle | posting
  | saving (ses : NativeSession) (rest : Rest)
  | saved (session : ℕ)
deriving DecidableEq, Repr

structure State where
  store : TokenStore
  /-- `_inFlight`. -/
  inFlight : Option ℕ
  handlers : ℕ → Handler
  /-- `options.extra[_retriedKey]`. -/
  retried : ℕ → Bool
  refreshes : ℕ → Refresh
  /-- The refreshes started so far. -/
  started : ℕ
  signIns : ℕ → SignIn
  signOuts : ℕ → Option SigningOut
  /-- The session of `AuthStateAuthenticated`. -/
  auth : Option ℕ
  /-- The tokens the server issued. -/
  issued : List Token
  /-- The refresh tokens it answered with a valid session. -/
  rotated : List Token
  /-- How often a request was resent. -/
  resent : ℕ → ℕ
  /-- The sessions of which something was saved. -/
  landed : List ℕ
  /-- Those when a refresh read its token, up to the session of the token. -/
  before : ℕ → List ℕ
  /-- The sessions whose sign-out has cleared the store. -/
  signedOut : List ℕ

namespace State

def setHandler (s : State) (i : ℕ) (h : Handler) : State :=
  { s with handlers := Function.update s.handlers i h }

def setRefresh (s : State) (k : ℕ) (r : Refresh) : State :=
  { s with refreshes := Function.update s.refreshes k r }

def setSignIn (s : State) (j : ℕ) (p : SignIn) : State :=
  { s with signIns := Function.update s.signIns j p }

def setSignOut (s : State) (j : ℕ) (p : Option SigningOut) : State :=
  { s with signOuts := Function.update s.signOuts j p }

/-! ## Requests -/

/-- `_refreshDio.fetch` of the original request. -/
def resend (s : State) (i : ℕ) : State :=
  { s with retried := Function.update s.retried i true
           resent := Function.update s.resent i (s.resent i + 1) }.setHandler i .idle

/-- `_inFlight ??= _refresh()`. -/
def joinRefresh (s : State) (i : ℕ) : State :=
  match s.inFlight with
  | some k => s.setHandler i (.awaiting k)
  | none =>
      { s with inFlight := some s.started, started := s.started + 1 }.setRefresh s.started .reading
        |>.setHandler i (.awaiting s.started)

/-- The stored jwt is compared with the one that was sent. -/
def compareJwt (s : State) (i : ℕ) (sent current : Option Token) : State :=
  if current ≠ none ∧ sent ≠ current then s.resend i else s.joinRefresh i

/-! ## Saving and signing out -/

/-- One write of `saveTokens`. -/
def write (s : State) (ses : NativeSession) (f : Field) : State :=
  { s with store := s.store.set (some (ses.token f)) f, landed := ses.session :: s.landed }

def delete (s : State) (f : Field) : State := { s with store := s.store.set none f }

/-- One step of `signOut`, and what it does next. -/
def signOut (s : State) (f : Field) : SigningOut → State × Option SigningOut
  | .reading =>
      (s, some (match s.store.refresh with
        | some refresh => .loggingOut refresh
        | none => .clearing none .both))
  | .loggingOut refresh => (s, some (.clearing (some refresh) .both))
  | .clearing refresh rest =>
      let s := s.delete f
      match rest.land f with
      | some rest => (s, some (.clearing refresh rest))
      | none =>
          ({ s with signedOut := (refresh.map Token.session).toList ++ s.signedOut }, some .leaving)
  | .leaving => ({ s with auth := none }, none)

/-! ## Refreshing -/

/-- A read of the refresh token by `_refresh`. -/
def readRefresh (s : State) (k : ℕ) : Refresh → Option State
  | .reading =>
      match s.store.refresh with
      | some refresh =>
          let before := s.landed.filter (· ≤ refresh.session)
          some ({ s with before := Function.update s.before k before }.setRefresh k
            (.posting refresh))
      | none =>
          some ({ s with before := Function.update s.before k s.landed }.setRefresh k
            (.signingOut .reading))
  | .checking used =>
      some (s.setRefresh k
        (if s.store.refresh = some used then .signingOut .reading else .returned none))
  | .rechecking refresh ses =>
      some (s.setRefresh k
        (if s.store.refresh = some refresh then .saving ses .both else .returned none))
  | _ => none

end State

/-- What a refresh POST comes to. -/
inductive Answer where
  /-- `DioException`, with the status of the response, if there was one. -/
  | error (status : Option ℕ)
  /-- What `NativeSession.tryParse` makes of the body. -/
  | body (ses : Option NativeSession)
deriving DecidableEq, Repr

/-- The session is kept on network errors and 5xx. -/
def Answer.Transient : Answer → Prop
  | .error status => ∀ code ∈ status, 500 ≤ code
  | .body _ => False

instance : DecidablePred Answer.Transient := fun
  | .error status => inferInstanceAs (Decidable (∀ code ∈ status, 500 ≤ code))
  | .body _ => inferInstanceAs (Decidable False)

namespace State

def answered (s : State) (k : ℕ) (refresh : Token) (a : Answer) : State :=
  match a with
  | .body (some ses) =>
      { s with issued := ses.accessToken :: ses.refreshToken :: s.issued
               rotated := refresh :: s.rotated }.setRefresh k (.rechecking refresh ses)
  | a => s.setRefresh k (if a.Transient then .returned none else .checking refresh)

end State

/-- A refresh answers a new refresh token of the session it was asked about. -/
def Answer.Fresh (s : State) (refresh : Token) : Answer → Prop
  | .body (some ses) => ses.session = refresh.session ∧ ses.refreshToken ∉ s.issued
  | _ => True

instance {s : State} {refresh : Token} : DecidablePred (Answer.Fresh s refresh) := fun
  | .body (some _) => inferInstanceAs (Decidable (_ ∧ _))
  | .body none | .error _ => inferInstanceAs (Decidable True)

/-! ## The system -/

inductive Event where
  /-- A request fails with 401, having sent this jwt. -/
  | fail (i : ℕ) (sent : Option Token)
  | readJwt (i : ℕ)
  | compareJwt (i : ℕ)
  /-- The shared future completed. -/
  | resume (i : ℕ)
  | readRefresh (k : ℕ)
  | answer (k : ℕ) (a : Answer)
  | save (k : ℕ) (f : Field)
  /-- A step of the sign-out of a refresh. -/
  | dropSession (k : ℕ) (f : Field)
  /-- `whenComplete`. -/
  | complete (k : ℕ)
  | signIn (j : ℕ)
  | exchange (j : ℕ) (ses : Option NativeSession)
  | saveSignIn (j : ℕ) (f : Field)
  | signedIn (j : ℕ)
  | signOut (j : ℕ)
  /-- A step of a sign-out of the driver. -/
  | clear (j : ℕ) (f : Field)
deriving DecidableEq, Repr

/-- The state after the event, where it can happen. -/
def next (s : State) : Event → Option State
  | .fail i sent =>
      match s.handlers i with
      -- at most one retry per request
      | .idle => if s.retried i then some s else some (s.setHandler i (.reading sent))
      | _ => none
  | .readJwt i =>
      match s.handlers i with
      | .reading sent => some (s.setHandler i (.comparing sent s.store.jwt))
      | _ => none
  | .compareJwt i =>
      match s.handlers i with
      | .comparing sent current => some (s.compareJwt i sent current)
      | _ => none
  | .resume i =>
      match s.handlers i with
      | .awaiting k =>
          match s.refreshes k with
          | .completed (some _) => some (s.resend i)
          | .completed none => some (s.setHandler i .idle)
          | _ => none
      | _ => none
  | .readRefresh k => s.readRefresh k (s.refreshes k)
  | .answer k a =>
      match s.refreshes k with
      | .posting refresh => if a.Fresh s refresh then some (s.answered k refresh a) else none
      | _ => none
  | .save k f =>
      match s.refreshes k with
      | .saving ses rest =>
          if rest.Has f then
            some ((s.write ses f).setRefresh k (match rest.land f with
              | some rest => .saving ses rest
              | none => .returned (some ses.accessToken)))
          else none
      | _ => none
  | .dropSession k f =>
      match s.refreshes k with
      | .signingOut phase =>
          if phase.Awaits f then
            some ((s.signOut f phase).1.setRefresh k (match (s.signOut f phase).2 with
              | some phase => .signingOut phase
              | none => .returned none))
          else none
      | _ => none
  | .complete k =>
      match s.refreshes k with
      | .returned result => some ({ s with inFlight := none }.setRefresh k (.completed result))
      | _ => none
  | .signIn j =>
      match s.signIns j with
      | .idle => some (s.setSignIn j .posting)
      | _ => none
  | .exchange j ses =>
      match s.signIns j, ses with
      | .posting, none => some (s.setSignIn j .idle)
      | .posting, some ses =>
          if ∀ t ∈ s.issued, t.session < ses.session then
            some ({ s with issued := ses.accessToken :: ses.refreshToken :: s.issued }.setSignIn j
              (.saving ses .both))
          else none
      | _, _ => none
  | .saveSignIn j f =>
      match s.signIns j with
      | .saving ses rest =>
          if rest.Has f then
            some ((s.write ses f).setSignIn j (match rest.land f with
              | some rest => .saving ses rest
              | none => .saved ses.session))
          else none
      | _ => none
  | .signedIn j =>
      match s.signIns j with
      | .saved session => some ({ s with auth := some session }.setSignIn j .idle)
      | _ => none
  | .signOut j =>
      match s.signOuts j with
      | none => some (s.setSignOut j (some .reading))
      | some _ => none
  | .clear j f =>
      match s.signOuts j with
      | some phase =>
          if phase.Awaits f then
            some ((s.signOut f phase).1.setSignOut j (s.signOut f phase).2)
          else none
      | none => none

/-- The system whose runs are the interleavings of the app's futures. -/
def step (s : State) (e : Event) (s' : State) : Prop := next s e = some s'

end Rcab.DriverApp.Session
