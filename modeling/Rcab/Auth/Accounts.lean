import Rcab.Auth.Session
import Rcab.Auth.Tokens

/-!
# Accounts and signing in

`exchangeFirebaseToken`, `loginWithGoogle` and `linkGoogle` of `auth.service.ts` as sequences of
statements, with `google-verifier.service.ts`.  What Firebase and Google make of a token is an input;
`app_user` is kept in two tables, `AppUser` and `Identity`.
-/

namespace Rcab.Auth

abbrev FirebaseUid := String
abbrev GoogleSub := String

/-- The columns of `app_user` that `AppUser` leaves out. -/
structure Identity where
  userId : UserId
  firebaseUid : FirebaseUid
  googleSub : Option GoogleSub := none
  email : Option String := none
deriving DecidableEq, Repr

/-- `SET google_sub = $1, email = $2`. -/
def Identity.linkTo (sub : GoogleSub) (email : Option String) (a : Identity) : Identity :=
  { a with googleSub := some sub, email }

@[simp] theorem Identity.linkTo_userId (sub : GoogleSub) (email : Option String) (a : Identity) :
    (a.linkTo sub email).userId = a.userId := rfl

@[simp] theorem Identity.linkTo_firebaseUid (sub : GoogleSub) (email : Option String)
    (a : Identity) : (a.linkTo sub email).firebaseUid = a.firebaseUid := rfl

/-! ## What the identity providers answer -/

/-- `DecodedIdToken`, of Firebase. -/
structure DecodedIdToken where
  uid : FirebaseUid
  phoneNumber : Option String
  /-- Seconds. -/
  iat : Option ℤ
deriving DecidableEq, Repr

/-- `TokenPayload`, of Google. -/
structure TokenPayload where
  iss : String
  sub : GoogleSub
  email : Option String
  emailVerified : Bool
deriving DecidableEq, Repr

/-- `PHONE_E164_RE`: a plus and 8 to 15 digits, the first of which is not 0. -/
def PhoneE164 (phone : String) : Prop :=
  phone.toList.take 1 = ['+'] ∧ (∃ d ∈ phone.toList[1]?, '1' ≤ d ∧ d ≤ '9') ∧
    9 ≤ phone.toList.length ∧ phone.toList.length ≤ 16 ∧
    ∀ c ∈ phone.toList.drop 2, '0' ≤ c ∧ c ≤ '9'

instance : DecidablePred PhoneE164 := fun _ ↦ inferInstanceAs (Decidable (_ ∧ _ ∧ _ ∧ _ ∧ _))

def invalidFirebaseToken (message : String) : HttpError := ⟨401, "invalid_firebase_token", message⟩

/-- The checks of `exchangeFirebaseToken`; the verification throws where nothing was decoded. -/
def checkIdToken (decoded : Option DecodedIdToken) (dateNow : Time) :
    Except HttpError (FirebaseUid × String) :=
  match decoded with
  | none => .error (invalidFirebaseToken "Firebase token verification failed")
  | some decoded =>
  match decoded.phoneNumber.filter fun phone ↦ PhoneE164 phone with
  | none => .error (invalidFirebaseToken "Token must contain a valid E.164 phone number")
  | some phone =>
      if ∃ iat ∈ decoded.iat, seconds dateNow - iat > 3600 then
        .error (invalidFirebaseToken "Token is too old")
      else .ok (decoded.uid, phone)

/-- `GoogleVerifierService.verifyIdToken`: the ticket is missing where the verification throws, and
may have no payload. -/
def verifyGoogleToken (ticket : Option (Option TokenPayload)) :
    Except HttpError (GoogleSub × Option String) :=
  match ticket with
  | none => .error ⟨401, "invalid_google_token", "Google ID token verification failed"⟩
  | some none => .error ⟨401, "invalid_google_token", "Empty token payload"⟩
  | some (some payload) =>
      if payload.iss ≠ "accounts.google.com" ∧ payload.iss ≠ "https://accounts.google.com" then
        .error ⟨401, "invalid_google_token", "Invalid token issuer"⟩
      else if payload.emailVerified = false then
        .error ⟨401, "email_not_verified", "Google email not verified"⟩
      else .ok (payload.sub, payload.email)

/-! ## The statements -/

inductive SignInAnswer where
  | session (response : TokenResponse) (signedAt : Time)
  | linked
  | failed (error : HttpError)
deriving DecidableEq, Repr

/-- What a call does next. -/
inductive SignInPhase where
  /-- `findOrCreateUser` looks for the account. -/
  | findUser (uid : FirebaseUid) (phone : String)
  /-- `findOrCreateUser` creates it. -/
  | createUser (uid : FirebaseUid) (phone : String)
  /-- `loginWithGoogle` looks for the account. -/
  | findGoogle (sub : GoogleSub)
  /-- `linkGoogle` looks for another account. -/
  | checkLink (userId : UserId) (sub : GoogleSub) (email : Option String)
  /-- `linkGoogle` updates the account. -/
  | link (userId : UserId) (sub : GoogleSub) (email : Option String)
  /-- `issueSession` stores the refresh token. -/
  | issue (user : AppUser) (authMethod : AuthMethod)
  | answered (answer : SignInAnswer)
deriving DecidableEq, Repr

/-- What `AppExceptionFilter` answers when a statement throws. -/
def internalError : HttpError := ⟨500, "internal_error", "An error occurred"⟩

/-- `assertAccountActive`, for the account just read. -/
def admitted (user : AppUser) (authMethod : AuthMethod) : SignInPhase :=
  if user.status.Blocked then .answered (.failed ⟨403, "account_disabled", "Account is not active"⟩)
  else .issue user authMethod

/-- What a statement meets. -/
structure SignInEnv where
  /-- `randomUUID()`, for an account or for a family. -/
  newId : UserId
  hash : TokenHash
  dateNow : Time
  /-- The connection dies at the statement, with its effect or before it. -/
  lost : Option Bool := none
deriving DecidableEq, Repr

/-- The tables; the tokens and their statements are those of `World`. -/
structure AccountDb where
  auth : World
  identities : Table Identity.userId
  /-- `client`, by `user_id`. -/
  clients : Table (fun userId : UserId ↦ userId)

namespace AccountDb

variable (db : AccountDb)

/-- `SELECT id, role, phone_e164, status FROM app_user WHERE …`. -/
def userWhere (p : Identity → Prop) [DecidablePred p] : Option AppUser :=
  (db.identities.rows.find? fun a ↦ p a).bind fun a ↦ db.auth.users.get a.userId

/-- The transaction of `findOrCreateUser`; nothing where a unique index is in the way. -/
def createUser (newId : UserId) (uid : FirebaseUid) (phone : String) : Option AccountDb :=
  if (db.auth.users.get newId).isSome ∨ (db.clients.get newId).isSome ∨
      (db.identities.Any fun a ↦ a.firebaseUid = uid) ∨
      db.auth.users.Any fun u ↦ u.phoneE164 = phone then none
  else some
    { db with
      auth.users := db.auth.users.insert ⟨newId, .client, phone, .active⟩
      identities := db.identities.insert { userId := newId, firebaseUid := uid }
      clients := db.clients.insert newId }

/-- `UPDATE app_user SET google_sub = $1, email = $2 WHERE id = $3`; nothing where another account
has the `google_sub`. -/
def linkGoogle (userId : UserId) (sub : GoogleSub) (email : Option String) : Option AccountDb :=
  if (db.identities.get userId).isSome ∧
      db.identities.Any fun a ↦ a.userId ≠ userId ∧ a.googleSub = some sub then none
  else some
    { db with
      identities := db.identities.update (fun a ↦ a.userId = userId) (Identity.linkTo sub email) }

/-- What `issueSession` returns is about the account as it was read. -/
def sessionOf (user : AppUser) (authMethod : AuthMethod) (env : SignInEnv) : TokenResponse :=
  sessionResponse env.hash
    ⟨user.id, env.newId, authMethod, user.role, user.phoneE164, user.status⟩

/-- A statement, and what comes after it. -/
def statement (env : SignInEnv) : SignInPhase → AccountDb × SignInPhase
  | .findUser uid phone =>
      match db.userWhere fun a ↦ a.firebaseUid = uid with
      | some user => (db, admitted user .phone)
      | none => (db, .createUser uid phone)
  | .createUser uid phone =>
      match db.createUser env.newId uid phone with
      | some db => (db, admitted ⟨env.newId, .client, phone, .active⟩ .phone)
      | none => (db, .answered (.failed internalError))
  | .findGoogle sub =>
      match db.userWhere fun a ↦ a.googleSub = some sub with
      | some user => (db, admitted user .google)
      | none =>
          (db, .answered (.failed ⟨401, "not_found", "No account linked to this Google identity"⟩))
  | .checkLink userId sub email =>
      match db.identities.rows.find? fun a ↦ a.googleSub = some sub with
      | some a =>
          if a.userId ≠ userId then
            (db, .answered (.failed
              ⟨409, "google_already_linked", "Google account linked to another user"⟩))
          else (db, .link userId sub email)
      | none => (db, .link userId sub email)
  | .link userId sub email =>
      match db.linkGoogle userId sub email with
      | some db => (db, .answered .linked)
      | none => (db, .answered (.failed internalError))
  | .issue user authMethod =>
      ({ db with auth := db.auth.next (.login user authMethod env.newId env.hash env.dateNow) },
        .answered (.session (sessionOf user authMethod env) env.dateNow))
  | .answered answer => (db, .answered answer)

/-- The same, when the connection may die. -/
def statementFaulty (env : SignInEnv) (phase : SignInPhase) : AccountDb × SignInPhase :=
  match env.lost with
  | none => db.statement env phase
  | some true => ((db.statement env phase).1, .answered (.failed internalError))
  | some false => (db, .answered (.failed internalError))

end AccountDb

/-! ## The unique indexes -/

/-- The rows of `app_user` agree, and its unique columns are. -/
structure AccountDb.Unique (db : AccountDb) : Prop where
  same : ∀ id, (db.identities.get id).isSome ↔ (db.auth.users.get id).isSome
  firebaseUid : db.identities.UniqueOn (fun _ ↦ True) Identity.firebaseUid
  googleSub : db.identities.UniqueOn (fun a ↦ a.googleSub ≠ none) Identity.googleSub
  phoneE164 : db.auth.users.UniqueOn (fun _ ↦ True) AppUser.phoneE164

section Spec

variable {db db' : AccountDb} {p : Identity → Prop} [DecidablePred p] {user : AppUser}
  {newId userId : UserId} {uid : FirebaseUid} {phone : String} {sub : GoogleSub}
  {email : Option String} {authMethod : AuthMethod} {env : SignInEnv}

/-- What passes the checks was decoded. -/
theorem checkIdToken_eq_ok {decoded : Option DecodedIdToken} {dateNow : Time}
    (h : checkIdToken decoded dateNow = .ok (uid, phone)) :
    ∃ d, decoded = some d ∧ d.uid = uid ∧ d.phoneNumber = some phone ∧ PhoneE164 phone := by
  unfold checkIdToken at h
  split at h
  · cases h
  rename_i d
  split at h
  · cases h
  rename_i phone' hphone
  split_ifs at h
  obtain ⟨rfl, rfl⟩ := Prod.mk.inj (Except.ok.inj h)
  obtain ⟨hphone, hvalid⟩ := Option.filter_eq_some_iff.mp hphone
  exact ⟨d, rfl, rfl, hphone, of_decide_eq_true hvalid⟩

/-- Only a verified e-mail address passes. -/
theorem verifyGoogleToken_eq_ok {ticket : Option (Option TokenPayload)}
    (h : verifyGoogleToken ticket = .ok (sub, email)) :
    ∃ t, ticket = some (some t) ∧ t.sub = sub ∧ t.email = email ∧ t.emailVerified = true := by
  unfold verifyGoogleToken at h
  split at h
  · cases h
  · cases h
  rename_i payload
  split_ifs at h with hiss hverified
  obtain ⟨rfl, rfl⟩ := Prod.mk.inj (Except.ok.inj h)
  exact ⟨payload, rfl, rfl, rfl, by simpa using hverified⟩

theorem userWhere_eq_some (h : db.userWhere p = some user) :
    ∃ a ∈ db.identities, p a ∧ a.userId = user.id := by
  obtain ⟨a, ha, huser⟩ := Option.bind_eq_some_iff.mp h
  exact ⟨a, List.mem_of_find?_eq_some ha, by simpa using List.find?_some ha,
    (Table.key_of_get huser).symm⟩

/-- Nothing stood in the way of a new account. -/
structure Creates (db : AccountDb) (newId : UserId) (uid : FirebaseUid) (phone : String)
    (db' : AccountDb) : Prop where
  free : db.auth.users.get newId = none
  uidFree : ¬ db.identities.Any fun a ↦ a.firebaseUid = uid
  phoneFree : ¬ db.auth.users.Any fun u ↦ u.phoneE164 = phone
  eq : db' =
    { db with
      auth.users := db.auth.users.insert ⟨newId, .client, phone, .active⟩
      identities := db.identities.insert { userId := newId, firebaseUid := uid }
      clients := db.clients.insert newId }

theorem createUser_eq_some (h : db.createUser newId uid phone = some db') :
    Creates db newId uid phone db' := by
  unfold AccountDb.createUser at h
  split_ifs at h with hno
  simp only [not_or, Bool.not_eq_true, Option.isSome_eq_false_iff, Option.isNone_iff_eq_none] at hno
  exact ⟨hno.1, hno.2.2.1, hno.2.2.2, (Option.some.inj h).symm⟩

theorem linkGoogle_eq_some (h : db.linkGoogle userId sub email = some db') :
    (∀ a ∈ db.identities, a.userId = userId →
      ∀ a' ∈ db.identities, a'.googleSub = some sub → a'.userId = userId) ∧
    db' = { db with
      identities :=
        db.identities.update (fun a ↦ a.userId = userId) (Identity.linkTo sub email) } := by
  unfold AccountDb.linkGoogle at h
  split_ifs at h with hno
  refine ⟨fun a ha haid a' ha' hsub ↦ by_contra fun hne ↦ hno ⟨?_, a', ha', hne, hsub⟩,
    (Option.some.inj h).symm⟩
  rw [← haid, Table.get_of_mem ha]
  rfl

theorem admitted_eq_issue {authMethod' : AuthMethod} {user' : AppUser}
    (h : admitted user authMethod = .issue user' authMethod') :
    user' = user ∧ ¬ user.status.Blocked := by
  unfold admitted at h
  split_ifs at h with hb
  obtain ⟨rfl, rfl⟩ := SignInPhase.issue.inj h
  exact ⟨rfl, hb⟩

namespace AccountDb.Unique

theorem create (h : db.Unique) (hc : Creates db newId uid phone db') : db'.Unique := by
  have hfree : db.identities.get newId = none := by
    rw [← Option.not_isSome_iff_eq_none, h.same, hc.free]
    simp
  obtain ⟨hnone, huid, hphone, rfl⟩ := hc
  refine ⟨fun id ↦ ?_, ?_, ?_, ?_⟩
  · simp only [Table.isSome_get_insert, h.same]
  · refine h.firebaseUid.insert hfree ?_
    rintro - ⟨a, ha, -, heq⟩
    exact huid ⟨a, ha, heq⟩
  · exact h.googleSub.insert hfree fun hne ↦ absurd rfl hne
  · refine h.phoneE164.insert hnone ?_
    rintro - ⟨u, hu, -, heq⟩
    exact hphone ⟨u, hu, heq⟩

theorem link (h : db.Unique) (hl : db.linkGoogle userId sub email = some db') : db'.Unique := by
  obtain ⟨hother, rfl⟩ := linkGoogle_eq_some hl
  have hkey : ∀ a : Identity, (a.linkTo sub email).userId = a.userId := fun _ ↦ rfl
  refine ⟨fun id ↦ ?_, ?_, ?_, h.phoneE164⟩
  · show ((Table.update _ _ _ hkey).get id).isSome ↔ _
    rw [Table.isSome_get_update, h.same]
  · exact h.firebaseUid.update hkey fun _ _ _ _ ↦ ⟨trivial, rfl⟩
  · -- The account is the only one with the `google_sub`, before and after.
    show (Table.update _ _ _ hkey).UniqueOn _ _
    rintro a' ha' b' hb' hsub - hab
    obtain ⟨a, ha, rfl⟩ := Table.mem_update.mp ha'
    obtain ⟨b, hb, rfl⟩ := Table.mem_update.mp hb'
    split_ifs at hsub hab ⊢ with hau hbu hbu
    · rw [Table.unique ha hb (hau.trans hbu.symm)]
    · exact absurd (hother a ha hau b hb hab.symm) hbu
    · exact absurd (hother b hb hbu a ha hab) hau
    · exact h.googleSub a ha b hb hsub (fun hnone ↦ hsub (hab.trans hnone)) hab

end AccountDb.Unique

end Spec

end Rcab.Auth
