import Rcab.Auth.Ledger

/-!
# Everybody is sent their own sessions

However the calls interleave, a principal is only ever sent tokens for the accounts of its own
Firebase identities (`own_sessions`), and a session ends by a request of its own principal only
(`ended_by_owner`).
-/

universe u v

namespace Rcab.Auth

open ReadCommitted
open SignInWorld (Owns)

section Sessions

variable {P : Type u} {provider : Provider P} {l l' : Ledger} {w : SignInWorld P} {p : P}

/-! ## The calls -/

/-- New tables, with the same tokens and no account lost. -/
theorem SignInInv.of_db {db' : AccountDb} (h : SignInInv provider l w) (hlast : Lasts provider l w.db l db')
    (hunique : db'.Unique)
    (hlinked : ∀ a ∈ db'.identities, ∀ sub, a.googleSub = some sub →
      provider.googleOwner sub = provider.firebaseOwner a.firebaseUid)
    (hstore : db'.auth.store = w.db.auth.store) (hissued : db'.auth.issued = w.db.auth.issued)
    (htxs : db'.auth.txs = w.db.auth.txs) : SignInInv provider l { w with db := db' } := by
  refine ⟨hunique, hlinked, h.ledger.of_store hstore hissued, fun p k hk ↦ ?_, fun p c hc ↦ ?_,
    fun i p phase hi ↦ hlast.call (h.calls i p phase hi), fun x tx hx ↦ ?_, fun x k r hh ↦ ?_⟩
  · obtain ⟨f, u, hf, hu⟩ := h.given p k hk
    exact ⟨f, u, hf, hlast.accounts _ _ hu⟩
  · obtain ⟨claims, dateNow, hc, hu⟩ := h.signed p c hc
    exact ⟨claims, dateNow, hc, hlast.accounts _ _ hu⟩
  · obtain ⟨p, hp, hown⟩ := h.txs x tx (htxs ▸ hx)
    exact ⟨p, hp, hlast.tx hown⟩
  · obtain ⟨hx, p, hp, hu⟩ := h.held x k r (hstore ▸ hh)
    exact ⟨htxs ▸ hx, p, hp, hlast.accounts _ _ hu⟩

theorem SignInInv.create {newId : UserId} {uid : FirebaseUid} {phone : String} {db' : AccountDb}
    (h : SignInInv provider l w) (hc : Creates w.db newId uid phone db') :
    Lasts provider l w.db l db' ∧ SignInInv provider l { w with db := db' } ∧
      Owns provider db' (provider.firebaseOwner uid) newId := by
  have hunique := h.unique.create hc
  have hfree : w.db.identities.get newId = none := by
    rw [← Option.not_isSome_iff_eq_none, h.unique.same, hc.free]
    simp
  have hmem : ∀ a, a ∈ db'.identities ↔
      a ∈ w.db.identities ∨ a = { userId := newId, firebaseUid := uid } := by
    intro a
    rw [hc.eq]
    exact Table.mem_insert hfree
  have hlast : Lasts provider l w.db l db' := by
    refine ⟨fun _ _ h ↦ h, ?_⟩
    rintro p userId ⟨a, ha, hid, howner⟩
    exact ⟨a, (hmem a).mpr (Or.inl ha), hid, howner⟩
  refine ⟨hlast, h.of_db hlast hunique ?_ (by rw [hc.eq]) (by rw [hc.eq]) (by rw [hc.eq]), _,
    (hmem _).mpr (Or.inr rfl), rfl, rfl⟩
  intro a ha sub hsub
  rcases (hmem a).mp ha with ha | rfl
  · exact h.linked a ha sub hsub
  · cases hsub

theorem SignInInv.link {userId : UserId} {sub : GoogleSub} {email : Option String}
    {db' : AccountDb} (h : SignInInv provider l w)
    (howns : Owns provider w.db (provider.googleOwner sub) userId)
    (hl : w.db.linkGoogle userId sub email = some db') :
    Lasts provider l w.db l db' ∧ SignInInv provider l { w with db := db' } := by
  have hunique := h.unique.link hl
  obtain ⟨-, rfl⟩ := linkGoogle_eq_some hl
  have hkey : ∀ a : Identity, (a.linkTo sub email).userId = a.userId := fun _ ↦ rfl
  have hmem : ∀ a ∈ w.db.identities, ∃ a' ∈ w.db.identities.update (fun a ↦ a.userId = userId)
      (Identity.linkTo sub email) hkey, a'.userId = a.userId ∧ a'.firebaseUid = a.firebaseUid := by
    intro a ha
    refine ⟨_, Table.mem_update.mpr ⟨a, ha, rfl⟩, ?_⟩
    split_ifs <;> exact ⟨rfl, rfl⟩
  have hlast : Lasts provider l w.db l { w.db with
      identities := w.db.identities.update (fun a ↦ a.userId = userId) (Identity.linkTo sub email)
        hkey } := by
    refine ⟨fun _ _ h ↦ h, ?_⟩
    rintro p _ ⟨a, ha, rfl, rfl⟩
    obtain ⟨a', ha', hid, huid⟩ := hmem a ha
    exact ⟨a', ha', hid, by rw [huid]⟩
  refine ⟨hlast, h.of_db hlast hunique ?_ rfl rfl rfl⟩
  refine Table.forall_mem_update hkey h.linked fun a ha hid sub' hsub ↦ ?_
  -- The account that is linked is the only one of its id.
  obtain ⟨a', ha', hid', howner⟩ := howns
  obtain rfl := Table.unique ha ha' (hid.trans hid'.symm)
  obtain rfl := Option.some.inj hsub
  exact howner.symm

/-- A session is issued, for an account of the principal. -/
theorem SignInInv.issue {user : AppUser} {env : SignInEnv} (h : SignInInv provider l w)
    (authMethod : AuthMethod) (howns : Owns provider w.db p user.id)
    (hgen : env.hash ∈ provider.generated) (hfresh : env.hash ∉ w.db.auth.issued)
    (hfree : FamilyFree w.db.auth.store env.newId) :
    ∃ l', SignInInv provider l' { w with
        db.auth := w.db.auth.next (.login user authMethod env.newId env.hash env.dateNow) } ∧
      (AccountDb.sessionOf user authMethod env).Own provider l' w.db p := by
  have hext := h.ledger.enter_extends (f := env.newId) (u := user.id) hfresh
  have hnone := h.ledger.none_of_fresh hfresh
  have hget : ∀ k, (w.db.auth.store.committed.insert
      (sessionRow env.hash env.newId user.id authMethod env.dateNow)).get k =
      if k = env.hash then some (sessionRow env.hash env.newId user.id authMethod env.dateNow)
      else w.db.auth.store.committed.get k := fun k ↦ Table.get_insert hnone
  have hlast : Lasts provider l w.db (l.enter env.hash env.newId user.id)
      { w.db with
        auth := w.db.auth.next (.login user authMethod env.newId env.hash env.dateNow) } :=
    ⟨hext, fun _ _ h ↦ h⟩
  refine ⟨l.enter env.hash env.newId user.id, ⟨⟨h.unique.same, h.unique.firebaseUid,
    h.unique.googleSub, h.unique.phoneE164⟩, h.linked, h.ledger.enter hfresh hgen rfl ?_
      (fun r hr ↦ ?_) (fun k r hk ↦ ?_) ?_, fun q k hk ↦ ?_, h.signed,
    fun i q phase hi ↦ hlast.call (h.calls i q phase hi), fun x tx hx ↦ ?_, h.held⟩,
    ⟨env.newId, Ledger.enter_self⟩, howns⟩
  · -- No row is of the family yet, so no token was issued for it.
    intro k u' hk
    obtain ⟨k', r, hr, hfam⟩ := h.ledger.root _ _ _ hk
    exact absurd ⟨r, Table.mem_of_get hr, hfam⟩ hfree.1
  · rcases InStore.of_insert (show w.db.auth.store.committed.get (sessionRow env.hash env.newId
      user.id authMethod env.dateNow).tokenHash = none from hnone) hr with rfl | hr
    · exact Or.inl ⟨rfl, rfl, rfl⟩
    · exact Or.inr hr
  · show (w.db.auth.store.committed.insert _).get k = some r
    rw [hget, if_neg]
    · exact hk
    · rintro rfl
      rw [hnone] at hk
      cases hk
  · exact ⟨env.hash, _, (hget env.hash).trans (if_pos rfl), rfl⟩
  · obtain ⟨f, u, hf, hu⟩ := h.given q k hk
    exact ⟨f, u, hext _ _ hf, hu⟩
  · obtain ⟨q, hq, hown⟩ := h.txs x tx hx
    exact ⟨q, hq, hlast.tx hown⟩

theorem admitted_own {user : AppUser} {authMethod : AuthMethod}
    (h : Owns provider w.db p user.id) : (admitted user authMethod).Own provider l w.db p := by
  unfold admitted
  split_ifs
  · trivial
  · exact h

/-- A statement of a call of the principal's. -/
theorem SignInInv.statement {env : SignInEnv} {phase : SignInPhase} (h : SignInInv provider l w)
    (hown : phase.Own provider l w.db p) (hgen : env.hash ∈ provider.generated)
    (hfresh : env.hash ∉ w.db.auth.issued) (hfree : FamilyFree w.db.auth.store env.newId) :
    ∃ l', SignInInv provider l' { w with db := (w.db.statement env phase).1 } ∧
      (w.db.statement env phase).2.Own provider l' (w.db.statement env phase).1 p := by
  cases phase with
  | findUser uid phone =>
    cases hu : w.db.userWhere fun a ↦ a.firebaseUid = uid with
    | none =>
      simp only [AccountDb.statement, hu]
      exact ⟨l, h, hown⟩
    | some user =>
      obtain ⟨a, ha, rfl, hid⟩ := userWhere_eq_some hu
      simp only [AccountDb.statement, hu]
      exact ⟨l, h, admitted_own ⟨a, ha, hid, hown⟩⟩
  | createUser uid phone =>
    cases hc : w.db.createUser env.newId uid phone with
    | none =>
      simp only [AccountDb.statement, hc]
      exact ⟨l, h, trivial⟩
    | some db' =>
      simp only [AccountDb.statement, hc]
      obtain ⟨-, hinv, howns⟩ := h.create (createUser_eq_some hc)
      rw [show provider.firebaseOwner uid = p from hown] at howns
      exact ⟨l, hinv, admitted_own (w := { w with db := db' }) howns⟩
  | findGoogle sub =>
    cases hu : w.db.userWhere fun a ↦ a.googleSub = some sub with
    | none =>
      simp only [AccountDb.statement, hu]
      exact ⟨l, h, trivial⟩
    | some user =>
      obtain ⟨a, ha, hsub, hid⟩ := userWhere_eq_some hu
      simp only [AccountDb.statement, hu]
      exact ⟨l, h, admitted_own ⟨a, ha, hid, (h.linked a ha sub hsub).symm.trans hown⟩⟩
  | checkLink userId sub email =>
    simp only [AccountDb.statement]
    split
    · split_ifs
      · exact ⟨l, h, trivial⟩
      · exact ⟨l, h, hown⟩
    · exact ⟨l, h, hown⟩
  | link userId sub email =>
    obtain ⟨howns, rfl⟩ := hown
    cases hl : w.db.linkGoogle userId sub email with
    | none =>
      simp only [AccountDb.statement, hl]
      exact ⟨l, h, trivial⟩
    | some db' =>
      simp only [AccountDb.statement, hl]
      exact ⟨l, (h.link howns hl).2, trivial⟩
  | issue user authMethod =>
    obtain ⟨l', hinv, hresponse⟩ := h.issue authMethod hown hgen hfresh hfree
    have hlast : Lasts provider l' w.db l' (w.db.statement env (.issue user authMethod)).1 :=
      ⟨fun _ _ h ↦ h, fun _ _ h ↦ h⟩
    exact ⟨l', hinv, hlast.response hresponse⟩
  | answered answer => exact ⟨l, h, hown⟩

theorem SignInInv.statementFaulty {env : SignInEnv} {phase : SignInPhase}
    (h : SignInInv provider l w) (hown : phase.Own provider l w.db p)
    (hgen : env.hash ∈ provider.generated) (hfresh : env.hash ∉ w.db.auth.issued)
    (hfree : FamilyFree w.db.auth.store env.newId) :
    ∃ l', SignInInv provider l' { w with db := (w.db.statementFaulty env phase).1 } ∧
      (w.db.statementFaulty env phase).2.Own provider l' (w.db.statementFaulty env phase).1 p := by
  obtain ⟨l', hinv, hphase⟩ := h.statement hown hgen hfresh hfree
  unfold AccountDb.statementFaulty
  split
  · exact ⟨l', hinv, hphase⟩
  · exact ⟨l', hinv, trivial⟩
  · exact ⟨l, h, trivial⟩

theorem SignInInv.setCall {i : ℕ} {phase : SignInPhase} (h : SignInInv provider l w)
    (hown : phase.Own provider l w.db p) : SignInInv provider l (w.setCall i p phase) := by
  refine ⟨h.unique, h.linked, h.ledger, h.given, h.signed, fun j q phase' hj ↦ ?_, h.txs, h.held⟩
  simp only [SignInWorld.setCall, Function.update_apply] at hj
  split_ifs at hj
  · obtain ⟨rfl, rfl⟩ := Prod.mk.inj (Option.some.inj hj)
    exact hown
  · exact h.calls j q phase' hj

theorem SignInInv.start {request : Request} {now : Time} (h : SignInInv provider l w)
    (hx : w.db.auth.txs x = none) (hreq : OwnOrNone provider l w.db p request.presented) :
    SignInInv provider l (w.start x p request now) := by
  have hlast : Lasts provider l w.db l (w.start x p request now).db :=
    ⟨fun _ _ h ↦ h, fun _ _ h ↦ h⟩
  have hne : ∀ y, (w.db.auth.txs y).isSome → y ≠ x := by
    rintro _ hy rfl
    rw [hx] at hy
    cases hy
  refine ⟨⟨h.unique.same, h.unique.firebaseUid, h.unique.googleSub, h.unique.phoneE164⟩, h.linked,
    h.ledger.of_store rfl rfl, h.given, h.signed,
    fun i q phase hi ↦ hlast.call (h.calls i q phase hi), fun y tx hy ↦ ?_, fun y k r hh ↦ ?_⟩
  · simp only [SignInWorld.start, World.next, Function.update_apply] at hy ⊢
    split_ifs at hy ⊢ with hyx
    · obtain rfl := Option.some.inj hy
      exact ⟨p, rfl, hlast.ownOrNone hreq, trivial⟩
    · obtain ⟨q, hq, hown⟩ := h.txs y tx hy
      exact ⟨q, hq, hlast.tx hown⟩
  · obtain ⟨hy, hq⟩ := h.held y k r hh
    simp only [SignInWorld.start, World.next, Function.update_of_ne (hne y hy)]
    exact ⟨hy, hq⟩

theorem SignInInv.send {response : TokenResponse} {signedAt : Time} (h : SignInInv provider l w)
    (hown : response.Own provider l w.db p) : SignInInv provider l (w.send p response signedAt) := by
  refine ⟨h.unique, h.linked, h.ledger, fun q k hk ↦ ?_, fun q c hc ↦ ?_, h.calls, h.txs, h.held⟩
  · rcases List.mem_cons.mp hk with hk | hk
    · obtain ⟨rfl, rfl⟩ := Prod.mk.inj hk
      obtain ⟨⟨f, hf⟩, howns⟩ := hown
      exact ⟨f, _, hf, howns⟩
    · exact h.given q k hk
  · rcases List.mem_cons.mp hc with hc | hc
    · obtain ⟨rfl, rfl⟩ := Prod.mk.inj hc
      exact ⟨_, _, rfl, hown.account⟩
    · exact h.signed q c hc

/-- A call ends no session. -/
theorem SignInInv.kept_statementFaulty {env : SignInEnv} {phase : SignInPhase} {k : TokenHash}
    {r : RefreshToken} (h : SignInInv provider l w) (hfresh : env.hash ∉ w.db.auth.issued)
    (hk : w.db.auth.store.committed.get k = some r) :
    (w.db.statementFaulty env phase).1.auth.store.committed.get k = some r := by
  have hnone := h.ledger.none_of_fresh hfresh
  have hne : k ≠ env.hash := by
    rintro rfl
    rw [hnone] at hk
    cases hk
  have key : (w.db.statement env phase).1.auth.store.committed.get k = some r := by
    cases phase with
    | issue user authMethod =>
      show (Table.insert _ _).get k = some r
      exact (Table.get_insert hnone).trans ((if_neg hne).trans hk)
    | createUser uid phone =>
      cases hc : w.db.createUser env.newId uid phone with
      | none =>
        simp only [AccountDb.statement, hc]
        exact hk
      | some db' =>
        simp only [AccountDb.statement, hc]
        rw [(createUser_eq_some hc).eq]
        exact hk
    | link userId sub email =>
      cases hl : w.db.linkGoogle userId sub email with
      | none =>
        simp only [AccountDb.statement, hl]
        exact hk
      | some db' =>
        simp only [AccountDb.statement, hl]
        rw [(linkGoogle_eq_some hl).2]
        exact hk
    | findUser uid phone =>
      simp only [AccountDb.statement]
      split <;> exact hk
    | findGoogle sub =>
      simp only [AccountDb.statement]
      split <;> exact hk
    | checkLink userId sub email =>
      simp only [AccountDb.statement]
      split
      · split_ifs <;> exact hk
      · exact hk
    | answered answer => exact hk
  unfold AccountDb.statementFaulty
  split
  · exact key
  · exact key
  · exact hk

/-! ## Runs -/

theorem SignInInv.ownOrNone {presented : TokenHash} (h : SignInInv provider l w)
    (hp : w.CanPresent provider p presented) : OwnOrNone provider l w.db p presented :=
  hp.imp_left (h.given p presented)

theorem SignInInv.initial (h : w.Initial provider) :
    SignInInv provider (fun _ ↦ none) w where
  unique := h.unique
  linked := h.linked
  ledger := by
    refine ⟨fun r hr ↦ ?_, nofun, nofun, nofun⟩
    rcases hr with ⟨k, hk⟩ | ⟨x, k, hh⟩
    · exact absurd (Table.mem_of_get hk) (h.auth.committed r)
    · exact absurd (Table.mem_of_get hh) (h.auth.versions _)
  given p k hk := by
    rw [h.given] at hk
    cases hk
  signed p c hc := by
    rw [h.signed] at hc
    cases hc
  calls i p phase hi := by
    rw [h.calls i] at hi
    cases hi
  txs x tx hx := by
    rw [h.auth.txs x] at hx
    cases hx
  held x k r hh := absurd (Table.mem_of_get hh) (h.auth.versions _)

section Runs

variable [DecidableEq P] {Token : Type v} {jwt : JwtService TokenBody Token}
  {w' w₀ : SignInWorld P} {e : SignInEvent P Token} {tr : List (SignInWorld P × SignInEvent P Token)}

theorem SignInWorld.mem_knownTo {c : TokenClaims} : c ∈ w.knownTo p ↔ (p, c) ∈ w.signed := by
  simp [SignInWorld.knownTo]

/-- Whoever is let in has an access token of its own. -/
theorem SignInInv.owns_of_guard {bearer : Option Token} {dateNow : Time} {user : AccessTokenClaims}
    (h : SignInInv provider l w) (hjwt : jwt.Lawful)
    (hp : ∀ t, bearer = some t → jwt.Presentable (w.knownTo p) t)
    (hg : authGuard jwt bearer dateNow = .ok user) : Owns provider w.db p user.sub := by
  obtain ⟨t, ht, hv⟩ := authGuard_eq_ok hg
  obtain ⟨c, hc, hbody⟩ := verifyAccessToken_eq_some hv
  have hmem := hjwt.mem_issued (hp t ht) hc
  obtain ⟨claims, signedAt, rfl, howns⟩ := h.signed p c (SignInWorld.mem_knownTo.mp hmem)
  obtain ⟨-, rfl⟩ := TokenBody.access.inj hbody
  exact howns

theorem SignInInv.step (h : SignInInv provider l w) (hjwt : jwt.Lawful)
    (hst : SignInWorld.step provider jwt w e w') : ∃ l', SignInInv provider l' w' := by
  obtain ⟨hok, rfl⟩ := hst
  cases e with
  | firebaseExchange i p decoded dateNow =>
    obtain ⟨-, howner⟩ := hok
    refine ⟨l, h.setCall ?_⟩
    cases hc : checkIdToken decoded dateNow with
    | error err => trivial
    | ok checked =>
      obtain ⟨d, hd, huid, -⟩ := checkIdToken_eq_ok hc
      exact (congrArg provider.firebaseOwner huid).symm.trans (howner d hd)
  | googleLogin i p ticket =>
    obtain ⟨-, howner⟩ := hok
    refine ⟨l, h.setCall ?_⟩
    cases hc : verifyGoogleToken ticket with
    | error err => trivial
    | ok checked =>
      obtain ⟨t, ht, hsub, -⟩ := verifyGoogleToken_eq_ok hc
      exact (congrArg provider.googleOwner hsub).symm.trans (howner t ht)
  | googleLink i p bearer ticket dateNow =>
    obtain ⟨-, hbearer, howner⟩ := hok
    refine ⟨l, h.setCall ?_⟩
    cases hg : authGuard jwt bearer dateNow with
    | error err => trivial
    | ok user =>
      cases hc : verifyGoogleToken ticket with
      | error err => trivial
      | ok checked =>
        obtain ⟨t, ht, hsub, -⟩ := verifyGoogleToken_eq_ok hc
        exact ⟨h.owns_of_guard hjwt hbearer hg, hsub ▸ howner t ht⟩
  | run i env =>
    obtain ⟨⟨p, phase, hi, -⟩, hgen, hfresh, hfree⟩ := hok
    simp only [SignInWorld.next, hi]
    obtain ⟨l', hinv, hphase⟩ := h.statementFaulty (h.calls i p phase hi) hgen hfresh hfree
    exact ⟨l', hinv.setCall hphase⟩
  | reply i =>
    simp only [SignInWorld.next]
    split
    · rename_i p response signedAt hi
      exact ⟨l, h.send (h.calls i p _ hi)⟩
    · exact ⟨l, h⟩
  | refresh x p presented now =>
    exact ⟨l, h.start hok.1 (h.ownOrNone hok.2)⟩
  | nativeLogout x p presented now =>
    exact ⟨l, h.start hok.1 (h.ownOrNone hok.2)⟩
  | logout x p bearer presented now dateNow =>
    simp only [SignInWorld.next]
    split
    · exact ⟨l, h⟩
    · exact ⟨l, h.start hok.1 (h.ownOrNone hok.2.1)⟩
  | session e =>
    obtain ⟨hin, hgen, hallowed⟩ := hok
    exact h.inner hin hgen ⟨hallowed, rfl⟩
  | sessionReply x signedAt =>
    simp only [SignInWorld.next]
    split
    · rename_i p request now response hp hx
      obtain ⟨q, hq, hown⟩ := h.txs x _ hx
      obtain rfl := Option.some.inj (hp.symm.trans hq)
      exact ⟨l, h.send hown.phase⟩
    · exact ⟨l, h⟩

theorem SignInInv.run (hjwt : jwt.Lawful) (h₀ : w₀.Initial provider)
    (hr : Run (SignInWorld.step provider jwt) w₀ tr w) : ∃ l, SignInInv provider l w :=
  hr.invariant (I := fun w ↦ ∃ l, SignInInv provider l w)
    (fun _ _ _ ⟨_, h⟩ hst ↦ h.step hjwt hst) ⟨_, .initial h₀⟩

/-- In every state, whoever was sent an access token or a refresh token is the owner of the account
it is for; a Google account is linked to an account of its owner's only; and no two accounts share
an identity. -/
theorem own_sessions (hjwt : jwt.Lawful) (h₀ : w₀.Initial provider)
    (hr : Run (SignInWorld.step provider jwt) w₀ tr w) :
    (∀ p c, (p, c) ∈ w.signed →
      ∃ claims dateNow, c = accessClaims claims dateNow ∧ Owns provider w.db p claims.sub) ∧
    (∀ p h r, (p, h) ∈ w.given → w.db.auth.store.committed.get h = some r →
      Owns provider w.db p r.userId) ∧
    (∀ a ∈ w.db.identities, ∀ sub, a.googleSub = some sub →
      provider.googleOwner sub = provider.firebaseOwner a.firebaseUid) ∧
    w.db.Unique := by
  obtain ⟨l, h⟩ := SignInInv.run hjwt h₀ hr
  refine ⟨h.signed, fun p k r hk hr ↦ ?_, h.linked, h.unique⟩
  obtain ⟨f, u, hf, howns⟩ := h.given p k hk
  have hrow := h.ledger.rows r (Or.inl ⟨k, hr⟩)
  rw [Table.key_of_get hr, hf] at hrow
  obtain ⟨-, rfl⟩ := Prod.mk.inj (Option.some.inj hrow)
  exact howns

/-- Alice is there, with a Google account; everything is hers. -/
def sampleProvider : Provider String := ⟨fun _ ↦ "alice", fun _ ↦ "alice", Set.univ⟩

def sampleAccount : AppUser := ⟨5, .client, "+911234567890", .active⟩

def sampleSignInWorld : SignInWorld String where
  db :=
    { auth := ⟨.empty, Table.empty.insert sampleAccount, fun _ ↦ none, []⟩
      identities := Table.empty.insert { userId := 5, firebaseUid := "alice", googleSub := some "g" }
      clients := Table.empty.insert 5 }
  calls _ := none
  callers _ := none
  signed := []
  given := []

theorem sampleSignInWorld_initial : sampleSignInWorld.Initial sampleProvider where
  auth := ⟨Table.notMem_empty, Table.notMem_empty, fun _ ↦ rfl⟩
  unique :=
    { same := fun id ↦ by
        show ((Table.empty.insert _).get id).isSome ↔ ((Table.empty.insert _).get id).isSome
        simp only [Table.isSome_get_insert, Table.get_empty]
        rfl
      firebaseUid := Table.UniqueOn.empty.insert rfl fun _ ⟨_, hr, _⟩ ↦ Table.notMem_empty _ hr
      googleSub := Table.UniqueOn.empty.insert rfl fun _ ⟨_, hr, _⟩ ↦ Table.notMem_empty _ hr
      phoneE164 := Table.UniqueOn.empty.insert rfl fun _ ⟨_, hr, _⟩ ↦ Table.notMem_empty _ hr }
  linked _ _ _ _ := rfl
  calls _ := rfl
  callers _ := rfl
  signed := rfl
  given := rfl

/-- She signs in with Google and exchanges her token, up to the commit. -/
def sampleSignIns : List (SignInEvent String (Option TokenClaims)) :=
  [.googleLogin 0 "alice" (some (some ⟨"accounts.google.com", "g", none, true⟩)),
    .run 0 ⟨7, 1, 0, none⟩, .run 0 ⟨7, 1, 0, none⟩, .reply 0, .refresh 0 "alice" 1 1000,
    .session (.statement 0 2 1002), .session (.touch 0 1), .session (.statement 0 2 1004)]

def sampleSignedIn : SignInWorld String :=
  sampleSignIns.foldl (SignInWorld.next JwtService.plain) sampleSignInWorld

theorem reachable_sampleSignedIn :
    Reachable (SignInWorld.step sampleProvider JwtService.plain) sampleSignInWorld
      sampleSignedIn := by
  have hok : Enabled (SignInWorld.Allowed sampleProvider JwtService.plain)
      (SignInWorld.next JwtService.plain) sampleSignInWorld sampleSignIns :=
    ⟨⟨rfl, fun _ _ ↦ rfl⟩, ⟨⟨_, _, rfl, id⟩, trivial, by decide +kernel, by decide +kernel⟩,
      ⟨⟨_, _, rfl, id⟩, trivial, by decide +kernel, by decide +kernel⟩, trivial,
      ⟨rfl, Or.inl (by decide +kernel)⟩, ⟨trivial, trivial, by decide +kernel⟩,
      ⟨trivial, trivial, by decide +kernel⟩, ⟨trivial, trivial, by decide +kernel⟩, trivial⟩
  exact ⟨_, Run.of_enabled _ (fun _ _ h ↦ ⟨h, rfl⟩) sampleSignIns hok⟩

/-- Her token is for her account. -/
theorem sampleSignedIn_own : ("alice", 1) ∈ sampleSignedIn.given ∧
    ∃ r, sampleSignedIn.db.auth.store.committed.get 1 = some r ∧
      Owns sampleProvider sampleSignedIn.db "alice" r.userId := by
  obtain ⟨tr, hr⟩ := reachable_sampleSignedIn
  have hgiven : ("alice", 1) ∈ sampleSignedIn.given := by decide +kernel
  have hsome : (sampleSignedIn.db.auth.store.committed.get 1).isSome := by decide +kernel
  obtain ⟨r, hk⟩ := Option.isSome_iff_exists.mp hsome
  exact ⟨hgiven, r, hk, (own_sessions JwtService.plain_lawful sampleSignInWorld_initial hr).2.1
    "alice" 1 r hgiven hk⟩

/-- A session that ends was ended by a request of the owner of its account. -/
theorem ended_by_owner (hjwt : jwt.Lawful) (h₀ : w₀.Initial provider)
    (hr : Run (SignInWorld.step provider jwt) w₀ tr w)
    (hst : SignInWorld.step provider jwt w e w') {k : TokenHash} {r : RefreshToken}
    (hk : w.db.auth.store.committed.get k = some r)
    (hend : w'.db.auth.store.committed.get k ≠ some r) :
    ∃ x p, e = .session (.commit x) ∧ w.callers x = some p ∧ Owns provider w.db p r.userId := by
  obtain ⟨l, h⟩ := SignInInv.run hjwt h₀ hr
  obtain ⟨hok, rfl⟩ := hst
  cases e with
  | firebaseExchange i p decoded dateNow => exact absurd hk hend
  | googleLogin i p ticket => exact absurd hk hend
  | googleLink i p bearer ticket dateNow => exact absurd hk hend
  | refresh x p presented now => exact absurd hk hend
  | nativeLogout x p presented now => exact absurd hk hend
  | run i env =>
    obtain ⟨⟨p, phase, hi, -⟩, -, hfresh, -⟩ := hok
    simp only [SignInWorld.next, hi] at hend
    exact absurd (h.kept_statementFaulty hfresh hk) hend
  | reply i =>
    simp only [SignInWorld.next] at hend
    split at hend <;> exact absurd hk hend
  | logout x p bearer presented now dateNow =>
    simp only [SignInWorld.next] at hend
    split at hend <;> exact absurd hk hend
  | sessionReply x signedAt =>
    simp only [SignInWorld.next] at hend
    split at hend <;> exact absurd hk hend
  | session e =>
    obtain ⟨hin, -, hallowed⟩ := hok
    have hm := move_of_step (show Auth.step w.db.auth e (w.db.auth.next e) from ⟨hallowed, rfl⟩)
    simp only [SignInWorld.next] at hend
    generalize w.db.auth.next e = auth' at hm hend
    cases hm with
    | login hfresh hfree => exact hin.elim
    | start hx => exact hin.elim
    | @commit x tx outcome hx hp =>
      -- Only a row that the transaction held is changed.
      simp only [Store.get_commit] at hend
      by_cases hh : ∃ r', w.db.auth.store.Held x k r'
      · obtain ⟨r', hr'⟩ := hh
        have hrow := h.ledger.rows r (Or.inl ⟨k, hk⟩)
        have hrow' := h.ledger.rows r' (Or.inr ⟨x, k, hr'⟩)
        rw [Table.key_of_get hk] at hrow
        rw [hr'.key_eq, hrow] at hrow'
        obtain ⟨-, p, hp, howns⟩ := h.held x k r' hr'
        rw [← (Prod.mk.inj (Option.some.inj hrow')).2] at howns
        exact ⟨x, p, rfl, hp, howns⟩
      · rw [Store.read_of_not_held fun r' hr' ↦ hh ⟨r', hr'⟩] at hend
        exact absurd hk hend
    | _ => exact absurd hk hend

/-- The commit ends the session of her first token. -/
theorem sampleSignedIn_ended : ∃ r, sampleSignedIn.db.auth.store.committed.get 1 = some r ∧
    ∃ p, sampleSignedIn.callers 0 = some p ∧
      Owns sampleProvider sampleSignedIn.db p r.userId := by
  obtain ⟨tr, hr⟩ := reachable_sampleSignedIn
  have hallowed : Event.Allowed sampleSignedIn.db.auth (.commit 0) := by decide +kernel
  have hlive : (sampleSignedIn.db.auth.store.committed.get 1).map RefreshToken.revokedAt =
      some none := by decide +kernel
  have hended : ((sampleSignedIn.next JwtService.plain
      (.session (.commit 0))).db.auth.store.committed.get 1).map RefreshToken.revokedAt =
        some (some 1000) := by decide +kernel
  obtain ⟨r, hk, hrev⟩ := Option.map_eq_some_iff.mp hlive
  have hst : SignInWorld.step sampleProvider (JwtService.plain) sampleSignedIn
      (.session (.commit 0)) _ := ⟨⟨trivial, trivial, hallowed⟩, rfl⟩
  obtain ⟨x, p, he, hp, howns⟩ := ended_by_owner JwtService.plain_lawful
    sampleSignInWorld_initial hr hst hk fun hk' ↦ by
      rw [hk', Option.map_some, hrev] at hended
      cases hended
  cases he
  exact ⟨r, hk, p, hp, howns⟩

end Runs

end Sessions

end Rcab.Auth
