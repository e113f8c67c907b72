import Rcab.Auth.Invariant
import Rcab.Auth.Principals

/-!
# What the tokens were issued for

The account and the family a token was issued for are kept in a ledger, which outlives the rows that
are rolled back.  The invariant says what is whose (`SignInInv`); the statements of the refreshes and
the logouts keep it (`SignInInv.inner`).
-/

universe u

namespace Rcab.Auth

open ReadCommitted
open SignInWorld (Owns)

/-! ## Rows -/

section Rows

variable {s : TokenStore} {x : ℕ} {k : TokenHash} {r r' : RefreshToken}

/-- The row is committed, or an uncommitted version. -/
def InStore (s : TokenStore) (r : RefreshToken) : Prop :=
  (∃ k, s.committed.get k = some r) ∨ ∃ x k, s.Held x k r

theorem inStore_of_read (h : s.read x k = some r) : InStore s r := by
  rcases Store.read_eq_some h with hh | ⟨-, hc⟩
  · exact Or.inr ⟨x, k, hh⟩
  · exact Or.inl ⟨k, hc⟩

theorem InStore.of_write (h : InStore (s.write x r') r) : r = r' ∨ InStore s r := by
  rcases h with hc | ⟨y, k, hh⟩
  · exact Or.inr (Or.inl hc)
  · rcases Store.held_write.mp hh with ⟨-, -, rfl⟩ | ⟨-, hh⟩
    · exact Or.inl rfl
    · exact Or.inr (Or.inr ⟨y, k, hh⟩)

theorem InStore.of_commit (h : InStore (s.commit x) r) : InStore s r := by
  rcases h with ⟨k, hc⟩ | ⟨y, k, hh⟩
  · rw [Store.get_commit] at hc
    exact inStore_of_read hc
  · exact Or.inr ⟨y, k, (Store.held_commit.mp hh).1⟩

theorem InStore.of_rollback (h : InStore (s.rollback x) r) : InStore s r := by
  rcases h with hc | ⟨y, k, hh⟩
  · exact Or.inl hc
  · exact Or.inr ⟨y, k, (Store.held_rollback.mp hh).1⟩

theorem InStore.of_insert (hnone : s.committed.get r'.tokenHash = none)
    (h : InStore { s with committed := s.committed.insert r' } r) : r = r' ∨ InStore s r := by
  rcases h with ⟨k, hc⟩ | hh
  · dsimp only at hc
    rw [Table.get_insert hnone] at hc
    split_ifs at hc
    · exact Or.inl (Option.some.inj hc).symm
    · exact Or.inr (Or.inl ⟨k, hc⟩)
  · exact Or.inr (Or.inr hh)

end Rows

/-! ## The ledger -/

/-- The family and the account each token was issued for. -/
abbrev Ledger := TokenHash → Option (FamilyId × UserId)

variable {P : Type u} (provider : Provider P)

/-- The ledger is right about the rows, and a family is of one account. -/
structure Ledger.Ok (l : Ledger) (auth : World) : Prop where
  rows : ∀ r, InStore auth.store r → l r.tokenHash = some (r.familyId, r.userId)
  issued : ∀ h fu, l h = some fu → h ∈ auth.issued ∧ h ∈ provider.generated
  family : ∀ h h' f u u', l h = some (f, u) → l h' = some (f, u') → u = u'
  /-- The first token of a family stays in the table. -/
  root : ∀ h f u, l h = some (f, u) → ∃ k r, auth.store.committed.get k = some r ∧ r.familyId = f

/-- Nothing is struck out. -/
def Ledger.Extends (l l' : Ledger) : Prop := ∀ h fu, l h = some fu → l' h = some fu

section Predicates

variable (l : Ledger) (db : AccountDb) (p : P)

/-- The token was issued for an account of the principal. -/
def OwnToken (h : TokenHash) : Prop := ∃ f u, l h = some (f, u) ∧ Owns provider db p u

/-- Or is none. -/
def OwnOrNone (h : TokenHash) : Prop := OwnToken provider l db p h ∨ h ∉ provider.generated

/-- The statement is about the principal's sessions. -/
def Revocation.Own : Revocation → Prop
  | .consume h _ | .logout h _ => OwnOrNone provider l db p h
  | .replay f => ∃ h u, l h = some (f, u) ∧ Owns provider db p u
  | .disable u => Owns provider db p u

/-- The session is the principal's. -/
structure TokenResponse.Own (response : TokenResponse) : Prop where
  token : ∃ f, l response.refreshToken = some (f, response.accessToken.sub)
  account : Owns provider db p response.accessToken.sub

def Outcome.Own : Outcome → Prop
  | .session response => response.Own provider l db p
  | _ => True

def Phase.Own : Phase → Prop
  | .updating u _ => u.Own provider l db p
  | .consumed row => (∃ h, l h = some (row.familyId, row.userId)) ∧ Owns provider db p row.userId
  | .ready outcome | .committed outcome => outcome.Own provider l db p
  | .begun | .missed | .rolledBack => True

def Request.presented : Request → TokenHash
  | .refresh presented | .logout presented _ => presented

/-- A transaction of the principal. -/
structure Tx.Own (tx : Tx) : Prop where
  request : OwnOrNone provider l db p tx.request.presented
  phase : tx.phase.Own provider l db p

/-- A call of the principal. -/
def SignInPhase.Own : SignInPhase → Prop
  | .findUser uid _ | .createUser uid _ => provider.firebaseOwner uid = p
  | .findGoogle sub => provider.googleOwner sub = p
  | .checkLink userId sub _ | .link userId sub _ =>
      Owns provider db p userId ∧ provider.googleOwner sub = p
  | .issue user _ => Owns provider db p user.id
  | .answered (.session response _) => response.Own provider l db p
  | .answered _ => True

end Predicates

/-! ## What lasts -/

/-- The ledger is extended, and the accounts stay whose they are. -/
structure Lasts (l : Ledger) (db : AccountDb) (l' : Ledger) (db' : AccountDb) : Prop where
  ledger : l.Extends l'
  accounts : ∀ p userId, Owns provider db p userId → Owns provider db' p userId

section Lasting

variable {provider} {l l' : Ledger} {db db' : AccountDb} {p : P}

theorem Lasts.refl : Lasts provider l db l db := ⟨fun _ _ h ↦ h, fun _ _ h ↦ h⟩

theorem Lasts.ownOrNone {h : TokenHash} (hl : Lasts provider l db l' db')
    (hown : OwnOrNone provider l db p h) : OwnOrNone provider l' db' p h := by
  refine hown.imp_left ?_
  rintro ⟨f, u, hf, hu⟩
  exact ⟨f, u, hl.ledger _ _ hf, hl.accounts _ _ hu⟩

theorem Lasts.revocation {u : Revocation} (hl : Lasts provider l db l' db')
    (h : u.Own provider l db p) : u.Own provider l' db' p := by
  cases u with
  | consume h _ => exact hl.ownOrNone h
  | logout h _ => exact hl.ownOrNone h
  | replay f =>
    obtain ⟨h, u, hf, hu⟩ := h
    exact ⟨h, u, hl.ledger _ _ hf, hl.accounts _ _ hu⟩
  | disable u => exact hl.accounts _ _ h

theorem Lasts.response {response : TokenResponse} (hl : Lasts provider l db l' db')
    (h : response.Own provider l db p) : response.Own provider l' db' p := by
  obtain ⟨⟨f, hf⟩, hu⟩ := h
  exact ⟨⟨f, hl.ledger _ _ hf⟩, hl.accounts _ _ hu⟩

theorem Lasts.outcome {outcome : Outcome} (hl : Lasts provider l db l' db')
    (h : outcome.Own provider l db p) : outcome.Own provider l' db' p := by
  cases outcome with
  | session response => exact hl.response h
  | _ => trivial

theorem Lasts.phase {phase : Phase} (hl : Lasts provider l db l' db')
    (h : phase.Own provider l db p) : phase.Own provider l' db' p := by
  cases phase with
  | updating u todo => exact hl.revocation h
  | consumed row =>
    obtain ⟨⟨hash, hf⟩, hu⟩ := h
    exact ⟨⟨hash, hl.ledger _ _ hf⟩, hl.accounts _ _ hu⟩
  | ready outcome => exact hl.outcome h
  | committed outcome => exact hl.outcome h
  | _ => trivial

theorem Lasts.tx {tx : Tx} (hl : Lasts provider l db l' db') (h : tx.Own provider l db p) :
    tx.Own provider l' db' p :=
  ⟨hl.ownOrNone h.request, hl.phase h.phase⟩

theorem Lasts.call {phase : SignInPhase} (hl : Lasts provider l db l' db')
    (h : phase.Own provider l db p) : phase.Own provider l' db' p := by
  cases phase with
  | findUser uid phone => exact h
  | createUser uid phone => exact h
  | findGoogle sub => exact h
  | checkLink userId sub email => exact ⟨hl.accounts _ _ h.1, h.2⟩
  | link userId sub email => exact ⟨hl.accounts _ _ h.1, h.2⟩
  | issue user authMethod => exact hl.accounts _ _ h
  | answered answer =>
    cases answer with
    | session response signedAt => exact hl.response h
    | _ => trivial

end Lasting

/-! ## The invariant -/

structure SignInInv (l : Ledger) (w : SignInWorld P) : Prop where
  unique : w.db.Unique
  /-- A Google account is linked to an account of its owner's. -/
  linked : ∀ a ∈ w.db.identities, ∀ sub, a.googleSub = some sub →
    provider.googleOwner sub = provider.firebaseOwner a.firebaseUid
  ledger : l.Ok provider w.db.auth
  given : ∀ p h, (p, h) ∈ w.given → OwnToken provider l w.db p h
  signed : ∀ p c, (p, c) ∈ w.signed →
    ∃ claims dateNow, c = accessClaims claims dateNow ∧ Owns provider w.db p claims.sub
  calls : ∀ i p phase, w.calls i = some (p, phase) → phase.Own provider l w.db p
  txs : ∀ x tx, w.db.auth.txs x = some tx →
    ∃ p, w.callers x = some p ∧ tx.Own provider l w.db p
  /-- What a transaction holds is its caller's. -/
  held : ∀ x k r, w.db.auth.store.Held x k r → (w.db.auth.txs x).isSome ∧
    ∃ p, w.callers x = some p ∧ Owns provider w.db p r.userId

section Sessions

variable {provider} {l l' : Ledger} {w : SignInWorld P} {auth' : World} {x : ℕ} {tx : Tx} {p : P}

/-! ## Refreshes and logouts -/

/-- The rows a statement of the principal's matches are the principal's. -/
theorem owns_of_matches {u : Revocation} {now : Time} {r : RefreshToken}
    (hl : l.Ok provider w.db.auth) (hu : u.Own provider l w.db p) (hm : u.Matches now r)
    (hr : InStore w.db.auth.store r) : Owns provider w.db p r.userId := by
  have hrow := hl.rows r hr
  have own : ∀ h, OwnOrNone provider l w.db p h → r.tokenHash = h →
      Owns provider w.db p r.userId := by
    rintro _ (⟨f, u, hf, hu⟩ | hno) rfl
    · rw [hrow] at hf
      obtain ⟨-, rfl⟩ := Prod.mk.inj (Option.some.inj hf)
      exact hu
    · exact absurd (hl.issued _ _ hrow).2 hno
  cases u with
  | consume h user => exact own h hu hm.1
  | logout h owner => exact own h hu hm.1
  | replay f =>
    obtain ⟨h, u, hf, hu⟩ := hu
    obtain rfl : r.familyId = f := hm.2
    rwa [hl.family _ _ _ _ _ hrow hf]
  | disable u => exact (show r.userId = u from hm.1) ▸ hu

/-- No row is new, and none is lost. -/
theorem Ledger.Ok.of_rows (hl : l.Ok provider w.db.auth)
    (hrows : ∀ r, InStore auth'.store r → ∃ r', InStore w.db.auth.store r' ∧
      r'.tokenHash = r.tokenHash ∧ r'.familyId = r.familyId ∧ r'.userId = r.userId)
    (hroot : ∀ k r, w.db.auth.store.committed.get k = some r →
      ∃ r', auth'.store.committed.get k = some r' ∧ r'.familyId = r.familyId)
    (hissued : auth'.issued = w.db.auth.issued) : l.Ok provider auth' where
  rows r hr := by
    obtain ⟨r', hr', hhash, hfam, huser⟩ := hrows r hr
    rw [← hhash, ← hfam, ← huser]
    exact hl.rows r' hr'
  issued h fu hf := hissued ▸ hl.issued h fu hf
  family := hl.family
  root h f u hf := by
    obtain ⟨k, r, hk, rfl⟩ := hl.root h f u hf
    obtain ⟨r', hr', hfam⟩ := hroot k r hk
    exact ⟨k, r', hr', hfam⟩

theorem Ledger.Ok.of_store (hl : l.Ok provider w.db.auth) (hs : auth'.store = w.db.auth.store)
    (hissued : auth'.issued = w.db.auth.issued) : l.Ok provider auth' := by
  refine hl.of_rows (fun r hr ↦ ⟨r, hs ▸ hr, rfl, rfl, rfl⟩) (fun k r hr ↦ ⟨r, ?_, rfl⟩) hissued
  rwa [hs]

/-- A token that was never generated has no row. -/
theorem Ledger.Ok.none_of_fresh {auth : World} {hash : TokenHash} (hl : l.Ok provider auth)
    (hfresh : hash ∉ auth.issued) : auth.store.committed.get hash = none := by
  rw [Table.get_eq_none]
  intro r hr hk
  have hrow := hl.rows r (Or.inl ⟨_, Table.get_of_mem hr⟩)
  rw [hk] at hrow
  exact hfresh (hl.issued _ _ hrow).1

/-- One transaction moves on. -/
theorem SignInInv.move {phase : Phase} (h : SignInInv provider l w)
    (hx : w.db.auth.txs x = some tx) (husers : auth'.users = w.db.auth.users)
    (htxs : auth'.txs = Function.update w.db.auth.txs x (some { tx with phase }))
    (hext : l.Extends l') (hok : l'.Ok provider auth')
    (hphase : ∀ p, w.callers x = some p → tx.Own provider l w.db p →
      phase.Own provider l' w.db p)
    (hheld : ∀ y k r, auth'.store.Held y k r → w.db.auth.store.Held y k r ∨
      y = x ∧ ∀ p, w.callers x = some p → tx.Own provider l w.db p →
        Owns provider w.db p r.userId) :
    SignInInv provider l' { w with db.auth := auth' } := by
  have hlast : Lasts provider l w.db l' { w.db with auth := auth' } := ⟨hext, fun _ _ h ↦ h⟩
  have hsame : Lasts provider l' w.db l' { w.db with auth := auth' } :=
    ⟨fun _ _ h ↦ h, fun _ _ h ↦ h⟩
  have hsome : ∀ y, (w.db.auth.txs y).isSome → (auth'.txs y).isSome := by
    intro y hy
    rw [htxs]
    by_cases hyx : y = x
    · rw [hyx, Function.update_self]
      rfl
    · rwa [Function.update_of_ne hyx]
  obtain ⟨p, hp, hown⟩ := h.txs x tx hx
  refine ⟨⟨fun id ↦ ?_, h.unique.firebaseUid, h.unique.googleSub, ?_⟩, h.linked, hok,
    fun p k hk ↦ ?_, h.signed, fun i p phase hi ↦ hlast.call (h.calls i p phase hi),
    fun y tx' hy ↦ ?_, fun y k r hh ↦ ?_⟩
  · show _ ↔ (auth'.users.get id).isSome
    rw [husers]
    exact h.unique.same id
  · show auth'.users.UniqueOn _ _
    rw [husers]
    exact h.unique.phoneE164
  · obtain ⟨f, u, hf, hu⟩ := h.given p k hk
    exact ⟨f, u, hext _ _ hf, hu⟩
  · dsimp only at hy
    rw [htxs] at hy
    by_cases hyx : y = x
    · subst hyx
      rw [Function.update_self] at hy
      obtain rfl := Option.some.inj hy
      exact ⟨p, hp, hlast.ownOrNone hown.request, hsame.phase (hphase p hp hown)⟩
    · rw [Function.update_of_ne hyx] at hy
      obtain ⟨p', hp', hown'⟩ := h.txs y tx' hy
      exact ⟨p', hp', hlast.tx hown'⟩
  · rcases hheld y k r hh with hh | ⟨rfl, hr⟩
    · obtain ⟨hy, hr⟩ := h.held y k r hh
      exact ⟨hsome y hy, hr⟩
    · exact ⟨hsome y (by rw [hx]; rfl), p, hp, hr p hp hown⟩

theorem Moves.own {phase : Phase} (hl : l.Ok provider w.db.auth) (hm : Moves w.db.auth x tx phase)
    (hown : tx.Own provider l w.db p) : phase.Own provider l w.db p := by
  have hreq := hown.request
  have hphase := hown.phase
  cases hm with
  | consume hp hr =>
    rw [hr] at hreq
    exact hreq
  | logout hp hr =>
    rw [hr] at hreq
    exact hreq
  | @returned u hp => cases u <;> trivial
  | @replay presented f hp hr hf =>
    rw [hr] at hreq
    obtain ⟨r, hread, -, rfl⟩ := replayedFamily_eq_some hf
    have hrow := hl.rows r (inStore_of_read hread)
    rw [Store.key_of_read hread] at hrow
    rcases hreq with ⟨f, u, hf, hu⟩ | hno
    · obtain ⟨rfl, rfl⟩ := Prod.mk.inj (Option.some.inj (hrow.symm.trans hf))
      exact ⟨presented, _, hrow, hu⟩
    · exact absurd (hl.issued _ _ hrow).2 hno
  | disable hp =>
    rw [hp] at hphase
    exact hphase.2
  | noUser hp hr => trivial
  | notReplayed hp hr => trivial

/-- A token is entered in the ledger. -/
def Ledger.enter (l : Ledger) (hash : TokenHash) (f : FamilyId) (u : UserId) : Ledger :=
  Function.update l hash (some (f, u))

section Enter

variable {hash : TokenHash} {f : FamilyId} {u : UserId} {auth : World}

theorem Ledger.enter_self : l.enter hash f u hash = some (f, u) := Function.update_self _ _ _

theorem Ledger.Ok.enter_extends (hl : l.Ok provider auth) (hfresh : hash ∉ auth.issued) :
    l.Extends (l.enter hash f u) := by
  intro h fu hf
  rw [Ledger.enter, Function.update_of_ne]
  · exact hf
  · rintro rfl
    exact hfresh (hl.issued _ _ hf).1

/-- The entry is of the family's account, or of a family that is new. -/
theorem Ledger.Ok.enter (hl : l.Ok provider auth) (hfresh : hash ∉ auth.issued)
    (hgen : hash ∈ provider.generated) (hissued : auth'.issued = hash :: auth.issued)
    (hfamily : ∀ h u', l h = some (f, u') → u' = u)
    (hrows : ∀ r, InStore auth'.store r →
      (r.tokenHash = hash ∧ r.familyId = f ∧ r.userId = u) ∨ InStore auth.store r)
    (hroot : ∀ k r, auth.store.committed.get k = some r →
      auth'.store.committed.get k = some r)
    (hfirst : ∃ k r, auth'.store.committed.get k = some r ∧ r.familyId = f) :
    (l.enter hash f u).Ok provider auth' where
  rows r hr := by
    rcases hrows r hr with ⟨rfl, rfl, rfl⟩ | hr
    · exact Ledger.enter_self
    · exact hl.enter_extends hfresh _ _ (hl.rows r hr)
  issued h fu hf := by
    rw [hissued]
    by_cases hh : h = hash
    · subst hh
      exact ⟨List.mem_cons_self, hgen⟩
    · rw [Ledger.enter, Function.update_of_ne hh] at hf
      exact (hl.issued h fu hf).imp_left (List.mem_cons_of_mem _)
  family h h' f' u₁ u₂ h₁ h₂ := by
    rw [Ledger.enter, Function.update_apply] at h₁ h₂
    split_ifs at h₁ h₂ with hh hh' hh'
    · obtain ⟨rfl, rfl⟩ := Prod.mk.inj (Option.some.inj h₁)
      exact (Prod.mk.inj (Option.some.inj h₂)).2
    · obtain ⟨rfl, rfl⟩ := Prod.mk.inj (Option.some.inj h₁)
      exact (hfamily _ _ h₂).symm
    · obtain ⟨rfl, rfl⟩ := Prod.mk.inj (Option.some.inj h₂)
      exact hfamily _ _ h₁
    · exact hl.family _ _ _ _ _ h₁ h₂
  root h f' u' hf := by
    by_cases hh : h = hash
    · rw [hh, Ledger.enter_self] at hf
      obtain ⟨rfl, rfl⟩ := Prod.mk.inj (Option.some.inj hf)
      exact hfirst
    · rw [Ledger.enter, Function.update_of_ne hh] at hf
      obtain ⟨k, r, hk, rfl⟩ := hl.root h f' u' hf
      exact ⟨k, r, hroot k r hk, rfl⟩

end Enter

variable {e : Event}

/-- The status of an account changes. -/
theorem SignInInv.setStatus (h : SignInInv provider l w) (userId : UserId) (status : UserStatus) :
    SignInInv provider l { w with db.auth := w.db.auth.next (.setStatus userId status) } := by
  have hkey : ∀ u : AppUser, ({ u with status } : AppUser).id = u.id := fun _ ↦ rfl
  have hlast : Lasts provider l w.db l
      { w.db with auth := w.db.auth.next (.setStatus userId status) } :=
    ⟨fun _ _ h ↦ h, fun _ _ h ↦ h⟩
  refine ⟨⟨fun id ↦ ?_, h.unique.firebaseUid, h.unique.googleSub, ?_⟩, h.linked,
    h.ledger.of_store rfl rfl, h.given, h.signed, fun i p phase hi ↦ hlast.call (h.calls i p phase hi),
    fun x tx hx ↦ ?_, h.held⟩
  · show _ ↔ ((Table.update _ _ _ hkey).get id).isSome
    rw [Table.isSome_get_update]
    exact h.unique.same id
  · exact h.unique.phoneE164.update hkey fun _ _ _ _ ↦ ⟨trivial, rfl⟩
  · obtain ⟨p, hp, hown⟩ := h.txs x tx hx
    exact ⟨p, hp, hlast.tx hown⟩

/-- A statement of a refresh or a logout. -/
theorem SignInInv.inner (h : SignInInv provider l w) (hin : e.Inner)
    (hgen : e.Generates provider.generated) (hst : Auth.step w.db.auth e auth') :
    ∃ l', SignInInv provider l' { w with db.auth := auth' } := by
  have hm := move_of_step hst
  have hrefl : l.Extends l := fun _ _ h ↦ h
  cases hm with
  | login hfresh hfree => exact hin.elim
  | start hx => exact hin.elim
  | setStatus =>
    obtain ⟨-, hnext⟩ := hst
    exact ⟨l, hnext ▸ h.setStatus _ _⟩
  | stay hx => exact ⟨l, h⟩
  | phase hx hm =>
    exact ⟨l, h.move hx rfl (txs_setPhase hx) hrefl (h.ledger.of_store rfl rfl)
      (fun p _ hown ↦ hm.own h.ledger hown) fun y k r hh ↦ Or.inl hh⟩
  | pass hx hp hfree hmiss =>
    refine ⟨l, h.move hx rfl (txs_setPhase hx) hrefl (h.ledger.of_store rfl rfl)
      (fun p _ hown ↦ ?_) fun y k r hh ↦ Or.inl hh⟩
    have hphase := hown.phase
    rw [hp] at hphase
    exact hphase
  | @revoke x k tx u todo r hx hp hk hfree hr hmatch =>
    have hstored : InStore w.db.auth.store r := inStore_of_read hr
    have hu : ∀ p, tx.Own provider l w.db p → u.Own provider l w.db p := by
      intro p hown
      have hphase := hown.phase
      rw [hp] at hphase
      exact hphase
    have howns : ∀ p, tx.Own provider l w.db p → Owns provider w.db p r.userId :=
      fun p hown ↦ owns_of_matches h.ledger (hu p hown) hmatch hstored
    refine ⟨l, h.move hx rfl (txs_setPhase hx) hrefl ?_ (fun p _ hown ↦ ?_) fun y k' r' hh ↦ ?_⟩
    · refine h.ledger.of_rows (fun r' hr' ↦ ?_) (fun k r hr ↦ ⟨r, hr, rfl⟩) rfl
      rcases InStore.of_write hr' with rfl | hr'
      · exact ⟨r, hstored, rfl, rfl, rfl⟩
      · exact ⟨r', hr', rfl, rfl, rfl⟩
    · cases u with
      | consume presented user =>
        exact ⟨⟨r.tokenHash, h.ledger.rows r hstored⟩, howns p hown⟩
      | _ => exact hu p hown
    · rcases Store.held_write.mp hh with ⟨-, rfl, rfl⟩ | ⟨-, hh⟩
      · exact Or.inr ⟨rfl, fun p _ hown ↦ howns p hown⟩
      · exact Or.inl hh
  | @insert x hash dateNow tx row hx hp hfresh =>
    have hrow : ∀ p, tx.Own provider l w.db p →
        (∃ h, l h = some (row.familyId, row.userId)) ∧ Owns provider w.db p row.userId := by
      intro p hown
      have hphase := hown.phase
      rw [hp] at hphase
      exact hphase
    obtain ⟨p₀, -, hown₀⟩ := h.txs x tx hx
    obtain ⟨⟨h₀, hl₀⟩, -⟩ := hrow p₀ hown₀
    refine ⟨l.enter hash row.familyId row.userId, h.move hx rfl (txs_setPhase hx)
      (h.ledger.enter_extends hfresh) (h.ledger.enter hfresh hgen rfl ?_ (fun r hr ↦ ?_)
        (fun k r hr ↦ hr) (h.ledger.root _ _ _ hl₀)) (fun p _ hown ↦ ?_) fun y k r hh ↦ ?_⟩
    · exact fun k u' hk ↦ h.ledger.family _ _ _ _ _ hk hl₀
    · rcases InStore.of_write hr with rfl | hr
      · exact Or.inl ⟨rfl, rfl, rfl⟩
      · exact Or.inr hr
    · exact ⟨⟨row.familyId, Ledger.enter_self⟩, (hrow p hown).2⟩
    · rcases Store.held_write.mp hh with ⟨-, rfl, rfl⟩ | ⟨-, hh⟩
      · exact Or.inr ⟨rfl, fun p _ hown ↦ (hrow p hown).2⟩
      · exact Or.inl hh
  | @commit x tx outcome hx hp =>
    refine ⟨l, h.move hx rfl (txs_setPhase hx) hrefl ?_ (fun p _ hown ↦ ?_) fun y k r hh ↦ ?_⟩
    · refine h.ledger.of_rows (fun r hr ↦ ⟨r, hr.of_commit, rfl, rfl, rfl⟩) (fun k r hr ↦ ?_) rfl
      show ∃ r', (w.db.auth.store.commit x).committed.get k = some r' ∧ _
      rw [Store.get_commit]
      by_cases hh : ∃ r', w.db.auth.store.Held x k r'
      · obtain ⟨r', hr'⟩ := hh
        have hrow := h.ledger.rows r (Or.inl ⟨k, hr⟩)
        have hrow' := h.ledger.rows r' (Or.inr ⟨x, k, hr'⟩)
        rw [Table.key_of_get hr] at hrow
        rw [hr'.key_eq, hrow] at hrow'
        exact ⟨r', hr'.read, (Prod.mk.inj (Option.some.inj hrow')).1.symm⟩
      · rw [Store.read_of_not_held fun r' hr' ↦ hh ⟨r', hr'⟩]
        exact ⟨r, hr, rfl⟩
    · have hphase := hown.phase
      rw [hp] at hphase
      exact hphase
    · exact Or.inl (Store.held_commit.mp hh).1
  | rollback hx hp =>
    refine ⟨l, h.move hx rfl (txs_setPhase hx) hrefl ?_ (fun p _ hown ↦ trivial)
      fun y k r hh ↦ Or.inl (Store.held_rollback.mp hh).1⟩
    exact h.ledger.of_rows (fun r hr ↦ ⟨r, hr.of_rollback, rfl, rfl, rfl⟩)
      (fun k r hr ↦ ⟨r, hr, rfl⟩) rfl

end Sessions

end Rcab.Auth
