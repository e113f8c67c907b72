import Rcab.Auth.Session

/-!
# What holds of the refresh tokens in every state

A family has at most one committed live token (`AuthInv.unique`).  An uncommitted version
of a token is either a revocation of a committed live one, or the successor that its
transaction has just inserted (`AuthInv.held`); and that transaction holds the lock of the
family's live token (`Rotating`), which is why its commit leaves the family with one.
-/

namespace Rcab.Auth

open ReadCommitted

/-- A version that revokes the committed live row. -/
def Revokes (s : TokenStore) (k : TokenHash) (r : RefreshToken) : Prop :=
  ∃ r₀ t, s.committed.get k = some r₀ ∧ r₀.revokedAt = none ∧ r = r₀.revoke t

/-- Transaction `x` has revoked this token of this family. -/
def Rotating (s : TokenStore) (x : ℕ) (k : TokenHash) (f : FamilyId) : Prop :=
  ∃ r, s.Held x k r ∧ r.revokedAt ≠ none ∧ r.familyId = f

/-- What a transaction in a phase holds, and what it has done. -/
def PhaseOk (s : TokenStore) (x : ℕ) : Request → Phase → Prop
  | .refresh presented, .updating (.consume presented' _) _ => presented' = presented
  | .refresh _, .updating (.logout _ _) _ => False
  | .refresh presented, .consumed row => Rotating s x presented row.familyId
  | .refresh presented, .ready (.session response) => ∃ r, s.Held x response.refreshToken r ∧
      r.revokedAt = none ∧ Rotating s x presented r.familyId
  | .refresh presented, .committed (.session _) =>
      ∃ r, s.committed.get presented = some r ∧ r.revokedAt ≠ none
  | .logout presented owner, .updating u _ => u = .logout presented owner
  | .logout _ _, .begun | .logout _ _, .rolledBack => True
  | .logout _ _, .ready outcome | .logout _ _, .committed outcome => outcome = .loggedOut
  | .logout _ _, _ => False
  | _, _ => True

/-- The rows yet to visit are of no account. -/
theorem PhaseOk.todo {s : TokenStore} {x : ℕ} {request : Request} {u : Revocation}
    {todo todo' : List TokenHash} (h : PhaseOk s x request (.updating u todo)) :
    PhaseOk s x request (.updating u todo') := by
  cases request with
  | logout presented owner => exact h
  | refresh presented => cases u <;> exact h

/-- The invariant of every reachable state. -/
structure AuthInv (w : World) : Prop where
  /-- A version revokes a committed row or is a successor about to be committed. -/
  held : ∀ x k r, w.store.Held x k r → Revokes w.store k r ∨
    w.store.committed.get k = none ∧ r.revokedAt = none ∧ ∃ tx response, w.txs x = some tx ∧
      tx.phase = .ready (.session response) ∧ response.refreshToken = k
  phases : ∀ x tx, w.txs x = some tx → PhaseOk w.store x tx.request tx.phase
  /-- At most one committed live token in a family. -/
  unique : ∀ k k' r r', w.store.committed.get k = some r → w.store.committed.get k' = some r' →
    r.revokedAt = none → r'.revokedAt = none → r.familyId = r'.familyId → k = k'
  issued : ∀ k, k ∉ w.issued → w.store.committed.get k = none ∧ ∀ x r, ¬ w.store.Held x k r

/-! ## Frames -/

/-- A change by transaction `x`: what others hold stays, and so do the committed rows
beneath it and the rows that were revoked. -/
structure Frame (x : ℕ) (s s' : TokenStore) : Prop where
  held : ∀ y k r, y ≠ x → (s'.Held y k r ↔ s.Held y k r)
  locked : ∀ y k r, y ≠ x → s.Held y k r → s'.committed.get k = s.committed.get k
  revoked : ∀ k r, s.committed.get k = some r → r.revokedAt ≠ none → s'.committed.get k = some r

variable {w w' : World} {s s' : TokenStore} {x y : ℕ} {k : TokenHash} {r : RefreshToken}
  {tx : Tx} {f : FamilyId}

namespace Frame

theorem refl : Frame x s s where
  held _ _ _ _ := Iff.rfl
  locked _ _ _ _ _ := rfl
  revoked _ _ h _ := h

/-- Writing a row no other transaction holds. -/
theorem write (h : s.Free x r.tokenHash) : Frame x s (s.write x r) where
  held y k r' hne := by
    rw [Store.held_write]
    constructor
    · rintro (⟨-, rfl, -⟩ | ⟨-, h⟩)
      · exact absurd rfl hne
      · exact h
    · refine fun hh ↦ Or.inr ⟨?_, hh⟩
      rintro rfl
      exact hne (h _ hh)
  locked _ _ _ _ _ := rfl
  revoked _ _ h _ := h

theorem commit (h : AuthInv w) : Frame x w.store (w.store.commit x) where
  held y k r hne := by rw [Store.held_commit, and_iff_left hne]
  locked y k r hne hh := hh.commit hne
  revoked k r hr hrev := by
    rw [Store.get_commit, Store.read_of_not_held, hr]
    intro r' hh
    -- What is held is live underneath.
    rcases h.held x k r' hh with ⟨r₀, t, h₀, hlive, -⟩ | ⟨hnone, -⟩
    · obtain rfl := Option.some.inj (hr.symm.trans h₀)
      exact hrev hlive
    · rw [hr] at hnone
      cases hnone

theorem rollback : Frame x s (s.rollback x) where
  held y k r hne := by rw [Store.held_rollback, and_iff_left hne]
  locked _ _ _ _ _ := rfl
  revoked _ _ h _ := h

theorem rotating (h : Frame x s s') (hne : y ≠ x) (hr : Rotating s y k f) : Rotating s' y k f := by
  obtain ⟨r, hh, hr⟩ := hr
  exact ⟨r, (h.held y k r hne).mpr hh, hr⟩

theorem revokes (h : Frame x s s') (hne : y ≠ x) (hh : s.Held y k r) (hr : Revokes s k r) :
    Revokes s' k r := by
  obtain ⟨r₀, t, h₀, hr⟩ := hr
  exact ⟨r₀, t, (h.locked y k r hne hh).trans h₀, hr⟩

/-- The other transactions' phases say as much as before. -/
theorem phaseOk {request : Request} {phase : Phase} (h : Frame x s s') (hne : y ≠ x)
    (hp : PhaseOk s y request phase) : PhaseOk s' y request phase := by
  cases request with
  | logout presented owner => cases phase <;> exact hp
  | refresh presented =>
      cases phase with
      | consumed row => exact h.rotating hne hp
      | updating u todo => cases u <;> exact hp
      | ready outcome =>
          cases outcome with
          | session response =>
              obtain ⟨r, hh, hlive, hr⟩ := hp
              exact ⟨r, (h.held y _ r hne).mpr hh, hlive, h.rotating hne hr⟩
          | _ => trivial
      | committed outcome =>
          cases outcome with
          | session response =>
              obtain ⟨r, hr, hrev⟩ := hp
              exact ⟨r, h.revoked _ r hr hrev, hrev⟩
          | _ => trivial
      | _ => trivial

end Frame

/-! ## Reading under the invariant -/

/-- A live row an `UPDATE` reads is committed, and the transaction does not hold it. -/
theorem AuthInv.read_live (h : AuthInv w) (hx : w.txs x = some tx) (hp : ¬ tx.phase.Ready)
    (hr : w.store.read x k = some r) (hlive : r.revokedAt = none) :
    w.store.committed.get k = some r ∧ ∀ r', ¬ w.store.Held x k r' := by
  rcases Store.read_eq_some hr with hh | ⟨hno, hc⟩
  · rcases h.held x k r hh with ⟨r₀, t, -, -, rfl⟩ | ⟨-, -, tx', response, hx', hp', -⟩
    · cases hlive
    · obtain rfl := Option.some.inj (hx.symm.trans hx')
      rw [hp'] at hp
      exact absurd trivial hp
  · exact ⟨hc, hno⟩

/-- A family being rotated has its live token committed, and locked. -/
theorem AuthInv.rotating_live (h : AuthInv w) (hr : Rotating w.store x k f) :
    ∃ r, w.store.committed.get k = some r ∧ r.revokedAt = none ∧ r.familyId = f := by
  obtain ⟨r, hh, hrev, rfl⟩ := hr
  rcases h.held x k r hh with ⟨r₀, t, h₀, hlive, rfl⟩ | ⟨-, hlive, -⟩
  · exact ⟨r₀, h₀, hlive, rfl⟩
  · exact absurd hlive hrev

/-! ## Steps -/

/-- A token that has never been generated is in no row. -/
theorem AuthInv.not_held_fresh (h : AuthInv w) (hk : k ∉ w.issued) : ¬ w.store.Held y k r :=
  (h.issued k hk).2 y r

theorem AuthInv.free_fresh (h : AuthInv w) (hk : k ∉ w.issued) : w.store.Free y k := by
  rintro ⟨owner, row⟩ hv
  exact absurd hv (h.not_held_fresh hk)

/-- What a transaction that is not about to commit holds are revocations. -/
theorem AuthInv.held_revokes (h : AuthInv w) (hp : ∀ tx ∈ w.txs x, ¬ tx.phase.Ready)
    (hh : w.store.Held x k r) : Revokes w.store k r := by
  rcases h.held x k r hh with hr | ⟨-, -, tx, response, hx, hphase, -⟩
  · exact hr
  · exact absurd (show tx.phase.Ready by rw [hphase]; trivial) (hp tx hx)

/-- A change by one transaction keeps the invariant of the others. -/
theorem AuthInv.of_frame (h : AuthInv w) (hf : Frame x w.store w'.store)
    (htxs : w'.txs = Function.update w.txs x (some tx))
    (hheld : ∀ k r, w'.store.Held x k r → Revokes w'.store k r ∨
      w'.store.committed.get k = none ∧ r.revokedAt = none ∧ ∃ response,
        tx.phase = .ready (.session response) ∧ response.refreshToken = k)
    (hphase : PhaseOk w'.store x tx.request tx.phase)
    (hunique : ∀ k k' r r', w'.store.committed.get k = some r →
      w'.store.committed.get k' = some r' → r.revokedAt = none → r'.revokedAt = none →
        r.familyId = r'.familyId → k = k')
    (hissued : ∀ k, k ∉ w'.issued → w'.store.committed.get k = none ∧
      ∀ x r, ¬ w'.store.Held x k r) : AuthInv w' where
  held y k r hh := by
    by_cases hy : y = x
    · subst hy
      rcases hheld k r hh with hr | ⟨hnone, hlive, response, hp, hk⟩
      · exact Or.inl hr
      · exact Or.inr ⟨hnone, hlive, tx, response, by rw [htxs, Function.update_self], hp, hk⟩
    · have hh₀ := (hf.held y k r hy).mp hh
      rcases h.held y k r hh₀ with hr | ⟨hnone, hlive, tx', response, hy', hp, hk⟩
      · exact Or.inl (hf.revokes hy hh₀ hr)
      · refine Or.inr ⟨(hf.locked y k r hy hh₀).trans hnone, hlive, tx', response, ?_, hp, hk⟩
        rw [htxs, Function.update_of_ne hy]
        exact hy'
  phases y tx' hy' := by
    rw [htxs] at hy'
    by_cases hy : y = x
    · subst hy
      rw [Function.update_self] at hy'
      exact Option.some.inj hy' ▸ hphase
    · rw [Function.update_of_ne hy] at hy'
      exact hf.phaseOk hy (h.phases y tx' hy')
  unique := hunique
  issued := hissued

theorem txs_setPhase {phase : Phase} (hx : w.txs x = some tx) :
    (w.setPhase x phase).txs = Function.update w.txs x (some { tx with phase }) := by
  simp only [World.setPhase, hx, Option.map_some]

/-- A transaction moves on, with the store as it is. -/
theorem AuthInv.setPhase {phase : Phase} (h : AuthInv w) (hx : w.txs x = some tx)
    (hp : ¬ tx.phase.Ready) (hok : PhaseOk w.store x tx.request phase) :
    AuthInv (w.setPhase x phase) := by
  refine h.of_frame (x := x) .refl (txs_setPhase hx) (fun k r hh ↦ ?_)
    hok h.unique h.issued
  exact Or.inl (h.held_revokes (fun tx' hx' ↦ Option.some.inj (hx.symm.trans hx') ▸ hp) hh)

/-- The phases a statement leads to without an `INSERT`. -/
theorem AuthInv.moves {phase : Phase} (h : AuthInv w) (hx : w.txs x = some tx)
    (hm : Moves w x tx phase) : ¬ tx.phase.Ready ∧ PhaseOk w.store x tx.request phase := by
  have hok := h.phases x tx hx
  cases hm with
  | consume hp hr => rw [hp, hr]; exact ⟨id, rfl⟩
  | noUser hp hr => rw [hp, hr]; exact ⟨id, trivial⟩
  | logout hp hr => rw [hp, hr]; exact ⟨id, rfl⟩
  | @returned u hp =>
      rw [hp] at hok ⊢
      refine ⟨id, ?_⟩
      cases hreq : tx.request with
      | refresh presented =>
          rw [hreq] at hok
          cases u with
          | logout presented owner => exact hok.elim
          | _ => trivial
      | logout presented owner =>
          rw [hreq] at hok
          rw [show u = .logout presented owner from hok]
          rfl
  | notReplayed hp hr => rw [hp, hr]; exact ⟨id, trivial⟩
  | replay hp hr hf => rw [hp, hr]; exact ⟨id, trivial⟩
  | disable hp =>
      rw [hp] at hok ⊢
      refine ⟨id, ?_⟩
      cases hreq : tx.request with
      | refresh presented => trivial
      | logout presented owner => rw [hreq] at hok; exact hok.elim

/-- A login's family is new, so its token is the family's only one. -/
theorem AuthInv.login {row : RefreshToken} (h : AuthInv w) (hfresh : row.tokenHash ∉ w.issued)
    (hfree : FamilyFree w.store row.familyId) :
    AuthInv { w with
      store := { w.store with committed := w.store.committed.insert row }
      issued := row.tokenHash :: w.issued } := by
  have hnone := (h.issued _ hfresh).1
  have hget : ∀ k, (w.store.committed.insert row).get k =
      if k = row.tokenHash then some row else w.store.committed.get k :=
    fun k ↦ Table.get_insert hnone
  have hold : ∀ {k r}, w.store.committed.get k = some r → r.familyId ≠ row.familyId :=
    fun hk he ↦ hfree.1 ⟨_, Table.mem_of_get hk, he⟩
  -- The change is nobody's: every transaction is another one.
  have hf : ∀ x, Frame x w.store { w.store with committed := w.store.committed.insert row } :=
    fun x ↦
      { held := fun _ _ _ _ ↦ Iff.rfl
        locked := fun y k r _ hh ↦ by
          rw [hget, if_neg]
          rintro rfl
          exact h.not_held_fresh hfresh hh
        revoked := fun k r hr _ ↦ by
          rw [hget, if_neg, hr]
          rintro rfl
          rw [hnone] at hr
          cases hr }
  refine ⟨fun x k r hh ↦ ?_, fun x tx hx ↦ ?_, fun k k' r r' hk hk' hr hr' he ↦ ?_, fun k hk ↦ ?_⟩
  · have hx := hf (x + 1)
    rcases h.held x k r hh with hr | ⟨hno, hlive, hins⟩
    · exact Or.inl (hx.revokes (Nat.ne_of_lt x.lt_succ_self) hh hr)
    · exact Or.inr ⟨(hx.locked x k r (Nat.ne_of_lt x.lt_succ_self) hh).trans hno, hlive, hins⟩
  · exact (hf (x + 1)).phaseOk (Nat.ne_of_lt x.lt_succ_self) (h.phases x tx hx)
  · rw [hget] at hk hk'
    split_ifs at hk hk' with h₁ h₂ h₂
    · exact h₁.trans h₂.symm
    · obtain rfl := Option.some.inj hk
      exact absurd he.symm (hold hk')
    · obtain rfl := Option.some.inj hk'
      exact absurd he (hold hk)
    · exact h.unique k k' r r' hk hk' hr hr' he
  · rw [List.mem_cons, not_or] at hk
    rw [hget, if_neg hk.1]
    exact h.issued k hk.2

/-- A rotation inserts its successor. -/
theorem AuthInv.insert {hash : TokenHash} {dateNow : Time} {row : ConsumedRefreshRow}
    (h : AuthInv w) (hx : w.txs x = some tx) (hp : tx.phase = .consumed row)
    (hfresh : hash ∉ w.issued) :
    AuthInv { w.setPhase x (.ready (.session (sessionResponse hash row))) with
      store := w.store.write x
        (sessionRow hash row.familyId row.userId row.authMethod dateNow)
      issued := hash :: w.issued } := by
  have hok := h.phases x tx hx
  have hready : ∀ tx' ∈ w.txs x, ¬ tx'.phase.Ready := fun tx' hx' ↦ by
    rw [← Option.some.inj (hx.symm.trans hx'), hp]
    exact id
  refine h.of_frame (x := x)
    (.write (h.free_fresh hfresh)) (txs_setPhase hx) (fun k r hh ↦ ?_) ?_ h.unique fun k hk ↦ ?_
  · rcases Store.held_write.mp hh with ⟨rfl, -, rfl⟩ | ⟨-, hh⟩
    · exact Or.inr ⟨(h.issued _ hfresh).1, rfl, _, rfl, rfl⟩
    · exact Or.inl (h.held_revokes hready hh)
  · rw [hp] at hok
    cases hreq : tx.request with
    | logout presented owner => rw [hreq] at hok; exact hok.elim
    | refresh presented =>
        rw [hreq] at hok
        obtain ⟨r, hh, hrev, hfam⟩ := hok
        refine ⟨_, Store.held_write.mpr (Or.inl ⟨rfl, rfl, rfl⟩), rfl, r,
          Store.held_write.mpr (Or.inr ⟨?_, hh⟩), hrev, hfam⟩
        rintro rfl
        exact h.not_held_fresh hfresh hh
  · rw [List.mem_cons, not_or] at hk
    refine ⟨(h.issued k hk.2).1, fun y r hh ↦ ?_⟩
    rcases Store.held_write.mp hh with ⟨hk', -⟩ | ⟨-, hh⟩
    · exact hk.1 hk'
    · exact h.not_held_fresh hk.2 hh

/-- An `UPDATE` revokes one of its rows. -/
theorem AuthInv.revoke {u : Revocation} {todo : List TokenHash} (h : AuthInv w)
    (hx : w.txs x = some tx) (hp : tx.phase = .updating u todo) (hfree : w.store.Free x k)
    (hr : w.store.read x k = some r) (hm : u.Matches tx.now r) :
    AuthInv { w.setPhase x (World.revoked (r.revoke tx.now) (todo.erase k) u) with
      store := w.store.write x (r.revoke tx.now) } := by
  have hok := h.phases x tx hx
  have hready : ¬ tx.phase.Ready := by rw [hp]; exact id
  obtain ⟨hc, hno⟩ := h.read_live hx hready hr hm.revokedAt
  have hk : r.tokenHash = k := Store.key_of_read hr
  refine h.of_frame (x := x)
    
    (.write (by rw [RefreshToken.revoke_tokenHash, hk]; exact hfree)) (txs_setPhase hx)
    (fun k' r' hh ↦ ?_) ?_ h.unique fun k' hk' ↦ ⟨(h.issued k' hk').1, fun y r' hh ↦ ?_⟩
  · rcases Store.held_write.mp hh with ⟨rfl, -, rfl⟩ | ⟨-, hh⟩
    · exact Or.inl ⟨r, tx.now, hk ▸ hc, hm.revokedAt, rfl⟩
    · exact Or.inl (h.held_revokes
        (fun tx' hx' ↦ Option.some.inj (hx.symm.trans hx') ▸ hready) hh)
  · rw [hp] at hok
    cases hreq : tx.request with
    | logout presented owner =>
        rw [hreq] at hok
        rw [show u = .logout presented owner from hok]
        rfl
    | refresh presented =>
        rw [hreq] at hok
        cases u with
        | consume presented' user =>
            obtain rfl : presented' = presented := hok
            refine ⟨_, Store.held_write.mpr (Or.inl ⟨hm.1.symm, rfl, rfl⟩), by simp, rfl⟩
        | logout presented' owner => exact hok.elim
        | _ => trivial
  · rcases Store.held_write.mp hh with ⟨rfl, -⟩ | ⟨-, hh⟩
    · rw [RefreshToken.revoke_tokenHash, hk] at hk'
      rw [(h.issued k hk').1] at hc
      cases hc
    · exact h.not_held_fresh hk' hh

/-- The rows of the next committed state: as they were, or published by the commit. -/
theorem AuthInv.get_commit (h : AuthInv w) (hr : (w.store.commit x).committed.get k = some r) :
    (w.store.committed.get k = some r ∧ ∀ r', ¬ w.store.Held x k r') ∨
      w.store.Held x k r ∧ (r.revokedAt ≠ none ∨ ∃ tx response presented, w.txs x = some tx ∧
        tx.request = .refresh presented ∧ tx.phase = .ready (.session response) ∧
          response.refreshToken = k ∧ Rotating w.store x presented r.familyId) := by
  rw [Store.get_commit] at hr
  rcases Store.read_eq_some hr with hh | ⟨hno, hc⟩
  · refine Or.inr ⟨hh, ?_⟩
    rcases h.held x k r hh with ⟨r₀, t, -, -, rfl⟩ | ⟨-, -, tx, response, hx, hp, rfl⟩
    · exact Or.inl (by simp)
    · have hok := h.phases x tx hx
      rw [hp] at hok
      cases hreq : tx.request with
      | logout presented owner => rw [hreq] at hok; cases hok
      | refresh presented =>
          rw [hreq] at hok
          obtain ⟨r', hh', -, hrot⟩ := hok
          obtain rfl := (hh.unique hh').2
          exact Or.inr ⟨tx, response, presented, hx, hreq, hp, rfl, hrot⟩
  · exact Or.inl ⟨hc, hno⟩

/-- A commit brings a family a live token only in exchange for the one it had. -/
theorem AuthInv.commit_live (h : AuthInv w) {k' : TokenHash} {r' : RefreshToken}
    (hr : (w.store.commit x).committed.get k = some r)
    (hc : w.store.committed.get k' = some r') (hno : ∀ r'', ¬ w.store.Held x k' r'')
    (hlive : r.revokedAt = none) (hlive' : r'.revokedAt = none)
    (hfam : r.familyId = r'.familyId) : k = k' := by
  rcases h.get_commit hr with ⟨hc₀, -⟩ | ⟨-, hrev | ⟨_, _, presented, -, -, -, -, hrot⟩⟩
  · exact h.unique k k' r r' hc₀ hc hlive hlive' hfam
  · exact absurd hlive hrev
  · -- The exchanged token would be the other live one, but it is held.
    obtain ⟨r₀, h₀, hlive₀, hfam₀⟩ := h.rotating_live hrot
    obtain rfl := h.unique presented k' r₀ r' h₀ hc hlive₀ hlive' (hfam₀.trans hfam)
    obtain ⟨r₁, hh, -⟩ := hrot
    exact absurd hh (hno r₁)

theorem AuthInv.commit {outcome : Outcome} (h : AuthInv w) (hx : w.txs x = some tx)
    (hp : tx.phase = .ready outcome) :
    AuthInv { w.setPhase x (.committed outcome) with store := w.store.commit x } := by
  have hok := h.phases x tx hx
  refine h.of_frame (x := x) (.commit h)
    (txs_setPhase hx) (fun k r hh ↦ ?_) ?_ (fun k k' r r' hk hk' hr hr' he ↦ ?_) fun k hk ↦ ?_
  · exact absurd rfl (Store.held_commit.mp hh).2
  · rw [hp] at hok
    cases hreq : tx.request with
    | logout presented owner => rw [hreq] at hok; exact hok
    | refresh presented =>
        rw [hreq] at hok
        cases outcome with
        | session response =>
            obtain ⟨-, -, -, r, hh, hrev, -⟩ := hok
            exact ⟨r, Store.get_commit.trans hh.read, hrev⟩
        | _ => trivial
  · rcases h.get_commit hk' with ⟨hc', hno'⟩ | ⟨hh', hrev' | ⟨_, response, _, hx', -, hp', hr₀, -⟩⟩
    · exact h.commit_live hk hc' hno' hr hr' he
    · exact absurd hr' hrev'
    · rcases h.get_commit hk with ⟨hc, hno⟩ | ⟨-, hrev | ⟨_, response', _, hx'', -, hp'', hr₁, -⟩⟩
      · exact (h.commit_live hk' hc hno hr' hr he.symm).symm
      · exact absurd hr hrev
      · -- Both are the one successor of the transaction.
        obtain rfl := Option.some.inj (hx'.symm.trans hx'')
        rw [hp'] at hp''
        cases hp''
        exact hr₁.symm.trans hr₀
  · obtain ⟨hnone, hheld⟩ := h.issued k hk
    refine ⟨?_, fun y r hh ↦ hheld y r (Store.held_commit.mp hh).1⟩
    rw [Store.get_commit, Store.read_of_not_held fun r ↦ hheld x r, hnone]

theorem AuthInv.rollback (h : AuthInv w) (hx : w.txs x = some tx) :
    AuthInv { w.setPhase x .rolledBack with store := w.store.rollback x } := by
  refine h.of_frame (x := x) .rollback (txs_setPhase hx)
    (fun k r hh ↦ absurd rfl (Store.held_rollback.mp hh).2) ?_ h.unique
    fun k hk ↦ ⟨(h.issued k hk).1, fun y r hh ↦ (h.issued k hk).2 y r (Store.held_rollback.mp hh).1⟩
  cases tx.request <;> trivial

theorem AuthInv.initial (h : w.Initial) : AuthInv w := by
  have hc : ∀ k, w.store.committed.get k = none := fun k ↦
    Table.get_eq_none.mpr fun r hr ↦ absurd hr (h.committed r)
  have hv : ∀ x k r, ¬ w.store.Held x k r := fun x k r hh ↦
    h.versions _ (Table.mem_of_get hh)
  refine ⟨fun x k r hh ↦ absurd hh (hv x k r), fun x tx hx ↦ ?_, fun k k' r r' hk ↦ ?_,
    fun k _ ↦ ⟨hc k, fun x r ↦ hv x k r⟩⟩
  · rw [h.txs x] at hx
    cases hx
  · rw [hc k] at hk
    cases hk

/-- The invariant holds along every step. -/
theorem AuthInv.step {e : Event} (h : AuthInv w) (hst : step w e w') : AuthInv w' := by
  cases move_of_step hst with
  | login hfresh hfree => exact h.login hfresh hfree
  | setStatus => exact ⟨h.held, h.phases, h.unique, h.issued⟩
  | @start x request now hx =>
      refine h.of_frame (x := x) .refl rfl (fun k r hh ↦ ?_) ?_
        h.unique h.issued
      · exact Or.inl (h.held_revokes (fun tx hx' ↦ by rw [hx] at hx'; cases hx') hh)
      · cases request <;> trivial
  | phase hx hm =>
      obtain ⟨hp, hok⟩ := h.moves hx hm
      exact h.setPhase hx hp hok
  | stay hx => exact h
  | insert hx hp hfresh => exact h.insert hx hp hfresh
  | pass hx hp hfree hm =>
      refine h.setPhase hx (by rw [hp]; exact id) ?_
      have hok := h.phases _ _ hx
      rw [hp] at hok
      exact hok.todo
  | revoke hx hp hk hfree hr hm => exact h.revoke hx hp hfree hr hm
  | commit hx hp => exact h.commit hx hp
  | rollback hx hp => exact h.rollback hx

/-- Only a commit commits. -/
theorem Move.committed {e : Event} {tx' : Tx} {outcome : Outcome} (h : Move w e w')
    (hy : w'.txs y = some tx') (hp : tx'.phase = .committed outcome) :
    w.txs y = some tx' ∨ e = .commit y ∧ ∃ tx, w.txs y = some tx ∧ tx.request = tx'.request ∧
      tx.phase = .ready outcome := by
  -- A transaction other than the one that moved is as it was.
  have other : ∀ {x tx'' phase}, w.txs x = some tx'' → (∀ outcome, phase ≠ .committed outcome) →
      w'.txs = Function.update w.txs x (some { tx'' with phase }) → w.txs y = some tx' := by
    intro x tx'' phase hx hne htxs
    rw [htxs] at hy
    by_cases hyx : y = x
    · subst hyx
      rw [Function.update_self] at hy
      obtain rfl := Option.some.inj hy
      exact absurd hp (hne outcome)
    · rwa [Function.update_of_ne hyx] at hy
  cases h with
  | login | setStatus | stay => exact Or.inl hy
  | @start x request now hx =>
      dsimp only at hy
      by_cases hyx : y = x
      · subst hyx
        rw [Function.update_self] at hy
        obtain rfl := Option.some.inj hy
        cases hp
      · rw [Function.update_of_ne hyx] at hy
        exact Or.inl hy
  | phase hx hm =>
      refine Or.inl (other hx ?_ (txs_setPhase hx))
      cases hm with
      | @returned u hu => cases u <;> simp [World.returned]
      | _ => simp
  | insert hx hp' hfresh => exact Or.inl (other hx (by simp) (txs_setPhase hx))
  | pass hx hp' hfree hm => exact Or.inl (other hx (by simp) (txs_setPhase hx))
  | @revoke _ _ _ u _ _ hx hp' hk hfree hr hm =>
      exact Or.inl (other hx (by cases u <;> simp [World.revoked]) (txs_setPhase hx))
  | rollback hx hp' => exact Or.inl (other hx (by simp) (txs_setPhase hx))
  | @commit x tx'' outcome' hx hp' =>
      have hy' : Function.update w.txs x (some { tx'' with phase := .committed outcome' }) y =
          some tx' := (congrFun (txs_setPhase hx) y).symm.trans hy
      by_cases hyx : y = x
      · subst hyx
        rw [Function.update_self] at hy'
        obtain rfl := Option.some.inj hy'
        cases hp
        exact Or.inr ⟨rfl, tx'', hx, rfl, hp'⟩
      · rw [Function.update_of_ne hyx] at hy'
        exact Or.inl hy'

/-- A committed refresh gave a successor for the token it was presented. -/
def Exchanged (w : World) (x : ℕ) (presented successor : TokenHash) : Prop :=
  ∃ tx ∈ w.txs x, tx.request = .refresh presented ∧ ∃ response,
    tx.phase = .committed (.session response) ∧ response.refreshToken = successor

theorem AuthInv.exchanged {successor : TokenHash} (h : AuthInv w) (he : Exchanged w x k successor) :
    ∃ r, w.store.committed.get k = some r ∧ r.revokedAt ≠ none := by
  obtain ⟨tx, hx, hreq, response, hp, -⟩ := he
  have hok := h.phases x tx hx
  rw [hreq, hp] at hok
  exact hok

/-- A new exchange is a rotation's commit, of a token that was live. -/
theorem AuthInv.exchanged_step {e : Event} {successor : TokenHash} (h : AuthInv w)
    (hst : Auth.step w e w') (he : Exchanged w' x k successor) :
    Exchanged w x k successor ∨
      e = .commit x ∧ (∃ tx response, w.txs x = some tx ∧ tx.phase = .ready (.session response)) ∧
        ∃ r, w.store.committed.get k = some r ∧ r.revokedAt = none := by
  obtain ⟨tx', hx', hreq, response, hp, hs⟩ := he
  rcases (move_of_step hst).committed hx' hp with hx | ⟨he, tx, hx, hreq', hp'⟩
  · exact Or.inl ⟨tx', hx, hreq, response, hp, hs⟩
  · have hok := h.phases x tx hx
    rw [hreq', hreq, hp'] at hok
    obtain ⟨_, -, -, hrot⟩ := hok
    obtain ⟨r, hr, hlive, -⟩ := h.rotating_live hrot
    exact Or.inr ⟨he, ⟨tx, response, hx, hp'⟩, r, hr, hlive⟩

/-- The row of a revoked token stays as it is. -/
theorem AuthInv.revoked_step {e : Event} (h : AuthInv w) (hst : Auth.step w e w')
    (hr : w.store.committed.get k = some r) (hrev : r.revokedAt ≠ none) :
    w'.store.committed.get k = some r := by
  cases move_of_step hst with
  | login hfresh hfree =>
      show (Table.insert _ _).get k = some r
      rw [Table.get_insert (h.issued _ hfresh).1, if_neg, hr]
      rintro rfl
      rw [(h.issued _ hfresh).1] at hr
      cases hr
  | setStatus | start | phase | stay | insert | pass | revoke | rollback => exact hr
  | commit hx hp => exact (Frame.commit h).revoked k r hr hrev

theorem AuthInv.run {tr : List (World × Event)} (h : AuthInv w) (hr : Run Auth.step w tr w') :
    AuthInv w' :=
  hr.invariant (fun _ _ _ hi hst ↦ hi.step hst) h

end Rcab.Auth
