import Mathlib.Logic.Relation
import Rcab.Auth.SingleChain

/-!
# A logout ends its session

`revokePresented` and `revoke` know the presented token only.  When a refresh has just
exchanged it, the logout finds it revoked, matches no row and answers 204, and the
successor lives on (`sampleSignOut_survives`).

A logout that finds the token unrevoked, when its `UPDATE` starts and again when it gets
the row's lock (`Event.InTime`), ends the session: the token is never exchanged.
-/

namespace Rcab.Auth

open ReadCommitted

/-- The logout's `WHERE` clause holds of the presented token's row. -/
def Tx.Finds (w : World) (x : ℕ) (tx : Tx) : Prop :=
  match tx.request with
  | .logout presented owner => ∃ r ∈ w.store.read x presented,
      (Revocation.logout presented owner).Matches tx.now r
  | .refresh _ => True

instance {w : World} {x : ℕ} {tx : Tx} : Decidable (tx.Finds w x) := by
  unfold Tx.Finds
  split <;> infer_instance

/-- Transaction `x` finds its token when its statement starts and when it visits the row. -/
def Event.InTime (x : ℕ) (w : World) : Event → Prop
  | .statement y _ _ => y = x → ∀ tx ∈ w.txs x, tx.phase = .begun → tx.Finds w x
  | .touch y _ => y = x → ∀ tx ∈ w.txs x, tx.Finds w x
  | _ => True

instance {x : ℕ} {w : World} : DecidablePred (Event.InTime x w)
  | .statement .. | .touch .. => inferInstanceAs (Decidable (_ → _))
  | .login .. | .setStatus .. | .start .. | .commit _ | .rollback _ =>
      inferInstanceAs (Decidable True)

/-- Successor of successor of the token. -/
def Descends (w : World) : TokenHash → TokenHash → Prop :=
  Relation.ReflTransGen fun presented successor ↦ ∃ x, Exchanged w x presented successor

/-- The presented token is revoked and was never exchanged. -/
def Ended (w : World) (presented : TokenHash) : Prop :=
  (∃ r, w.store.committed.get presented = some r ∧ r.revokedAt ≠ none) ∧
    ∀ y successor, ¬ Exchanged w y presented successor

/-- What a logout has achieved, phase by phase. -/
def LogoutOk (w : World) (x : ℕ) (presented : TokenHash) : Phase → Prop
  | .updating _ todo => presented ∈ todo ∨ ∃ r, w.store.Held x presented r
  | .ready _ => ∃ r, w.store.Held x presented r
  | .committed _ => Ended w presented
  | _ => True

variable {w₀ w w' : World} {x : ℕ} {k presented successor : TokenHash} {r : RefreshToken}
  {tx : Tx} {e : Event} {tr : List (World × Event)}

/-- A session that has ended stays so. -/
theorem AuthInv.ended_step (h : AuthInv w) (hst : Auth.step w e w') (he : Ended w presented) :
    Ended w' presented := by
  obtain ⟨⟨r, hr, hrev⟩, hno⟩ := he
  refine ⟨⟨r, h.revoked_step hst hr hrev, hrev⟩, fun y successor hex ↦ ?_⟩
  rcases h.exchanged_step hst hex with hex | ⟨-, -, r', hr', hlive⟩
  · exact hno y successor hex
  · obtain rfl := Option.some.inj (hr.symm.trans hr')
    exact hrev hlive

/-- The commit of a logout that holds its token. -/
theorem AuthInv.ended_commit (h : AuthInv w) (hst : Auth.step w (.commit x) w')
    (hw : w'.store = w.store.commit x) (hx : w.txs x = some tx)
    (hp : tx.phase = .ready .loggedOut) (hh : w.store.Held x presented r) : Ended w' presented := by
  rcases h.held x presented r hh with ⟨r₀, t, h₀, hlive, rfl⟩ | ⟨-, -, tx', response, hx', hp', -⟩
  · refine ⟨⟨_, by rw [hw]; exact Store.get_commit.trans hh.read, by simp⟩,
      fun y successor hex ↦ ?_⟩
    rcases h.exchanged_step hst hex with hex | ⟨he, ⟨tx', response, hy, hp'⟩, -⟩
    · -- An exchange before would have revoked the token.
      obtain ⟨r', hr', hrev⟩ := h.exchanged hex
      obtain rfl := Option.some.inj (h₀.symm.trans hr')
      exact hrev hlive
    · obtain rfl := Event.commit.inj he
      obtain rfl := Option.some.inj (hx.symm.trans hy)
      rw [hp] at hp'
      cases hp'
  · obtain rfl := Option.some.inj (hx.symm.trans hx')
    rw [hp] at hp'
    cases hp'

/-- What every state satisfies when logout `x` finds its token. -/
structure LogoutInv (x : ℕ) (w : World) : Prop where
  auth : AuthInv w
  logout : ∀ tx presented owner, w.txs x = some tx → tx.request = .logout presented owner →
    LogoutOk w x presented tx.phase

/-- A change that leaves the logout's transaction as it is. -/
theorem LogoutInv.of_same (h : LogoutInv x w) (hst : Auth.step w e w')
    (hx : w'.txs x = w.txs x) (hheld : ∀ k r, w.store.Held x k r → w'.store.Held x k r) :
    LogoutInv x w' where
  auth := h.auth.step hst
  logout tx presented owner htx hreq := by
    rw [hx] at htx
    have hok := h.logout tx presented owner htx hreq
    cases hp : tx.phase with
    | updating u todo =>
        rw [hp] at hok
        rcases hok with hk | ⟨r, hr⟩
        · exact Or.inl hk
        · exact Or.inr ⟨r, hheld _ r hr⟩
    | ready outcome =>
        rw [hp] at hok
        obtain ⟨r, hr⟩ := hok
        exact ⟨r, hheld _ r hr⟩
    | committed outcome =>
        rw [hp] at hok
        exact h.auth.ended_step hst hok
    | _ => trivial

/-- The logout's transaction moved. -/
theorem LogoutInv.of_update (h : LogoutInv x w) (hst : Auth.step w e w')
    (hx : w'.txs x = some tx)
    (hok : ∀ presented owner, tx.request = .logout presented owner →
      LogoutOk w' x presented tx.phase) : LogoutInv x w' where
  auth := h.auth.step hst
  logout tx' presented owner htx hreq := by
    obtain rfl := Option.some.inj (hx.symm.trans htx)
    exact hok presented owner hreq

/-- Another transaction moved. -/
theorem LogoutInv.of_frame {y : ℕ} (h : LogoutInv x w) (hst : Auth.step w e w')
    (hne : x ≠ y) (htxs : w'.txs = Function.update w.txs y (some tx))
    (hf : Frame y w.store w'.store) : LogoutInv x w' :=
  h.of_same hst (by rw [htxs, Function.update_of_ne hne]) fun k r hh ↦ (hf.held x k r hne).mpr hh

/-- The statements of a logout. -/
theorem LogoutInv.moves {owner : Option UserId} {phase : Phase} (h : LogoutInv x w)
    (hx : w.txs x = some tx) (hm : Moves w x tx phase) (hreq : tx.request = .logout presented owner)
    (htime : tx.phase = .begun → tx.Finds w x) (hw : w'.store = w.store) :
    LogoutOk w' x presented phase := by
  have hok := h.auth.phases x tx hx
  have hold := h.logout tx presented owner hx hreq
  rw [hreq] at hok
  cases hm with
  | logout hp hr =>
      obtain ⟨rfl, rfl⟩ := Request.logout.inj (hr.symm.trans hreq)
      have hfinds := htime hp
      simp only [Tx.Finds, hreq] at hfinds
      exact Or.inl (Store.mem_matching.mpr hfinds)
  | returned hp =>
      rw [hp] at hok hold
      rw [show _ = Revocation.logout presented owner from hok]
      rcases hold with hk | hh
      · cases hk
      · obtain ⟨r, hh⟩ := hh
        exact ⟨r, hw ▸ hh⟩
  | disable hp => rw [hp] at hok; exact hok.elim
  | consume hp hr => cases hr.symm.trans hreq
  | noUser hp hr => cases hr.symm.trans hreq
  | notReplayed hp hr => cases hr.symm.trans hreq
  | replay hp hr hf => cases hr.symm.trans hreq

/-- A logout in time does not pass its token over. -/
theorem LogoutInv.pass {owner : Option UserId} {u : Revocation} {todo : List TokenHash}
    (h : LogoutInv x w) (hx : w.txs x = some tx) (hp : tx.phase = .updating u todo)
    (hreq : tx.request = .logout presented owner)
    (hm : ∀ r, w.store.read x k = some r → ¬ u.Matches tx.now r) (htime : tx.Finds w x) :
    LogoutOk w x presented (.updating u (todo.erase k)) := by
  have hok := h.auth.phases x tx hx
  have hold := h.logout tx presented owner hx hreq
  rw [hreq, hp] at hok
  rw [hp] at hold
  obtain rfl : u = .logout presented owner := hok
  rcases hold with hk | hh
  · refine Or.inl ((List.mem_erase_of_ne ?_).mpr hk)
    rintro rfl
    simp only [Tx.Finds, hreq] at htime
    obtain ⟨r, hr, hmatch⟩ := htime
    exact hm r hr hmatch
  · exact Or.inr hh

/-- The row a logout revokes is its token's, which it holds from then on. -/
theorem LogoutInv.revoke {owner : Option UserId} {u : Revocation} {todo : List TokenHash}
    (h : LogoutInv x w) (hx : w.txs x = some tx) (hp : tx.phase = .updating u todo)
    (hreq : tx.request = .logout presented owner) (hm : u.Matches tx.now r) (k : TokenHash)
    (hw : w'.store = w.store.write x (r.revoke tx.now)) :
    LogoutOk w' x presented (World.revoked (r.revoke tx.now) (todo.erase k) u) := by
  have hok := h.auth.phases x tx hx
  rw [hreq, hp] at hok
  obtain rfl : u = .logout presented owner := hok
  exact Or.inr ⟨_, by rw [hw]; exact Store.held_write.mpr (Or.inl ⟨hm.1.symm, rfl, rfl⟩)⟩

theorem LogoutInv.step (h : LogoutInv x w) (hst : only Auth.step (Event.InTime x) w e w') :
    LogoutInv x w' := by
  obtain ⟨hst, htime⟩ := hst
  cases move_of_step hst with
  | login hfresh hfree => exact h.of_same hst rfl fun _ _ hh ↦ hh
  | setStatus => exact h.of_same hst rfl fun _ _ hh ↦ hh
  | stay hx => exact h
  | @start y request now hy =>
      by_cases hxy : x = y
      · subst hxy
        exact h.of_update hst (Function.update_self ..)
          fun _ _ _ ↦ trivial
      · exact h.of_frame hst hxy rfl .refl
  | @phase y _ _ tx phase hy hm =>
      by_cases hxy : x = y
      · subst hxy
        exact h.of_update hst ((congrFun (txs_setPhase hy) x).trans (Function.update_self ..))
          fun _ _ hreq ↦ h.moves hy hm hreq (htime rfl tx hy) rfl
      · exact h.of_frame hst hxy (txs_setPhase hy) .refl
  | @insert y hash _ tx row hy hp hfresh =>
      by_cases hxy : x = y
      · subst hxy
        refine h.of_update
          hst ((congrFun (txs_setPhase hy) x).trans (Function.update_self ..)) fun _ _ hreq ↦ ?_
        -- A logout consumes nothing.
        have hok := h.auth.phases x tx hy
        rw [show tx.request = _ from hreq, hp] at hok
        exact hok.elim
      · exact h.of_frame hst hxy (txs_setPhase hy) (.write (h.auth.free_fresh hfresh))
  | @pass y k tx u todo hy hp hfree hm =>
      by_cases hxy : x = y
      · subst hxy
        exact h.of_update hst ((congrFun (txs_setPhase hy) x).trans (Function.update_self ..))
          fun _ _ hreq ↦ h.pass hy hp hreq hm (htime rfl tx hy)
      · exact h.of_frame hst hxy (txs_setPhase hy) .refl
  | @revoke y k tx u todo r hy hp hk hfree hr hm =>
      by_cases hxy : x = y
      · subst hxy
        exact h.of_update
          hst
          ((congrFun (txs_setPhase hy) x).trans (Function.update_self ..))
          fun _ _ hreq ↦ h.revoke hy hp hreq hm k rfl
      · have hkey : r.tokenHash = k := Store.key_of_read hr
        refine h.of_frame hst hxy (txs_setPhase hy) (.write ?_)
        rw [RefreshToken.revoke_tokenHash, hkey]
        exact hfree
  | @commit y tx outcome hy hp =>
      by_cases hxy : x = y
      · subst hxy
        refine h.of_update hst
          ((congrFun (txs_setPhase hy) x).trans (Function.update_self ..))
          fun presented owner hreq ↦ ?_
        have hok := h.auth.phases x tx hy
        have hold := h.logout tx presented owner hy hreq
        rw [show tx.request = _ from hreq, hp] at hok
        obtain rfl : outcome = .loggedOut := hok
        rw [hp] at hold
        obtain ⟨r, hh⟩ := hold
        exact h.auth.ended_commit hst rfl hy hp hh
      · exact h.of_frame hst hxy (txs_setPhase hy) (.commit h.auth)
  | @rollback y tx hy hp =>
      by_cases hxy : x = y
      · subst hxy
        exact h.of_update hst
          ((congrFun (txs_setPhase hy) x).trans (Function.update_self ..)) fun _ _ _ ↦ trivial
      · exact h.of_frame hst hxy (txs_setPhase hy) .rollback

/-- **A logout in time ends the session**: once it has committed, no live token descends
from the one it presented. -/
theorem logout_ends_session {owner : Option UserId} {outcome : Outcome} (h₀ : w₀.Initial)
    (hr : Run (only Auth.step (Event.InTime x)) w₀ tr w) (hx : w.txs x = some tx)
    (hreq : tx.request = .logout presented owner) (hp : tx.phase = .committed outcome) :
    ∀ successor, Descends w presented successor → ∀ r ∈ w.store.committed,
      r.tokenHash = successor → r.revokedAt ≠ none := by
  have h : LogoutInv x w := by
    refine hr.invariant (fun _ _ _ hi hst ↦ hi.step hst) ⟨.initial h₀, fun tx _ _ hx ↦ ?_⟩
    rw [h₀.txs x] at hx
    cases hx
  have hok := h.logout tx presented owner hx hreq
  rw [hp] at hok
  obtain ⟨⟨r, hr, hrev⟩, hno⟩ := hok
  intro successor hdesc r' hr' hk
  -- The token was never exchanged, so it is its only descendant.
  rcases hdesc.cases_head with rfl | ⟨next, ⟨y, hex⟩, -⟩
  · obtain rfl : r = r' :=
      Table.unique (Table.mem_of_get hr) hr' ((Table.key_of_get hr).trans hk.symm)
    exact hrev
  · exact absurd hex (hno y next)

/-- A logout that waits for a refresh of its token, which fails. -/
def sampleSignOut : List Event :=
  [.login sampleUser .phone 7 1 0, .start 0 (.refresh 1) 1000, .start 1 (.logout 1 none) 1001,
    .statement 0 2 1002, .touch 0 1, .statement 1 2 1003, .statement 0 2 1004, .rollback 0,
    .touch 1 1, .statement 1 3 1005, .commit 1]

theorem sampleSignOut_ends :
    ∃ r ∈ (sampleSignOut.foldl World.next sampleWorld).store.committed,
      r.tokenHash = 1 ∧ r.revokedAt ≠ none := by
  have hok : Enabled (fun w e ↦ e.Allowed w ∧ e.InTime 1 w) World.next sampleWorld
      sampleSignOut := by decide +kernel
  have hr := Run.of_enabled (only Auth.step (Event.InTime 1))
    (fun _ _ he ↦ ⟨⟨he.1, rfl⟩, he.2⟩) sampleSignOut hok
  have hx : (sampleSignOut.foldl World.next sampleWorld).txs 1 =
      some ⟨.logout 1 none, 1001, .committed .loggedOut⟩ := by decide +kernel
  have hany : (sampleSignOut.foldl World.next sampleWorld).store.committed.Any
      fun r ↦ r.tokenHash = 1 := by decide +kernel
  obtain ⟨r, hmem, hk⟩ := hany
  exact ⟨r, hmem, hk, logout_ends_session sampleWorld_initial hr hx rfl rfl 1 .refl r hmem hk⟩

/-- What a logout is to achieve once every transaction has ended. -/
def LogoutLaw (w : World) : Prop :=
  ∀ x tx presented outcome, w.txs x = some tx → tx.request = .logout presented none →
    tx.phase = .committed outcome → (∀ y tx, w.txs y = some tx → tx.phase.Finished) →
      ∀ successor, Descends w presented successor → ∀ r ∈ w.store.committed,
        r.tokenHash = successor → r.revokedAt ≠ none

/-- A logout that waits for a refresh of its token, which succeeds. -/
def sampleLateSignOut : List Event :=
  [.login sampleUser .phone 7 1 0, .start 0 (.refresh 1) 1000, .start 1 (.logout 1 none) 1001,
    .statement 0 2 1002, .touch 0 1, .statement 1 2 1003, .statement 0 2 1004, .commit 0,
    .touch 1 1, .statement 1 3 1005, .commit 1]

theorem sampleLateSignOut_survives : ¬ ∀ tr w, Run Auth.step sampleWorld tr w → LogoutLaw w := by
  intro hlaw
  have hok : Enabled Event.Allowed World.next sampleWorld sampleLateSignOut := by decide +kernel
  have hex : Exchanged (sampleLateSignOut.foldl World.next sampleWorld) 0 1 2 := by
    refine ⟨⟨.refresh 1, 1000, .committed (.session (sessionResponse 2
      ⟨5, 7, .phone, .driver, "+911234567890", .active⟩))⟩, ?_, rfl, _, rfl, rfl⟩
    decide +kernel
  have h := hlaw _ _ (Run.of_enabled Auth.step (fun _ _ he ↦ ⟨he, rfl⟩) _ hok)
    1 ⟨.logout 1 none, 1001, .committed .loggedOut⟩ 1 .loggedOut (by decide +kernel) rfl rfl
    (fun y tx hy ↦ ?_) 2 (.single ⟨0, hex⟩)
  · have hlive : (sampleLateSignOut.foldl World.next sampleWorld).store.committed.Any fun r ↦
        r.tokenHash = 2 ∧ r.revokedAt = none := by decide +kernel
    obtain ⟨r, hr, hk, hrev⟩ := hlive
    exact h r hr hk hrev
  · match y with
    | 0 => rw [← Option.some.inj hy]; trivial
    | 1 => rw [← Option.some.inj hy]; trivial
    | n + 2 => cases hy

end Rcab.Auth
