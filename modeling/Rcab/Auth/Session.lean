import Mathlib.Logic.Function.Basic
import Rcab.Auth.RefreshToken
import Rcab.Lib.Run

/-!
# Refreshes and logouts as one system

Each `refresh` is a transaction of several statements, each logout (`revokePresented`,
`revoke`) one of a single statement; any number of them run side by side under READ
COMMITTED.  An event starts a statement, visits one of the rows it picked, or ends a
transaction.  A login is a single `INSERT`; its account check was an earlier read, so a
login is possible whatever the account's status is by then.
-/

namespace Rcab.Auth

open ReadCommitted

inductive Request where
  | refresh (presented : TokenHash)
  /-- `revokePresented`; `revoke` when the owner is given. -/
  | logout (presented : TokenHash) (owner : Option UserId)
deriving DecidableEq, Repr

/-- What a transaction answers once it has committed. -/
inductive Outcome where
  | session (response : TokenResponse)
  /-- 401, with the family the replay branch revoked. -/
  | invalidRefresh (replayed : Option FamilyId)
  /-- 401 -/
  | accountDisabled
  | loggedOut
deriving DecidableEq, Repr

inductive Phase where
  /-- No statement yet. -/
  | begun
  /-- An `UPDATE` is under way, with the rows it has yet to visit. -/
  | updating (u : Revocation) (todo : List TokenHash)
  /-- `consumed.rows.length === 0`. -/
  | missed
  | consumed (row : ConsumedRefreshRow)
  /-- Before `COMMIT`. -/
  | ready (outcome : Outcome)
  | committed (outcome : Outcome)
  | rolledBack
deriving DecidableEq, Repr

structure Tx where
  request : Request
  /-- `now()`. -/
  now : Time
  phase : Phase
deriving DecidableEq, Repr

structure World where
  store : TokenStore
  users : Table AppUser.id
  txs : ℕ → Option Tx
  /-- The tokens generated so far. -/
  issued : List TokenHash

inductive Event where
  | login (user : AppUser) (authMethod : AuthMethod) (familyId : FamilyId) (hash : TokenHash)
      (dateNow : Time)
  | setStatus (userId : UserId) (status : UserStatus)
  | start (x : ℕ) (request : Request) (now : Time)
  /-- The next statement of `x`; `hash` and `dateNow` are what `issueSession` meets. -/
  | statement (x : ℕ) (hash : TokenHash) (dateNow : Time)
  /-- The `UPDATE` of `x` visits a row. -/
  | touch (x : ℕ) (k : TokenHash)
  | commit (x : ℕ)
  /-- A statement failed, or the connection did. -/
  | rollback (x : ℕ)
deriving DecidableEq, Repr

namespace World

variable (w : World) (x : ℕ)

def setPhase (phase : Phase) : World :=
  { w with txs := Function.update w.txs x ((w.txs x).map fun tx ↦ { tx with phase }) }

/-- The rows an `UPDATE` starting now has to visit. -/
def picked (now : Time) (u : Revocation) : List TokenHash :=
  w.store.matching x fun r ↦ u.Matches now r

/-- What follows an `UPDATE` that has visited all its rows. -/
def returned : Revocation → Phase
  | .consume _ _ => .missed
  | .replay familyId => .ready (.invalidRefresh (some familyId))
  | .disable _ => .ready .accountDisabled
  | .logout _ _ => .ready .loggedOut

/-- The next statement of a transaction. -/
def statement (tx : Tx) (hash : TokenHash) (dateNow : Time) : World :=
  match tx.phase with
  | .begun =>
      match tx.request with
      | .refresh presented =>
          match (w.store.read x presented).bind fun r ↦ w.users.get r.userId with
          | none => w.setPhase x .missed
          | some user =>
              let u := Revocation.consume presented user
              w.setPhase x (.updating u (w.picked x tx.now u))
      | .logout presented owner =>
          let u := Revocation.logout presented owner
          w.setPhase x (.updating u (w.picked x tx.now u))
  | .updating u [] => w.setPhase x (returned u)
  | .missed =>
      match tx.request with
      | .refresh presented =>
          match replayedFamily w.store x presented tx.now with
          | none => w.setPhase x (.ready (.invalidRefresh none))
          | some familyId =>
              let u := Revocation.replay familyId
              w.setPhase x (.updating u (w.picked x tx.now u))
      | .logout _ _ => w
  | .consumed row =>
      if row.status.Blocked then
        let u := Revocation.disable row.userId
        w.setPhase x (.updating u (w.picked x tx.now u))
      else
        { w.setPhase x (.ready (.session (sessionResponse hash row))) with
          store := w.store.write x
            (sessionRow hash row.familyId row.userId row.authMethod dateNow)
          issued := hash :: w.issued }
  | _ => w

/-- What follows a row that was revoked: the consumed token is the only row. -/
def revoked (r : RefreshToken) (todo : List TokenHash) : Revocation → Phase
  | .consume _ user => .consumed (consumedRow r user)
  | u => .updating u todo

/-- An `UPDATE` visits one of its rows. -/
def visit (tx : Tx) (k : TokenHash) : World :=
  match tx.phase with
  | .updating u todo =>
      match w.store.touch x (fun r ↦ u.Matches tx.now r) (RefreshToken.revoke tx.now) k with
      | (_, none) => w.setPhase x (.updating u (todo.erase k))
      | (store, some r) => { w.setPhase x (revoked r (todo.erase k) u) with store }
  | _ => w

def next : Event → World
  | .login user authMethod familyId hash dateNow =>
      { w with
        store := { w.store with
          committed := w.store.committed.insert
            (sessionRow hash familyId user.id authMethod dateNow) }
        issued := hash :: w.issued }
  | .setStatus userId status =>
      { w with users := w.users.update (fun u ↦ u.id = userId) fun u ↦ { u with status } }
  | .start x request now => { w with txs := Function.update w.txs x (some ⟨request, now, .begun⟩) }
  | .statement x hash dateNow =>
      match w.txs x with
      | none => w
      | some tx => w.statement x tx hash dateNow
  | .touch x k =>
      match w.txs x with
      | none => w
      | some tx => w.visit x tx k
  | .commit x =>
      match w.txs x with
      | some ⟨_, _, .ready outcome⟩ =>
          { w.setPhase x (.committed outcome) with store := w.store.commit x }
      | _ => w
  | .rollback x => { w.setPhase x .rolledBack with store := w.store.rollback x }

/-- The table is empty and nothing runs. -/
structure Initial : Prop where
  committed : ∀ r, r ∉ w.store.committed
  versions : ∀ v, v ∉ w.store.versions
  txs : ∀ x, w.txs x = none

end World

/-- The transaction has ended. -/
def Phase.Finished : Phase → Prop
  | .committed _ | .rolledBack => True
  | _ => False

instance : DecidablePred Phase.Finished := fun phase ↦ by
  cases phase <;> unfold Phase.Finished <;> infer_instance

/-- A statement can start: none is under way, and there is one to come. -/
def Phase.Statement : Phase → Prop
  | .begun | .updating _ [] | .missed | .consumed _ => True
  | _ => False

instance : DecidablePred Phase.Statement := fun phase ↦ by
  unfold Phase.Statement
  split <;> infer_instance

/-- `COMMIT` is next. -/
def Phase.Ready : Phase → Prop
  | .ready _ => True
  | _ => False

instance : DecidablePred Phase.Ready := fun phase ↦ by
  cases phase <;> unfold Phase.Ready <;> infer_instance

/-- The row is one the `UPDATE` has yet to visit. -/
def Phase.Picked (k : TokenHash) : Phase → Prop
  | .updating _ todo => k ∈ todo
  | _ => False

instance {k : TokenHash} : DecidablePred (Phase.Picked k) := fun phase ↦ by
  cases phase <;> unfold Phase.Picked <;> infer_instance

/-- No row is of the family. -/
def FamilyFree (store : TokenStore) (f : FamilyId) : Prop :=
  (¬ store.committed.Any fun r ↦ r.familyId = f) ∧ ¬ store.versions.Any fun v ↦ v.row.familyId = f

instance {store : TokenStore} {f : FamilyId} : Decidable (FamilyFree store f) :=
  inferInstanceAs (Decidable (_ ∧ _))

/-- Tokens and families are generated fresh; a visit needs the row's lock. -/
def Event.Allowed (w : World) : Event → Prop
  | .login _ _ familyId hash _ => hash ∉ w.issued ∧ FamilyFree w.store familyId
  | .setStatus _ _ => True
  | .start x _ _ => w.txs x = none
  | .statement x hash _ => hash ∉ w.issued ∧ ∃ tx ∈ w.txs x, tx.phase.Statement
  | .touch x k => w.store.Free x k ∧ ∃ tx ∈ w.txs x, tx.phase.Picked k
  | .commit x => ∃ tx ∈ w.txs x, tx.phase.Ready
  | .rollback x => ∃ tx ∈ w.txs x, ¬ tx.phase.Finished

instance {w : World} : DecidablePred (Event.Allowed w) := fun e ↦ by
  cases e <;> unfold Event.Allowed <;> infer_instance

/-- The system. -/
def step (w : World) (e : Event) (w' : World) : Prop := e.Allowed w ∧ w.next e = w'

/-! ## Inversion -/

/-- The phases a statement without an `INSERT` leads to. -/
inductive Moves (w : World) (x : ℕ) (tx : Tx) : Phase → Prop
  | consume {presented user} (hp : tx.phase = .begun) (hr : tx.request = .refresh presented) :
      Moves w x tx (.updating (.consume presented user) (w.picked x tx.now (.consume presented user)))
  | noUser {presented} (hp : tx.phase = .begun) (hr : tx.request = .refresh presented) :
      Moves w x tx .missed
  | logout {presented owner} (hp : tx.phase = .begun) (hr : tx.request = .logout presented owner) :
      Moves w x tx (.updating (.logout presented owner) (w.picked x tx.now (.logout presented owner)))
  | returned {u} (hp : tx.phase = .updating u []) : Moves w x tx (World.returned u)
  | notReplayed {presented} (hp : tx.phase = .missed) (hr : tx.request = .refresh presented) :
      Moves w x tx (.ready (.invalidRefresh none))
  | replay {presented familyId} (hp : tx.phase = .missed) (hr : tx.request = .refresh presented)
      (hf : replayedFamily w.store x presented tx.now = some familyId) :
      Moves w x tx (.updating (.replay familyId) (w.picked x tx.now (.replay familyId)))
  | disable {row} (hp : tx.phase = .consumed row) :
      Moves w x tx (.updating (.disable row.userId) (w.picked x tx.now (.disable row.userId)))

/-- What an event does. -/
inductive Move (w : World) : Event → World → Prop
  | login {user authMethod familyId hash dateNow} (hfresh : hash ∉ w.issued)
      (hfree : FamilyFree w.store familyId) :
      Move w (.login user authMethod familyId hash dateNow)
        { w with
          store := { w.store with
            committed := w.store.committed.insert
              (sessionRow hash familyId user.id authMethod dateNow) }
          issued := hash :: w.issued }
  | setStatus {userId status users} : Move w (.setStatus userId status) { w with users }
  | start {x request now} (hx : w.txs x = none) :
      Move w (.start x request now)
        { w with txs := Function.update w.txs x (some ⟨request, now, .begun⟩) }
  | phase {x hash dateNow tx phase} (hx : w.txs x = some tx) (h : Moves w x tx phase) :
      Move w (.statement x hash dateNow) (w.setPhase x phase)
  | stay {x hash dateNow tx} (hx : w.txs x = some tx) : Move w (.statement x hash dateNow) w
  | insert {x hash dateNow tx row} (hx : w.txs x = some tx) (hp : tx.phase = .consumed row)
      (hfresh : hash ∉ w.issued) :
      Move w (.statement x hash dateNow)
        { w.setPhase x (.ready (.session (sessionResponse hash row))) with
          store := w.store.write x
            (sessionRow hash row.familyId row.userId row.authMethod dateNow)
          issued := hash :: w.issued }
  | pass {x k tx u todo} (hx : w.txs x = some tx) (hp : tx.phase = .updating u todo)
      (hfree : w.store.Free x k) (hm : ∀ r, w.store.read x k = some r → ¬ u.Matches tx.now r) :
      Move w (.touch x k) (w.setPhase x (.updating u (todo.erase k)))
  | revoke {x k tx u todo r} (hx : w.txs x = some tx) (hp : tx.phase = .updating u todo)
      (hk : k ∈ todo) (hfree : w.store.Free x k) (hr : w.store.read x k = some r)
      (hm : u.Matches tx.now r) :
      Move w (.touch x k)
        { w.setPhase x (World.revoked (r.revoke tx.now) (todo.erase k) u) with
          store := w.store.write x (r.revoke tx.now) }
  | commit {x tx outcome} (hx : w.txs x = some tx) (hp : tx.phase = .ready outcome) :
      Move w (.commit x) { w.setPhase x (.committed outcome) with store := w.store.commit x }
  | rollback {x tx} (hx : w.txs x = some tx) (hp : ¬ tx.phase.Finished) :
      Move w (.rollback x) { w.setPhase x .rolledBack with store := w.store.rollback x }

theorem move_of_statement {w : World} {x : ℕ} {tx : Tx} {hash : TokenHash} {dateNow : Time}
    (hx : w.txs x = some tx) (hfresh : hash ∉ w.issued) :
    Move w (.statement x hash dateNow) (w.statement x tx hash dateNow) := by
  unfold World.statement
  split
  · rename_i hp
    split
    · rename_i presented hr
      split
      · exact .phase hx (.noUser hp hr)
      · exact .phase hx (.consume hp hr)
    · rename_i presented owner hr
      exact .phase hx (.logout hp hr)
  · rename_i u hp
    exact .phase hx (.returned hp)
  · rename_i hp
    split
    · rename_i presented hr
      split
      · exact .phase hx (.notReplayed hp hr)
      · rename_i familyId hf
        exact .phase hx (.replay hp hr hf)
    · exact .stay hx
  · rename_i row hp
    split_ifs
    · exact .phase hx (.disable hp)
    · exact .insert hx hp hfresh
  · exact .stay hx

theorem move_of_step {w w' : World} {e : Event} (h : step w e w') : Move w e w' := by
  obtain ⟨he, rfl⟩ := h
  cases e with
  | login user authMethod familyId hash dateNow => exact .login he.1 he.2
  | setStatus userId status => exact .setStatus
  | start x request now => exact .start he
  | statement x hash dateNow =>
      obtain ⟨hfresh, tx, hx, -⟩ := he
      simp only [World.next, show w.txs x = some tx from hx]
      exact move_of_statement hx hfresh
  | touch x k =>
      obtain ⟨hfree, tx, hx, hpick⟩ := he
      have hx : w.txs x = some tx := hx
      simp only [World.next, hx, World.visit]
      cases hp : tx.phase with
      | updating u todo =>
          rw [hp] at hpick
          rcases Store.touch_cases (s := w.store) (x := x) (fun r ↦ u.Matches tx.now r)
            (RefreshToken.revoke tx.now) k with ⟨ht, hm⟩ | ⟨r, hr, hm, ht⟩
          · simp only [ht]
            exact .pass hx hp hfree hm
          · simp only [ht]
            exact .revoke hx hp hpick hfree hr hm
      | _ => rw [hp] at hpick; exact hpick.elim
  | commit x =>
      obtain ⟨tx, hx, hready⟩ := he
      have hx : w.txs x = some tx := hx
      obtain ⟨request, now, phase⟩ := tx
      cases phase with
      | ready outcome =>
          simp only [World.next, hx]
          exact .commit hx rfl
      | _ => exact hready.elim
  | rollback x =>
      obtain ⟨tx, hx, hf⟩ := he
      exact .rollback hx hf

end Rcab.Auth
