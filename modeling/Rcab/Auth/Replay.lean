import Rcab.Auth.SingleChain

/-!
# A replay ends its family

A refresh that presents a long revoked token revokes what is live in the token's family,
with one `UPDATE` over the family.  The `UPDATE` picks its rows when it starts.  If the
family's live token is just then being exchanged, it waits for the exchange, finds the old
token revoked and passes it over; the successor was not there when the rows were picked
(`sampleTheft_survives`).

As long as no rotation of the family commits while the `UPDATE` still has rows to visit
(`Event.Clear`), the family is over once the replay has committed.
-/

namespace Rcab.Auth

open ReadCommitted

/-- No family-wide revocation with rows yet to visit sees a rotation of its family commit. -/
def Event.Clear (w : World) : Event → Prop
  | .commit x => ∀ tx response r f, w.txs x = some tx → tx.phase = .ready (.session response) →
      w.store.Held x response.refreshToken r → r.familyId = f → ∀ y tx' k todo,
        w.txs y = some tx' → tx'.phase ≠ .updating (.replay f) (k :: todo)
  | _ => True

/-- The presented token's family. -/
def FamilyOf (s : TokenStore) (presented : TokenHash) (f : FamilyId) : Prop :=
  ∃ r, s.committed.get presented = some r ∧ r.familyId = f

/-- Each live token of the family is yet to be visited by `y`, or held by it. -/
def Covered (s : TokenStore) (y : ℕ) (f : FamilyId) (todo : List TokenHash) : Prop :=
  ∀ k r, s.committed.get k = some r → r.revokedAt = none → r.familyId = f →
    k ∈ todo ∨ ∃ r', s.Held y k r'

/-- No token of the family is live. -/
def FamilyOver (s : TokenStore) (f : FamilyId) : Prop :=
  ∀ k r, s.committed.get k = some r → r.familyId = f → r.revokedAt ≠ none

/-- What a replay has achieved, phase by phase. -/
def ReplayOk (s : TokenStore) (y : ℕ) : Request → Phase → Prop
  | .refresh presented, .updating (.replay f) todo => FamilyOf s presented f ∧ Covered s y f todo
  | .refresh presented, .ready (.invalidRefresh (some f)) =>
      FamilyOf s presented f ∧ Covered s y f []
  | .refresh presented, .committed (.invalidRefresh (some f)) =>
      FamilyOf s presented f ∧ FamilyOver s f
  | _, _ => True

variable {w₀ w w' : World} {s s' : TokenStore} {x y : ℕ} {k : TokenHash} {r : RefreshToken}
  {tx : Tx} {f : FamilyId} {presented : TokenHash} {now : Time} {tr : List (World × Event)}

/-- The families of committed tokens do not change. -/
theorem AuthInv.familyOf_commit (h : AuthInv w) (hf : FamilyOf w.store presented f) :
    FamilyOf (w.store.commit x) presented f := by
  obtain ⟨r, hr, rfl⟩ := hf
  by_cases hh : ∃ r', w.store.Held x presented r'
  · obtain ⟨r', hh⟩ := hh
    refine ⟨r', Store.get_commit.trans hh.read, ?_⟩
    rcases h.held x presented r' hh with ⟨r₀, t, h₀, -, rfl⟩ | ⟨hnone, -⟩
    · rw [← Option.some.inj (hr.symm.trans h₀)]
      rfl
    · rw [hr] at hnone
      cases hnone
  · rw [not_exists] at hh
    exact ⟨r, Store.get_commit.trans ((Store.read_of_not_held hh).trans hr), rfl⟩

/-- A live token of the next committed state was live before, or replaces one of its family
that its transaction holds. -/
theorem AuthInv.live_commit (h : AuthInv w)
    (hr : (w.store.commit x).committed.get k = some r) (hlive : r.revokedAt = none) :
    w.store.committed.get k = some r ∨ ∃ tx response presented r₀, w.txs x = some tx ∧
      tx.phase = .ready (.session response) ∧ w.store.Held x response.refreshToken r ∧
        w.store.committed.get presented = some r₀ ∧ r₀.revokedAt = none ∧
          r₀.familyId = r.familyId ∧ ∃ r₁, w.store.Held x presented r₁ := by
  rcases h.get_commit hr with ⟨hc, -⟩ | ⟨hh, hrev | ⟨tx, response, presented, hx, -, hp, rfl, hrot⟩⟩
  · exact Or.inl hc
  · exact absurd hlive hrev
  · obtain ⟨r₀, h₀, hlive₀, hf₀⟩ := h.rotating_live hrot
    obtain ⟨r₁, hh₁, -⟩ := hrot
    exact Or.inr ⟨tx, response, presented, r₀, hx, hp, hh, h₀, hlive₀, hf₀, r₁, hh₁⟩

/-- A family that is over stays over. -/
theorem AuthInv.familyOver_commit (h : AuthInv w) (hf : FamilyOver w.store f) :
    FamilyOver (w.store.commit x) f := by
  intro k r hr hfam hlive
  rcases h.live_commit hr hlive with hc | ⟨_, _, _, r₀, -, -, -, h₀, hlive₀, hf₀, -⟩
  · exact hf k r hc hfam hlive
  · exact hf _ r₀ h₀ (hf₀.trans hfam) hlive₀

/-- A commit of another transaction that is not a rotation of the family under way. -/
theorem AuthInv.covered_commit {todo : List TokenHash} (h : AuthInv w) (hne : y ≠ x)
    (hc : Covered w.store y f todo)
    (hclear : ∀ tx response r, w.txs x = some tx → tx.phase = .ready (.session response) →
      w.store.Held x response.refreshToken r → r.familyId = f → todo = []) :
    Covered (w.store.commit x) y f todo := by
  intro k r hr hlive hfam
  rcases h.live_commit hr hlive with
    hold | ⟨tx, response, k₀, r₀, hx, hp, hh, h₀, hlive₀, hf₀, r₁, hh₁⟩
  · rcases hc k r hold hlive hfam with hk | ⟨r', hr'⟩
    · exact Or.inl hk
    · exact Or.inr ⟨r', Store.held_commit.mpr ⟨hr', hne⟩⟩
  · -- The token given in exchange is covered, and its lock is not the replay's.
    rcases hc k₀ r₀ h₀ hlive₀ (hf₀.trans hfam) with hk | ⟨r', hr'⟩
    · rw [hclear tx response r hx hp hh hfam] at hk
      cases hk
    · exact absurd (hr'.unique hh₁).1 hne

/-- What carries a replay's achievements from one store to the next. -/
theorem ReplayOk.imp {request : Request} {phase : Phase} (h : ReplayOk s y request phase)
    (hfam : ∀ presented f, FamilyOf s presented f → FamilyOf s' presented f)
    (hcov : ∀ presented f todo, FamilyOf s presented f →
      (todo ≠ [] → phase = .updating (.replay f) todo) → Covered s y f todo → Covered s' y f todo)
    (hover : ∀ presented f, FamilyOf s presented f → FamilyOver s f → FamilyOver s' f) :
    ReplayOk s' y request phase := by
  cases request with
  | logout presented owner => cases phase <;> trivial
  | refresh presented =>
      cases phase with
      | updating u todo =>
          cases u with
          | replay f => exact ⟨hfam _ f h.1, hcov _ f todo h.1 (fun _ ↦ rfl) h.2⟩
          | _ => trivial
      | ready outcome =>
          cases outcome with
          | invalidRefresh replayed =>
              cases replayed with
              | none => trivial
              | some f => exact ⟨hfam _ f h.1, hcov _ f [] h.1 (fun hne ↦ absurd rfl hne) h.2⟩
          | _ => trivial
      | committed outcome =>
          cases outcome with
          | invalidRefresh replayed =>
              cases replayed with
              | none => trivial
              | some f => exact ⟨hfam _ f h.1, hover _ f h.1 h.2⟩
          | _ => trivial
      | _ => trivial

/-- Another transaction's change that commits nothing. -/
theorem ReplayOk.frame {request : Request} {phase : Phase} (h : ReplayOk s y request phase)
    (hf : Frame x s s') (hne : y ≠ x) (hc : s'.committed = s.committed) :
    ReplayOk s' y request phase := by
  refine h.imp (fun presented f hfam ↦ ?_) (fun _ f todo _ _ hcov k r hr hlive hfam ↦ ?_)
    fun _ f _ hover k r hr ↦ hover k r ?_
  · rwa [FamilyOf, hc]
  · rw [hc] at hr
    rcases hcov k r hr hlive hfam with hk | ⟨r', hr'⟩
    · exact Or.inl hk
    · exact Or.inr ⟨r', (hf.held y k r' hne).mpr hr'⟩
  · rwa [hc] at hr

/-- What every state satisfies when no rotation slips by a replay. -/
structure ReplayInv (w : World) : Prop where
  auth : AuthInv w
  replays : ∀ y tx, w.txs y = some tx → ReplayOk w.store y tx.request tx.phase

/-- One transaction moved. -/
theorem ReplayInv.of_update {e : Event} (h : ReplayInv w) (hst : step w e w')
    (htxs : w'.txs = Function.update w.txs x (some tx))
    (hother : ∀ y tx', y ≠ x → w.txs y = some tx' → ReplayOk w'.store y tx'.request tx'.phase)
    (hx : ReplayOk w'.store x tx.request tx.phase) : ReplayInv w' where
  auth := h.auth.step hst
  replays y tx' hy' := by
    rw [htxs] at hy'
    by_cases hy : y = x
    · subst hy
      rw [Function.update_self] at hy'
      exact Option.some.inj hy' ▸ hx
    · rw [Function.update_of_ne hy] at hy'
      exact hother y tx' hy hy'

/-- The family `UPDATE` picks every live token of the family. -/
theorem covered_picked (now : Time) (f : FamilyId) :
    Covered w.store x f (w.picked x now (.replay f)) := by
  intro k r hr hlive hfam
  by_cases hh : ∃ r', w.store.Held x k r'
  · exact Or.inr hh
  · rw [not_exists] at hh
    exact Or.inl (Store.mem_matching.mpr ⟨r, (Store.read_of_not_held hh).trans hr, hlive, hfam⟩)

/-- The subselect finds the presented token's family. -/
theorem AuthInv.familyOf_replayed {now : Time} (h : AuthInv w)
    (hf : replayedFamily w.store x presented now = some f) : FamilyOf w.store presented f := by
  obtain ⟨r, hr, hrev, rfl⟩ := replayedFamily_eq_some hf
  rcases Store.read_eq_some hr with hh | ⟨-, hc⟩
  · rcases h.held x presented r hh with ⟨r₀, t, h₀, -, rfl⟩ | ⟨-, hlive, -⟩
    · exact ⟨r₀, h₀, rfl⟩
    · exact absurd hlive hrev
  · exact ⟨r, hc, rfl⟩

/-- The statements of a replay. -/
theorem ReplayInv.moves {phase : Phase} (h : ReplayInv w) (hx : w.txs x = some tx)
    (hm : Moves w x tx phase) : ReplayOk w.store x tx.request phase := by
  have hold := h.replays x tx hx
  have hok := (h.auth.moves hx hm).2
  cases hreq : tx.request with
  | logout presented owner => cases phase <;> trivial
  | refresh presented =>
      rw [hreq] at hold hok
      cases hm with
      | @returned u hp =>
          rw [hp] at hold
          cases u <;> exact hold
      | @replay presented' f hp hr hf =>
          rw [hreq] at hr
          obtain rfl := Request.refresh.inj hr
          exact ⟨h.auth.familyOf_replayed hf, covered_picked tx.now f⟩
      | _ => trivial

/-- A visited row that no longer matches is not live. -/
theorem Covered.pass {todo : List TokenHash} {now : Time} (h : Covered s y f todo)
    (hm : ∀ r, s.read y k = some r → ¬ (Revocation.replay f).Matches now r) :
    Covered s y f (todo.erase k) := by
  intro k' r hr hlive hfam
  rcases h k' r hr hlive hfam with hk | hh
  · by_cases hh : ∃ r', s.Held y k' r'
    · exact Or.inr hh
    · rw [not_exists] at hh
      have hread := (Store.read_of_not_held hh).trans hr
      refine Or.inl ((List.mem_erase_of_ne ?_).mpr hk)
      rintro rfl
      exact hm r hread ⟨hlive, hfam⟩
  · exact Or.inr hh

/-- A visited row that matches is held from then on. -/
theorem Covered.revoke {todo : List TokenHash} (h : Covered s y f todo) (hk : r.tokenHash = k) :
    Covered (s.write y r) y f (todo.erase k) := by
  intro k' r' hr hlive hfam
  by_cases he : k' = r.tokenHash
  · exact Or.inr ⟨r, Store.held_write.mpr (Or.inl ⟨he, rfl, rfl⟩)⟩
  · rcases h k' r' hr hlive hfam with hmem | ⟨r'', hh⟩
    · exact Or.inl ((List.mem_erase_of_ne (hk ▸ he)).mpr hmem)
    · exact Or.inr ⟨r'', Store.held_write.mpr (Or.inr ⟨he, hh⟩)⟩

/-- The commit of a replay that has every live token of the family. -/
theorem AuthInv.over_of_covered (h : AuthInv w) (hx : w.txs x = some tx)
    (hp : tx.phase = .ready (.invalidRefresh (some f))) (hc : Covered w.store x f []) :
    FamilyOver (w.store.commit x) f := by
  intro k r hr hfam hlive
  rcases h.live_commit hr hlive with hold | ⟨tx', response, _, _, hx', hp', -⟩
  · rcases hc k r hold hlive hfam with hk | ⟨r', hh⟩
    · cases hk
    · rw [Store.get_commit, hh.read] at hr
      obtain rfl := Option.some.inj hr
      rcases h.held x k r' hh with ⟨_, _, -, -, rfl⟩ | ⟨hnone, -⟩
      · cases hlive
      · rw [hold] at hnone
        cases hnone
  · obtain rfl := Option.some.inj (hx.symm.trans hx')
    rw [hp] at hp'
    cases hp'

theorem ReplayInv.commit {outcome : Outcome} (h : ReplayInv w) (hx : w.txs x = some tx)
    (hp : tx.phase = .ready outcome) (hclear : Event.Clear w (.commit x))
    (hst : step w (.commit x)
      { w.setPhase x (.committed outcome) with store := w.store.commit x }) :
    ReplayInv { w.setPhase x (.committed outcome) with store := w.store.commit x } := by
  refine h.of_update (x := x) hst (txs_setPhase hx) (fun y tx' hne hy ↦ ?_) ?_
  · refine (h.replays y tx' hy).imp (fun _ _ ↦ h.auth.familyOf_commit)
      (fun _ f todo _ hphase hcov ↦ h.auth.covered_commit hne hcov fun tx r' response hx hp hh hf ↦ ?_)
      fun _ _ _ ↦ h.auth.familyOver_commit
    cases todo with
    | nil => rfl
    | cons k todo =>
        exact absurd (hphase (by simp)) (hclear tx _ _ f hx hp hh hf y tx' k todo hy)
  · have hold := h.replays x tx hx
    rw [hp] at hold
    cases hreq : tx.request with
    | logout presented owner => trivial
    | refresh presented =>
        rw [hreq] at hold
        cases outcome with
        | invalidRefresh replayed =>
            cases replayed with
            | none => trivial
            | some f => exact ⟨h.auth.familyOf_commit hold.1, h.auth.over_of_covered hx hp hold.2⟩
        | _ => trivial

/-- A login adds no token to a family that is there. -/
theorem ReplayInv.login {row : RefreshToken} (h : ReplayInv w) (hfresh : row.tokenHash ∉ w.issued)
    (hfree : FamilyFree w.store row.familyId) (hy : w.txs y = some tx) :
    ReplayOk { w.store with committed := w.store.committed.insert row } y tx.request tx.phase := by
  have hnone := (h.auth.issued _ hfresh).1
  have hget : ∀ k, (w.store.committed.insert row).get k =
      if k = row.tokenHash then some row else w.store.committed.get k :=
    fun k ↦ Table.get_insert hnone
  have hne : ∀ {presented f}, FamilyOf w.store presented f → row.familyId ≠ f := by
    rintro presented f ⟨r, hr, rfl⟩ he
    exact hfree.1 ⟨r, Table.mem_of_get hr, he.symm⟩
  -- A row of the family in the new table was there before.
  have hold : ∀ {presented f k r}, FamilyOf w.store presented f →
      (w.store.committed.insert row).get k = some r → r.familyId = f →
        w.store.committed.get k = some r := by
    intro presented f k r hf hr hfam
    rw [hget] at hr
    split_ifs at hr with hk
    · obtain rfl := Option.some.inj hr
      exact absurd hfam (hne hf)
    · exact hr
  refine (h.replays y tx hy).imp (fun presented f hf ↦ ?_)
    (fun _ f todo hf _ hcov k r hr hlive hfam ↦ hcov k r (hold hf hr hfam) hlive hfam)
    fun _ f hf hover k r hr hfam ↦ hover k r (hold hf hr hfam) hfam
  obtain ⟨r, hr, hfam⟩ := hf
  refine ⟨r, ?_, hfam⟩
  show (w.store.committed.insert row).get presented = some r
  rw [hget, if_neg, hr]
  rintro rfl
  rw [hnone] at hr
  cases hr

/-- What a visit that finds its row changed leaves of a replay. -/
theorem ReplayInv.pass {u : Revocation} {todo : List TokenHash} (h : ReplayInv w)
    (hx : w.txs x = some tx) (hp : tx.phase = .updating u todo)
    (hm : ∀ r, w.store.read x k = some r → ¬ u.Matches tx.now r) :
    ReplayOk w.store x tx.request (.updating u (todo.erase k)) := by
  have hold := h.replays x tx hx
  rw [hp] at hold
  cases hreq : tx.request with
  | logout presented owner => trivial
  | refresh presented =>
      rw [hreq] at hold
      cases u with
      | replay f => exact ⟨hold.1, hold.2.pass hm⟩
      | _ => trivial

/-- What a visit that revokes its row adds to a replay. -/
theorem ReplayInv.revoke {u : Revocation} {todo : List TokenHash} (h : ReplayInv w)
    (hx : w.txs x = some tx) (hp : tx.phase = .updating u todo)
    (hr : w.store.read x k = some r) :
    ReplayOk (w.store.write x (r.revoke tx.now)) x tx.request
      (World.revoked (r.revoke tx.now) (todo.erase k) u) := by
  have hold := h.replays x tx hx
  rw [hp] at hold
  cases hreq : tx.request with
  | logout presented owner => cases u <;> trivial
  | refresh presented =>
      rw [hreq] at hold
      cases u with
      | replay f =>
          have hk : r.tokenHash = k := Store.key_of_read hr
          exact ⟨hold.1, hold.2.revoke (r := r.revoke tx.now) hk⟩
      | _ => trivial

theorem ReplayInv.step {e : Event} (h : ReplayInv w) (hst : only step Event.Clear w e w') :
    ReplayInv w' := by
  obtain ⟨hst, hclear⟩ := hst
  have hother : ∀ {x}, Frame x w.store w'.store → w'.store.committed = w.store.committed →
      ∀ y tx', y ≠ x → w.txs y = some tx' → ReplayOk w'.store y tx'.request tx'.phase :=
    fun hf hc y tx' hne hy ↦ (h.replays y tx' hy).frame hf hne hc
  cases move_of_step hst with
  | login hfresh hfree => exact ⟨h.auth.step hst, fun y tx hy ↦ h.login hfresh hfree hy⟩
  | setStatus => exact ⟨h.auth.step hst, h.replays⟩
  | stay hx => exact h
  | @start x request now hx =>
      refine h.of_update (x := x) hst rfl (hother .refl rfl) ?_
      cases request <;> trivial
  | @phase x _ _ tx phase hx hm =>
      refine h.of_update hst (txs_setPhase hx) (hother .refl rfl) ?_
      show ReplayOk w.store x tx.request phase
      exact h.moves hx hm
  | @insert x hash _ tx row hx hp hfresh =>
      refine h.of_update
        hst (txs_setPhase hx) (hother (.write (h.auth.free_fresh hfresh)) rfl) ?_
      cases tx.request <;> trivial
  | @pass x k tx u todo hx hp hfree hm =>
      refine h.of_update hst
        (txs_setPhase hx) (hother .refl rfl) ?_
      show ReplayOk w.store x tx.request (.updating u (todo.erase k))
      exact h.pass hx hp hm
  | @revoke x k tx u todo r hx hp hk hfree hr hm =>
      have hkey : r.tokenHash = k := Store.key_of_read hr
      refine h.of_update
        hst
        (txs_setPhase hx) (hother (.write ?_) rfl) ?_
      · rw [RefreshToken.revoke_tokenHash, hkey]
        exact hfree
      · exact h.revoke hx hp hr
  | commit hx hp => exact h.commit hx hp hclear hst
  | @rollback x tx hx hp =>
      refine h.of_update hst (txs_setPhase hx)
        (hother .rollback rfl) ?_
      cases tx.request <;> trivial

/-- **A detected replay ends the family**: from its commit on, no token of the presented
token's family is live, whatever rotations were under way. -/
theorem replay_ends_family (h₀ : w₀.Initial) (hr : Run (only step Event.Clear) w₀ tr w)
    (hy : w.txs y = some tx) (hreq : tx.request = .refresh presented)
    (hp : tx.phase = .committed (.invalidRefresh (some f))) :
    (∃ r ∈ w.store.committed, r.tokenHash = presented ∧ r.familyId = f) ∧
      ∀ r ∈ w.store.committed, r.familyId = f → r.revokedAt ≠ none := by
  have h : ReplayInv w := by
    refine hr.invariant (fun _ _ _ hi hst ↦ hi.step hst) ⟨.initial h₀, fun y tx hy ↦ ?_⟩
    rw [h₀.txs y] at hy
    cases hy
  have hok := h.replays y tx hy
  rw [hreq, hp] at hok
  obtain ⟨⟨r, hr, hfam⟩, hover⟩ := hok
  exact ⟨⟨r, Table.mem_of_get hr, Table.key_of_get hr, hfam⟩,
    fun r' hr' ↦ hover _ r' (Table.get_of_mem hr')⟩

/-- The event ends a transaction with its commit. -/
def Event.IsCommit : Event → Prop
  | .commit _ => True
  | _ => False

instance : DecidablePred Event.IsCommit
  | .commit _ => inferInstanceAs (Decidable True)
  | .login .. | .setStatus .. | .start .. | .statement .. | .touch .. | .rollback _ =>
      inferInstanceAs (Decidable False)

/-- Only a commit can disturb a replay. -/
theorem clear_of_not_commit {e : Event} (h : ¬ e.IsCommit) : e.Clear w := by
  cases e with
  | commit x => exact absurd trivial h
  | _ => trivial

/-- A commit with no other transaction about. -/
theorem clear_of_alone (h : ∀ y, y ≠ x → w.txs y = none) : Event.Clear w (.commit x) := by
  intro tx response r f hx hp _ _ y tx' k todo hy hp'
  by_cases hyx : y = x
  · subst hyx
    obtain rfl := Option.some.inj (hx.symm.trans hy)
    rw [hp] at hp'
    cases hp'
  · rw [h y hyx] at hy
    cases hy

/-- The commit of a replay is no rotation. -/
theorem clear_of_replay (presented : TokenHash) (now : Time) (f : FamilyId)
    (h : w.txs x = some ⟨.refresh presented, now, .ready (.invalidRefresh (some f))⟩) :
    Event.Clear w (.commit x) := by
  intro tx response r f' hx hp
  obtain rfl := Option.some.inj (h.symm.trans hx)
  cases hp

/-- Token 1 is exchanged for token 2. -/
def sampleExchange : List Event :=
  [.login sampleUser .phone 7 1 0, .start 0 (.refresh 1) 1000, .statement 0 2 1000, .touch 0 1,
    .statement 0 2 1001]

def sampleExchanged : World := (sampleExchange.foldl World.next sampleWorld).next (.commit 0)

/-- Nineteen seconds later token 1 is presented again. -/
def sampleReplay : List Event :=
  [.start 1 (.refresh 1) 20000, .statement 1 3 20000, .statement 1 3 20001, .statement 1 3 20002,
    .touch 1 2, .statement 1 3 20003]

theorem sampleReplay_over :
    FamilyOver ((sampleReplay.foldl World.next sampleExchanged).next (.commit 1)).store 7 ∧
      sampleExchanged.store.committed.Any fun r ↦ r.familyId = 7 ∧ r.revokedAt = none := by
  have hstep : ∀ w e, e.Allowed w ∧ ¬ e.IsCommit → only step Event.Clear w e (w.next e) :=
    fun _ _ h ↦ ⟨⟨h.1, rfl⟩, clear_of_not_commit h.2⟩
  have h₁ := (Run.of_enabled _ hstep sampleExchange (s := sampleWorld) (by decide +kernel)).snoc
    (e := .commit 0) (u := sampleExchanged) ⟨⟨by decide +kernel, rfl⟩, clear_of_alone fun y hy ↦ ?_⟩
  · have h₂ := (Run.of_enabled _ hstep sampleReplay (s := sampleExchanged) (by decide +kernel)).snoc
      (e := .commit 1) ⟨⟨by decide +kernel, rfl⟩,
        clear_of_replay 1 20000 7 (by decide +kernel)⟩
    have hy : ((sampleReplay.foldl World.next sampleExchanged).next (.commit 1)).txs 1 =
        some ⟨.refresh 1, 20000, .committed (.invalidRefresh (some 7))⟩ := by decide +kernel
    have hover := (replay_ends_family sampleWorld_initial (h₁.trans h₂) hy rfl rfl).2
    exact ⟨fun k r hr ↦ hover r (Table.mem_of_get hr), by decide +kernel⟩
  · match y with
    | 0 => exact absurd rfl hy
    | n + 1 => rfl

/-- What a replay is to achieve once every transaction has ended. -/
def ReplayLaw (w : World) : Prop :=
  ∀ y tx presented f, w.txs y = some tx → tx.request = .refresh presented →
    tx.phase = .committed (.invalidRefresh (some f)) →
      (∀ x tx, w.txs x = some tx → tx.phase.Finished) →
        ∀ r ∈ w.store.committed, r.familyId = f → r.revokedAt ≠ none

/-- Token 2 is being exchanged for token 3 while the replay of token 1 waits for it. -/
def sampleTheft : List Event :=
  [.start 1 (.refresh 2) 20000, .statement 1 3 20000, .touch 1 2,
    .start 2 (.refresh 1) 20001, .statement 2 4 20001, .statement 2 4 20002,
    .statement 2 4 20003, .statement 1 3 20004, .commit 1, .touch 2 2, .statement 2 4 20005,
    .commit 2]

theorem sampleTheft_survives :
    ¬ ∀ tr w, Run step sampleWorld tr w → ReplayLaw w := by
  intro hlaw
  have hok : Enabled Event.Allowed World.next sampleWorld
      (sampleExchange ++ .commit 0 :: sampleTheft) := by decide +kernel
  have h := hlaw _ _ (Run.of_enabled step (fun _ _ he ↦ ⟨he, rfl⟩) _ hok)
    2 ⟨.refresh 1, 20001, .committed (.invalidRefresh (some 7))⟩ 1 7 (by decide +kernel) rfl rfl
    fun x tx hx ↦ ?_
  · have hlive : ((sampleExchange ++ .commit 0 :: sampleTheft).foldl World.next
        sampleWorld).store.committed.Any fun r ↦ r.familyId = 7 ∧ r.revokedAt = none := by
      decide +kernel
    obtain ⟨r, hr, hf, hrev⟩ := hlive
    exact h r hr hf hrev
  · match x with
    | 0 => rw [← Option.some.inj hx]; trivial
    | 1 => rw [← Option.some.inj hx]; trivial
    | 2 => rw [← Option.some.inj hx]; trivial
    | n + 3 => cases hx

end Rcab.Auth
