import Rcab.Auth.Invariant

/-!
# One live chain in a family

However many requests present the same token, a family never has two live tokens, and a
token is exchanged once.
-/

namespace Rcab.Auth

open ReadCommitted

variable {w₀ w : World} {tr : List (World × Event)}

/-- At every committed state a family has at most one live token, and over the whole run a
token is exchanged for a successor by at most one refresh. -/
theorem one_live_chain (h₀ : w₀.Initial) (hr : Run step w₀ tr w) :
    (∀ r ∈ w.store.committed, ∀ r' ∈ w.store.committed, r.revokedAt = none →
      r'.revokedAt = none → r.familyId = r'.familyId → r = r') ∧
    ∀ x y presented successor successor', Exchanged w x presented successor →
      Exchanged w y presented successor' → x = y := by
  have h : AuthInv w ∧ ∀ x y presented successor successor', Exchanged w x presented successor →
      Exchanged w y presented successor' → x = y := by
    refine hr.invariant (I := fun w ↦ AuthInv w ∧ ∀ x y presented successor successor',
      Exchanged w x presented successor → Exchanged w y presented successor' → x = y) ?_
      ⟨.initial h₀, fun x _ _ _ _ he ↦ ?_⟩
    · rintro w e w' ⟨hi, hs⟩ hst
      refine ⟨hi.step hst, fun x y presented S S' hx hy ↦ ?_⟩
      -- A token that was exchanged before is not live: both exchanges are old, or both new.
      rcases hi.exchanged_step hst hx with hx | ⟨hex, -, r, hr, hlive⟩ <;>
        rcases hi.exchanged_step hst hy with hy | ⟨hey, -, r', hr', hlive'⟩
      · exact hs x y presented S S' hx hy
      · obtain ⟨r, hr, hrev⟩ := hi.exchanged hx
        exact absurd (Option.some.inj (hr.symm.trans hr') ▸ hlive') hrev
      · obtain ⟨r', hr', hrev⟩ := hi.exchanged hy
        exact absurd (Option.some.inj (hr.symm.trans hr') ▸ hlive) hrev
      · exact Event.commit.inj (hex.symm.trans hey)
    · obtain ⟨tx, hx, -⟩ := he
      rw [h₀.txs x] at hx
      cases hx
  refine ⟨fun r hr r' hr' hlive hlive' hf ↦ ?_, h.2⟩
  exact Table.unique hr hr' (h.1.unique _ _ r r' (Table.get_of_mem hr) (Table.get_of_mem hr')
    hlive hlive' hf)

/-- A driver's account. -/
def sampleUser : AppUser := ⟨5, .driver, "+911234567890", .active⟩

def sampleWorld : World where
  store := .empty
  users := Table.empty.insert sampleUser
  txs _ := none
  issued := []

theorem sampleWorld_initial : sampleWorld.Initial where
  committed := Table.notMem_empty
  versions := Table.notMem_empty
  txs _ := rfl

/-- A login with token 1, which two requests present at once: transaction 0 is given token
2, transaction 1 waits for it and is turned down. -/
def sampleRace : List Event :=
  [.login sampleUser .phone 7 1 0, .start 0 (.refresh 1) 1000, .start 1 (.refresh 1) 1001,
    .statement 0 2 1002, .statement 1 3 1003, .touch 0 1, .statement 0 2 1004, .commit 0,
    .touch 1 1, .statement 1 3 1005, .statement 1 3 1006, .commit 1]

theorem sampleRace_single :
    ∃ r ∈ (sampleRace.foldl World.next sampleWorld).store.committed,
      r.tokenHash = 2 ∧ r.familyId = 7 ∧ r.revokedAt = none ∧
        ∀ r' ∈ (sampleRace.foldl World.next sampleWorld).store.committed,
          r'.revokedAt = none → r'.familyId = 7 → r' = r := by
  have hok : Enabled Event.Allowed World.next sampleWorld sampleRace := by decide +kernel
  have hr := Run.of_enabled step (fun _ _ he ↦ ⟨he, rfl⟩) sampleRace hok
  have hlive : (sampleRace.foldl World.next sampleWorld).store.committed.Any fun r ↦
      r.tokenHash = 2 ∧ r.familyId = 7 ∧ r.revokedAt = none := by decide +kernel
  obtain ⟨r, hmem, hk, hf, hlive⟩ := hlive
  exact ⟨r, hmem, hk, hf, hlive, fun r' hmem' hlive' hf' ↦
    (one_live_chain sampleWorld_initial hr).1 r' hmem' r hmem hlive' hlive (hf'.trans hf.symm)⟩

end Rcab.Auth
