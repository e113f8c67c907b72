import Mathlib.Logic.Relation
import Rcab.Lib.Run

/-!
# Refinement, step by step and run by run

A system refines an abstract one when, under an invariant of its own, the abstraction of each of its
steps is a path of the abstract system.  The paths of the steps then join up: every run, and every
part of a run, is a path (`Refinement.run`, `Refinement.of_mem`).
-/

universe u v w

namespace Rcab

open Relation (ReflTransGen)

variable {σ : Type u} {ε : Type v} {τ : Type w}

/-- Under `I`, a step is a path of `R` from the abstraction of one state to that of the next. -/
structure Refinement (step : σ → ε → σ → Prop) (I : σ → Prop) (α : σ → τ)
    (R : τ → τ → Prop) : Prop where
  keeps : ∀ {s e t}, I s → step s e t → I t
  path : ∀ {s e t}, I s → step s e t → ReflTransGen R (α s) (α t)

namespace Refinement

variable {step : σ → ε → σ → Prop} {I : σ → Prop} {α : σ → τ} {R : τ → τ → Prop} {s t : σ}
  {tr : List (σ × ε)}

theorem invariant (h : Refinement step I α R) (hi : I s) (hr : Run step s tr t) : I t :=
  hr.invariant (fun _ _ _ ↦ h.keeps) hi

/-- A run is a path. -/
theorem run (h : Refinement step I α R) (hi : I s) (hr : Run step s tr t) :
    ReflTransGen R (α s) (α t) := by
  induction hr with
  | nil => exact .refl
  | snoc hr hst ih => exact ih.trans (h.path (h.invariant hi hr) hst)

/-- So is the rest of a run, from any state it went through. -/
theorem of_mem (h : Refinement step I α R) (hi : I s) (hr : Run step s tr t) {x : σ × ε}
    (hx : x ∈ tr) : ReflTransGen R (α x.1) (α t) := by
  obtain ⟨tr₁, tr₂, rfl⟩ := List.append_of_mem hx
  obtain ⟨h₁, t', hst, h₂⟩ := hr.step_of_split
  have hx : I x.1 := h.invariant hi h₁
  exact (h.path hx hst).trans (h.run (h.keeps hx hst) h₂)

/-- A system with fewer steps refines the same. -/
theorem only (h : Refinement step I α R) (P : σ → ε → Prop) :
    Refinement (Rcab.only step P) I α R where
  keeps hi hst := h.keeps hi hst.1
  path hi hst := h.path hi hst.1

end Refinement

end Rcab
