import Mathlib.Data.List.DropRight
import Mathlib.Data.List.Induction
import Mathlib.Order.Defs.LinearOrder

/-!
# Runs of a labelled transition system

`step : σ → ε → σ → Prop` relates a state, an event and a next state.  A `Run`
records every state the system left together with the event taken there, so that
a statement about *what happened* (how often, in what order, from which states)
can be read off the trace rather than off the final state.

The two rules used throughout are `Run.invariant`, for what every reachable state
satisfies, and `Run.invariant_trace`, for facts relating the trace so far to the
current state.  A run all of whose steps satisfy a side condition `P` is a run of
the restricted system `only step P`.
-/

universe u v

namespace Rcab

variable {σ : Type u} {ε : Type v}

/-- `Run step s tr t`: from `s`, the events of `tr` lead to `t`; each entry of
`tr` is the state an event was taken in, and the event. -/
inductive Run (step : σ → ε → σ → Prop) (s : σ) : List (σ × ε) → σ → Prop
  | /-- Nothing has happened. -/
    nil : Run step s [] s
  | /-- One more event, at the end. -/
    snoc {tr t e u} : Run step s tr t → step t e u → Run step s (tr ++ [(t, e)]) u

/-- The system restricted to the steps satisfying `P` in the state they leave. -/
def only (step : σ → ε → σ → Prop) (P : σ → ε → Prop) (s : σ) (e : ε) (t : σ) : Prop :=
  step s e t ∧ P s e

namespace Run

variable {step : σ → ε → σ → Prop} {s t u : σ} {tr tr' : List (σ × ε)}

/-- A single event. -/
theorem single {e : ε} (h : step s e t) : Run step s [(s, e)] t := snoc nil h

/-- Runs compose. -/
theorem trans (h : Run step s tr t) (h' : Run step t tr' u) : Run step s (tr ++ tr') u := by
  induction h' with
  | nil => simpa using h
  | snoc _ hs ih => rw [← List.append_assoc]; exact ih.snoc hs

/-- An event at the front. -/
theorem cons {e : ε} (h : step s e t) (h' : Run step t tr u) : Run step s ((s, e) :: tr) u := by
  simpa using (single h).trans h'

/-- An invariant of every step holds after every run. -/
theorem invariant {I : σ → Prop} (h : Run step s tr t)
    (hstep : ∀ s e t, I s → step s e t → I t) (hs : I s) : I t := by
  induction h with
  | nil => exact hs
  | snoc _ he ih => exact hstep _ _ _ ih he

/-- An invariant relating the trace so far to the current state. -/
theorem invariant_trace {I : List (σ × ε) → σ → Prop} (h : Run step s tr t)
    (hstep : ∀ tr t e u, I tr t → step t e u → I (tr ++ [(t, e)]) u) (hs : I [] s) : I tr t := by
  induction h with
  | nil => exact hs
  | snoc _ he ih => exact hstep _ _ _ _ ih he

/-- A run under a side condition is a run. -/
theorem of_only {P : σ → ε → Prop} (h : Run (only step P) s tr t) : Run step s tr t := by
  induction h with
  | nil => exact nil
  | snoc _ he ih => exact ih.snoc he.1

/-- The last event of a run, and the run before it. -/
theorem snoc_inv {e : ε} (h : Run step s (tr ++ [(t, e)]) u) : Run step s tr t ∧ step t e u := by
  generalize hl : tr ++ [(t, e)] = l at h
  cases h with
  | nil => simp at hl
  | snoc h he =>
      obtain ⟨rfl, hp⟩ := List.append_inj' hl rfl
      simp only [List.cons.injEq, Prod.mk.injEq, and_true] at hp
      obtain ⟨rfl, rfl⟩ := hp
      exact ⟨h, he⟩

/-- A run splits where its trace does. -/
theorem split (h : Run step s (tr ++ tr') u) : ∃ t, Run step s tr t ∧ Run step t tr' u := by
  induction tr' using List.reverseRecOn generalizing u with
  | nil => exact ⟨u, by simpa using h, nil⟩
  | append_singleton tr₁ p ih =>
      obtain ⟨t', e⟩ := p
      rw [← List.append_assoc] at h
      obtain ⟨h, he⟩ := snoc_inv h
      obtain ⟨t, h₁, h₂⟩ := ih h
      exact ⟨t, h₁, h₂.snoc he⟩

/-- Every entry of a trace is a step of the system, taken where the run before it led. -/
theorem step_of_split {e : ε} (h : Run step s (tr ++ (t, e) :: tr') u) :
    Run step s tr t ∧ ∃ t', step t e t' ∧ Run step t' tr' u := by
  rw [show tr ++ (t, e) :: tr' = tr ++ [(t, e)] ++ tr' by simp] at h
  obtain ⟨t', h₁, h₂⟩ := split h
  exact ⟨(snoc_inv h₁).1, t', (snoc_inv h₁).2, h₂⟩

end Run

section Since

/-- The entries after the last one satisfying `p`. -/
def since (p : σ × ε → Prop) [DecidablePred p] (tr : List (σ × ε)) : List (σ × ε) :=
  tr.rtakeWhile fun e ↦ ¬ p e

variable {p : σ × ε → Prop} [DecidablePred p] {tr : List (σ × ε)} {e : σ × ε}

@[simp] theorem since_nil : since p [] = [] := List.rtakeWhile_nil _

theorem since_snoc_of (h : p e) : since p (tr ++ [e]) = [] :=
  List.rtakeWhile_concat_neg _ _ _ (by simpa using h)

theorem since_snoc_of_not (h : ¬ p e) : since p (tr ++ [e]) = since p tr ++ [e] :=
  List.rtakeWhile_concat_pos _ _ _ (by simpa using h)

end Since

section Once

/-! An event that brings about what rules it out happens at most once. -/

variable {step : σ → ε → σ → Prop} {s t : σ} {tr : List (σ × ε)} {I Q : σ → Prop}
  {p : σ × ε → Bool}

/-- What rules the event out is never lost, so the event never happens. -/
theorem Run.none_after (h : Run step s tr t) (hs : I s) (hI : ∀ s e t, I s → step s e t → I t)
    (hstays : ∀ s e t, I s → step s e t → Q s → Q t)
    (hnever : ∀ s e t, I s → step s e t → Q s → p (s, e) = false) (hq : Q s) :
    ∀ x ∈ tr, p x = false := by
  have key : I t ∧ Q t ∧ ∀ x ∈ tr, p x = false := by
    refine h.invariant_trace (I := fun tr t ↦ I t ∧ Q t ∧ ∀ x ∈ tr, p x = false) ?_
      ⟨hs, hq, by simp⟩
    rintro tr t e u ⟨hi, hq, hno⟩ hst
    refine ⟨hI _ _ _ hi hst, hstays _ _ _ hi hst hq, fun x hx ↦ ?_⟩
    rcases List.mem_append.mp hx with hx | hx
    · exact hno x hx
    · rw [List.mem_singleton.mp hx]
      exact hnever _ _ _ hi hst hq
  exact key.2.2

theorem Run.countP_le_one (h : Run step s tr t) (hs : I s) (hI : ∀ s e t, I s → step s e t → I t)
    (hafter : ∀ s e t, I s → step s e t → p (s, e) = true → Q t)
    (hstays : ∀ s e t, I s → step s e t → Q s → Q t)
    (hnever : ∀ s e t, I s → step s e t → Q s → p (s, e) = false) : tr.countP p ≤ 1 := by
  have key : I t ∧ tr.countP p ≤ 1 ∧ (tr.countP p ≠ 0 → Q t) := by
    refine h.invariant_trace (I := fun tr t ↦ I t ∧ tr.countP p ≤ 1 ∧ (tr.countP p ≠ 0 → Q t)) ?_
      ⟨hs, by simp, by simp⟩
    rintro tr t e u ⟨hi, hle, hq⟩ hst
    refine ⟨hI _ _ _ hi hst, ?_⟩
    rw [List.countP_append, List.countP_singleton]
    by_cases hp : p (t, e) = true
    · have h0 : tr.countP p = 0 := by
        by_contra hne
        rw [hnever _ _ _ hi hst (hq hne)] at hp
        cases hp
      rw [h0, if_pos hp]
      exact ⟨Nat.le_refl _, fun _ ↦ hafter _ _ _ hi hst hp⟩
    · rw [if_neg hp, Nat.add_zero]
      exact ⟨hle, fun hne ↦ hstays _ _ _ hi hst (hq hne)⟩
  exact key.2.1

end Once

section Deterministic

/-! A system whose events have one outcome runs through any list of enabled events. -/

variable (ok : σ → ε → Prop) (next : σ → ε → σ)

/-- Each event is enabled where the ones before it led. -/
def Enabled (s : σ) : List ε → Prop
  | [] => True
  | e :: es => ok s e ∧ Enabled (next s e) es

instance Enabled.decidable [∀ s e, Decidable (ok s e)] :
    ∀ (s : σ) (es : List ε), Decidable (Enabled ok next s es)
  | _, [] => inferInstanceAs (Decidable True)
  | s, e :: es =>
      have := decidable (next s e) es
      inferInstanceAs (Decidable (ok s e ∧ Enabled ok next (next s e) es))

/-- The trace of a list of events. -/
def traceOf (s : σ) : List ε → List (σ × ε)
  | [] => []
  | e :: es => (s, e) :: traceOf (next s e) es

variable {ok next}

theorem Run.of_enabled (step : σ → ε → σ → Prop) (h : ∀ s e, ok s e → step s e (next s e)) :
    ∀ (es : List ε) {s : σ}, Enabled ok next s es → Run step s (traceOf next s es) (es.foldl next s)
  | [], _, _ => .nil
  | _ :: es, _, ⟨he, hes⟩ => .cons (h _ _ he) (Run.of_enabled step h es hes)

theorem mem_traceOf : ∀ {es : List ε} {k : ℕ} (hk : k < es.length) (s : σ),
    ((es.take k).foldl next s, es[k]) ∈ traceOf next s es
  | _ :: _, 0, _, _ => List.mem_cons_self
  | e :: _, _ + 1, hk, s =>
      List.mem_cons_of_mem _ (mem_traceOf (Nat.lt_of_succ_lt_succ hk) (next s e))

/-- The state after an event that can happen. -/
def nextD (next : σ → ε → Option σ) (s : σ) (e : ε) : σ := (next s e).getD s

theorem nextD_eq {next : σ → ε → Option σ} {s : σ} {e : ε} (h : (next s e).isSome) :
    next s e = some (nextD next s e) := by
  obtain ⟨t, ht⟩ := Option.isSome_iff_exists.mp h
  rw [nextD, ht, Option.getD_some]

end Deterministic

/-- The states some run leads to. -/
def Reachable (step : σ → ε → σ → Prop) (s t : σ) : Prop := ∃ tr, Run step s tr t

namespace Reachable

variable {step : σ → ε → σ → Prop} {s t u : σ}

theorem refl : Reachable step s s := ⟨[], .nil⟩

theorem tail {e : ε} (h : Reachable step s t) (he : step t e u) : Reachable step s u :=
  let ⟨_, hr⟩ := h; ⟨_, hr.snoc he⟩

/-- An invariant of every step holds in every reachable state. -/
theorem invariant {I : σ → Prop} (h : Reachable step s t)
    (hstep : ∀ s e t, I s → step s e t → I t) (hs : I s) : I t := by
  obtain ⟨_, h⟩ := h
  exact h.invariant hstep hs

end Reachable

section Through

/-! The states a run goes through, each of which leads to the ones after it. -/

variable {step : σ → ε → σ → Prop} {s t u v : σ} {tr : List (σ × ε)}

theorem Run.reachable_of_mem (h : Run step s tr t) {x : σ × ε} (hx : x ∈ tr) :
    Reachable step x.1 t := by
  obtain ⟨tr₁, tr₂, rfl⟩ := List.append_of_mem hx
  obtain ⟨-, t', hst, h₂⟩ := h.step_of_split
  exact ⟨_, .cons hst h₂⟩

theorem Run.pairwise_reachable (h : Run step s tr t) :
    tr.Pairwise fun x y ↦ Reachable step x.1 y.1 := by
  induction h with
  | nil => exact .nil
  | snoc h _ ih =>
    refine List.pairwise_append.mpr ⟨ih, List.pairwise_singleton _ _, fun x hx y hy ↦ ?_⟩
    rw [List.mem_singleton.mp hy]
    exact h.reachable_of_mem hx

/-- Of two states a run goes through, one leads to the other. -/
theorem Run.reachable_or_reachable (h : Run step s tr t) (hu : u = t ∨ ∃ x ∈ tr, x.1 = u)
    (hv : v = t ∨ ∃ x ∈ tr, x.1 = v) : Reachable step u v ∨ Reachable step v u := by
  rcases hu with rfl | ⟨x, hx, rfl⟩ <;> rcases hv with rfl | ⟨y, hy, rfl⟩
  · exact Or.inl .refl
  · exact Or.inr (h.reachable_of_mem hy)
  · exact Or.inl (h.reachable_of_mem hx)
  · obtain ⟨i, hi, rfl⟩ := List.getElem_of_mem hx
    obtain ⟨j, hj, rfl⟩ := List.getElem_of_mem hy
    have hpw := List.pairwise_iff_getElem.mp h.pairwise_reachable
    rcases lt_trichotomy i j with hij | rfl | hij
    · exact Or.inl (hpw i j hi hj hij)
    · exact Or.inl .refl
    · exact Or.inr (hpw j i hj hi hij)

end Through

end Rcab
