import Mathlib.Logic.Function.Basic
import Mathlib.Logic.Relation
import Mathlib.Data.Set.Basic

/-!
# Offering jobs to exclusive workers

An abstract market.  Each *job* goes through at most one life: it is not yet
offerable (`closed`), then offerable under a generation number (`window g`, possibly
several windows one after another), then held by one *worker*, then `over`.  A worker
holds at most one job, recorded in `guard`, and has at most one live offer.  An offer
names a job, the generation of the window it was made in, and the worker it was made
to; accepting it is one of the two ways a job comes to be held.

`Step` lists what may happen.  The invariants are

* `Exclusive`: a worker's guard and the job's phase name each other, so no worker holds
  two jobs and no job two workers;
* `Fresh`: a live offer is for the job's current window, and offers are unique per
  worker and per window and worker;
* `Single`: a job has at most one accepted offer ever, and while it is held the guard
  names that offer.

`Lax` says which irregular steps are allowed.  `Exclusive` survives both kinds; `Fresh`
needs `shift` excluded and `Single` needs `foreign` excluded.
-/

universe u v w

set_option linter.unusedSectionVars false

namespace Rcab.Market

variable {J : Type u} {W : Type v} {O : Type w}

/-- Where a job is in its life. -/
inductive Phase (W : Type v) where
  /-- Not offerable yet. -/
  | closed
  /-- Offerable, under this generation. -/
  | window (gen : ℕ)
  /-- Held by a worker. -/
  | held (by_ : W)
  /-- Finished, cancelled or given up. -/
  | over

inductive OfferState where
  | live | accepted | dead
deriving DecidableEq

/-- An offer of a job's window to a worker. -/
structure Offer (J : Type u) (W : Type v) where
  job : J
  worker : W
  gen : ℕ
  state : OfferState

/-- What a worker's guard records of the job it holds. -/
structure Binding (J : Type u) (O : Type w) where
  job : J
  /-- The accepted offer, if the job came by one. -/
  offer : Option O
  gen : ℕ

structure State (J : Type u) (W : Type v) (O : Type w) where
  phase : J → Phase W
  guard : W → Option (Binding J O)
  offer : O → Option (Offer J W)

/-- The irregular steps that are allowed. -/
structure Lax where
  /-- A window's generation moves under its live offers. -/
  shift : Prop
  /-- An offer is accepted for a job it does not name. -/
  foreign : Prop

/-- Neither. -/
def Lax.none : Lax := ⟨False, False⟩

/-- States are compared pointwise. -/
theorem State.ext_apply {s t : State J W O} (hp : ∀ j, s.phase j = t.phase j)
    (hg : ∀ w, s.guard w = t.guard w) (ho : ∀ o, s.offer o = t.offer o) : s = t := by
  cases s
  cases t
  simp only [State.mk.injEq]
  exact ⟨funext hp, funext hg, funext ho⟩

/-- A live offer is withdrawn; a decided one stays. -/
def Offer.kill (v : Offer J W) : Offer J W :=
  if v.state = .live then { v with state := .dead } else v

namespace Offer

variable {v : Offer J W}

@[simp] theorem kill_job : v.kill.job = v.job := by unfold kill; split <;> rfl

@[simp] theorem kill_worker : v.kill.worker = v.worker := by unfold kill; split <;> rfl

@[simp] theorem kill_gen : v.kill.gen = v.gen := by unfold kill; split <;> rfl

theorem kill_of_live (h : v.state = .live) : v.kill = { v with state := .dead } := if_pos h

theorem kill_of_not_live (h : v.state ≠ .live) : v.kill = v := if_neg h

end Offer

namespace State

section Update

variable [DecidableEq J] [DecidableEq W] [DecidableEq O]

def setPhase (s : State J W O) (j : J) (φ : Phase W) : State J W O :=
  { s with phase := Function.update s.phase j φ }

def setGuard (s : State J W O) (w : W) (b : Option (Binding J O)) : State J W O :=
  { s with guard := Function.update s.guard w b }

def setOffer (s : State J W O) (o : O) (v : Offer J W) : State J W O :=
  { s with offer := Function.update s.offer o (some v) }

end Update

open Classical in
/-- The live offers among `p` are withdrawn. -/
noncomputable def settle (s : State J W O) (p : Set O) : State J W O :=
  { s with offer := fun o ↦ if o ∈ p then (s.offer o).map Offer.kill else s.offer o }

/-- The offers naming a job. -/
def on (s : State J W O) (j : J) : Set O := {o | ∃ v, s.offer o = some v ∧ v.job = j}

/-- `o` is an offer in state `st`. -/
def OfferIs (s : State J W O) (o : O) (st : OfferState) (v : Offer J W) : Prop :=
  s.offer o = some v ∧ v.state = st

/-- An offer is in one state. -/
theorem OfferIs.state_eq {s : State J W O} {o : O} {st st' : OfferState} {v v' : Offer J W}
    (h : s.OfferIs o st v) (h' : s.OfferIs o st' v') : st = st' := by
  obtain rfl : v = v' := Option.some.inj (h.1.symm.trans h'.1)
  exact h.2.symm.trans h'.2

section Settle

variable {s : State J W O} {p : Set O} {o : O} {v : Offer J W}

@[simp] theorem settle_phase : (s.settle p).phase = s.phase := rfl

@[simp] theorem settle_guard : (s.settle p).guard = s.guard := rfl

theorem settle_offer_of_mem (h : o ∈ p) : (s.settle p).offer o = (s.offer o).map Offer.kill :=
  if_pos h

theorem settle_offer_of_notMem (h : o ∉ p) : (s.settle p).offer o = s.offer o := if_neg h

/-- Only the live offers among the settled ones matter. -/
theorem settle_congr {q : Set O}
    (h : ∀ o v, s.offer o = some v → v.state = .live → (o ∈ p ↔ o ∈ q)) :
    s.settle p = s.settle q := by
  refine State.ext_apply (fun _ ↦ rfl) (fun _ ↦ rfl) fun o ↦ ?_
  have kill_id : ∀ v, s.offer o = some v → v.state ≠ .live → ∀ q' : Set O,
      (s.settle q').offer o = s.offer o := by
    intro v hv hl q'
    by_cases ho : o ∈ q'
    · rw [settle_offer_of_mem ho, hv, Option.map_some, Offer.kill_of_not_live hl]
    · exact settle_offer_of_notMem ho
  cases hv : s.offer o with
  | none =>
      by_cases hp : o ∈ p <;> by_cases hq : o ∈ q <;>
        simp [settle_offer_of_mem, settle_offer_of_notMem, hp, hq, hv]
  | some v =>
      by_cases hl : v.state = .live
      · have := h o v hv hl
        by_cases hp : o ∈ p
        · rw [settle_offer_of_mem hp, settle_offer_of_mem (this.mp hp)]
        · rw [settle_offer_of_notMem hp, settle_offer_of_notMem (mt this.mpr hp)]
      · rw [kill_id v hv hl, kill_id v hv hl]

/-- Settling leaves every offer its job, worker and generation. -/
theorem of_settle_offer (h : (s.settle p).offer o = some v) :
    ∃ v₀, s.offer o = some v₀ ∧ (v = v₀ ∨ v = v₀.kill) := by
  by_cases ho : o ∈ p
  · rw [settle_offer_of_mem ho, Option.map_eq_some_iff] at h
    obtain ⟨v₀, hv₀, rfl⟩ := h
    exact ⟨v₀, hv₀, Or.inr rfl⟩
  · rw [settle_offer_of_notMem ho] at h
    exact ⟨v, h, Or.inl rfl⟩

/-- The live offers that are left. -/
theorem offerIs_live_settle : (s.settle p).OfferIs o .live v ↔ s.OfferIs o .live v ∧ o ∉ p := by
  constructor
  · rintro ⟨h, hv⟩
    by_cases ho : o ∈ p
    · rw [settle_offer_of_mem ho, Option.map_eq_some_iff] at h
      obtain ⟨v₀, -, rfl⟩ := h
      by_cases hl : v₀.state = .live
      · rw [Offer.kill_of_live hl] at hv
        cases hv
      · rw [Offer.kill_of_not_live hl] at hv
        exact absurd hv hl
    · exact ⟨⟨settle_offer_of_notMem ho ▸ h, hv⟩, ho⟩
  · rintro ⟨⟨h, hv⟩, ho⟩
    exact ⟨(settle_offer_of_notMem ho).trans h, hv⟩

/-- Accepted offers are not touched. -/
theorem offerIs_accepted_settle :
    (s.settle p).OfferIs o .accepted v ↔ s.OfferIs o .accepted v := by
  constructor
  · rintro ⟨h, hv⟩
    obtain ⟨v₀, h₀, rfl | rfl⟩ := of_settle_offer h
    · exact ⟨h₀, hv⟩
    · by_cases hl : v₀.state = .live
      · rw [Offer.kill_of_live hl] at hv
        cases hv
      · rw [Offer.kill_of_not_live hl] at hv ⊢
        exact ⟨h₀, hv⟩
  · rintro ⟨h, hv⟩
    refine ⟨?_, hv⟩
    by_cases ho : o ∈ p
    · rw [settle_offer_of_mem ho, h, Option.map_some, Offer.kill_of_not_live (by simp [hv])]
    · rw [settle_offer_of_notMem ho, h]

end Settle

section Lookup

variable [DecidableEq J] [DecidableEq W] [DecidableEq O]
variable {s : State J W O} {j : J} {φ : Phase W} {w : W} {b : Option (Binding J O)}
  {o o' : O} {v v' : Offer J W} {st : OfferState}

@[simp] theorem setPhase_guard : (s.setPhase j φ).guard = s.guard := rfl
@[simp] theorem setPhase_offer : (s.setPhase j φ).offer = s.offer := rfl
@[simp] theorem setGuard_phase : (s.setGuard w b).phase = s.phase := rfl
@[simp] theorem setGuard_offer : (s.setGuard w b).offer = s.offer := rfl
@[simp] theorem setOffer_phase : (s.setOffer o v).phase = s.phase := rfl
@[simp] theorem setOffer_guard : (s.setOffer o v).guard = s.guard := rfl
@[simp] theorem setPhase_phase : (s.setPhase j φ).phase = Function.update s.phase j φ := rfl
@[simp] theorem setGuard_guard : (s.setGuard w b).guard = Function.update s.guard w b := rfl
@[simp] theorem setOffer_offer : (s.setOffer o v).offer = Function.update s.offer o (some v) := rfl

/-- Setting a job's phase to what it is changes nothing. -/
theorem setPhase_self (h : s.phase j = φ) : s.setPhase j φ = s := by
  refine State.ext_apply (fun _ ↦ ?_) (fun _ ↦ rfl) fun _ ↦ rfl
  subst h
  simp

@[simp] theorem offerIs_setPhase : (s.setPhase j φ).OfferIs o st v ↔ s.OfferIs o st v := Iff.rfl

@[simp] theorem offerIs_setGuard : (s.setGuard w b).OfferIs o st v ↔ s.OfferIs o st v := Iff.rfl

theorem offerIs_setOffer : (s.setOffer o v).OfferIs o' st v' ↔
    o' = o ∧ v' = v ∧ v.state = st ∨ o' ≠ o ∧ s.OfferIs o' st v' := by
  unfold OfferIs
  by_cases h : o' = o
  · subst h
    simp only [setOffer_offer, Function.update_self, Option.some.injEq, true_and, ne_eq,
      not_true_eq_false, false_and, or_false]
    constructor
    · rintro ⟨rfl, h⟩
      exact ⟨rfl, h⟩
    · rintro ⟨rfl, h⟩
      exact ⟨rfl, h⟩
  · simp [h]

end Lookup

end State

open State
open Relation (ReflTransGen)

variable [DecidableEq J] [DecidableEq W] [DecidableEq O]

/-- What may happen in the market. -/
inductive Step (lax : Lax) (s : State J W O) : State J W O → Prop
  /-- Offers are declined, expire or are revoked. -/
  | settle (p : Set O) : Step lax s (s.settle p)
  /-- A first window. -/
  | openWindow (j : J) (g : ℕ) (hj : s.phase j = .closed) : Step lax s (s.setPhase j (.window g))
  /-- A generation without offers yet is replaced. -/
  | wake (j : J) (g₀ g : ℕ) (hj : s.phase j = .window g₀) (hg : lax.shift ∨ g₀ = 0 ∨ g₀ = g) :
      Step lax s (s.setPhase j (.window g))
  /-- A window ends without a worker and the next one opens. -/
  | reopen (j : J) (g₀ g : ℕ) (hj : s.phase j = .window g₀) :
      Step lax s ((s.settle (s.on j)).setPhase j (.window g))
  /-- An offer is made. -/
  | make (o : O) (j : J) (w : W) (g : ℕ) (hj : s.phase j = .window g) (hg : 1 ≤ g)
      (ho : s.offer o = none) (hw : ∀ o' v, s.OfferIs o' .live v → v.worker ≠ w)
      (hu : ∀ o' v, s.offer o' = some v → ¬ (v.job = j ∧ v.gen = g ∧ v.worker = w)) :
      Step lax s (s.setOffer o ⟨j, w, g, .live⟩)
  /-- A job is assigned without an offer. -/
  | assign (j : J) (w : W) (g₀ g : ℕ) (hj : s.phase j = .window g₀) (hw : s.guard w = none) :
      Step lax s (((s.settle (s.on j)).setPhase j (.held w)).setGuard w (some ⟨j, none, g⟩))
  /-- A live offer of the current window is accepted; the job's other offers are revoked. -/
  | accept (o : O) (v : Offer J W) (j : J) (ho : s.OfferIs o .live v)
      (hv : lax.foreign ∨ v.job = j) (hj : s.phase j = .window v.gen)
      (hw : s.guard v.worker = none) :
      Step lax s ((((s.setOffer o { v with state := .accepted }).settle (s.on j)).setPhase j
        (.held v.worker)).setGuard v.worker (some ⟨j, some o, v.gen⟩))
  /-- The holder is done, or gives the job up. -/
  | finish (j : J) (w : W) (b : Binding J O) (hj : s.phase j = .held w)
      (hw : s.guard w = some b) (hb : b.job = j) :
      Step lax s ((s.setPhase j .over).setGuard w none)
  /-- A window is given up. -/
  | close (j : J) (g : ℕ) (hj : s.phase j = .window g) :
      Step lax s ((s.settle (s.on j)).setPhase j .over)
  /-- A job is given up before it was ever offerable. -/
  | retire (j : J) (hj : s.phase j = .closed) : Step lax s (s.setPhase j .over)

/-! ## The invariants -/

/-- Guard and phase name each other. -/
structure Exclusive (s : State J W O) : Prop where
  held_of_guard : ∀ w b, s.guard w = some b → s.phase b.job = .held w
  guard_of_held : ∀ j w, s.phase j = .held w → ∃ b, s.guard w = some b ∧ b.job = j

/-- Live offers are current, and offers unique. -/
structure Fresh (s : State J W O) : Prop where
  current : ∀ o v, s.OfferIs o .live v → s.phase v.job = .window v.gen
  one_live : ∀ o o' v v', s.OfferIs o .live v → s.OfferIs o' .live v' → v.worker = v'.worker →
    o = o'
  unique : ∀ o o' v v', s.offer o = some v → s.offer o' = some v' → v.job = v'.job →
    v.gen = v'.gen → v.worker = v'.worker → o = o'
  gen_pos : ∀ o v, s.offer o = some v → 1 ≤ v.gen

/-- An accepted offer is its job's only one, and the guard of its holder names it. -/
structure Single (s : State J W O) : Prop where
  settled : ∀ o v, s.OfferIs o .accepted v → s.phase v.job = .over ∨
    s.phase v.job = .held v.worker ∧ s.guard v.worker = some ⟨v.job, some o, v.gen⟩
  unique : ∀ o o' v v', s.OfferIs o .accepted v → s.OfferIs o' .accepted v' → v.job = v'.job →
    o = o'

/-- A guard's offer was accepted, and generations count from 1. -/
structure Named (s : State J W O) : Prop where
  accepted : ∀ w b o, s.guard w = some b → b.offer = some o → ∃ v, s.OfferIs o .accepted v
  gen_pos : ∀ o v, s.offer o = some v → 1 ≤ v.gen

/-- A guard's offer was its holder's, for the job it holds. -/
def Owned (s : State J W O) : Prop :=
  ∀ w b o, s.guard w = some b → b.offer = some o →
    ∃ v, s.offer o = some v ∧ v.job = b.job ∧ v.worker = w

/-! ## Preservation -/

section Preservation

variable {lax : Lax} {s t : State J W O}

/-- The invariants at the start: no job has been opened, nothing offered. -/
theorem Exclusive.of_closed (hp : ∀ j, s.phase j = .closed) (hg : ∀ w, s.guard w = none) :
    Exclusive s where
  held_of_guard w b h := by simp [hg] at h
  guard_of_held j w h := by simp [hp] at h

theorem Fresh.of_empty (ho : ∀ o, s.offer o = none) : Fresh s where
  current o v h := by simp [OfferIs, ho] at h
  one_live o o' v v' h := by simp [OfferIs, ho] at h
  unique o o' v v' h := by simp [ho] at h
  gen_pos o v h := by simp [ho] at h

theorem Single.of_empty (ho : ∀ o, s.offer o = none) : Single s where
  settled o v h := by simp [OfferIs, ho] at h
  unique o o' v v' h := by simp [OfferIs, ho] at h

/-- A job that is not held, and does not become held, can change its phase. -/
theorem Exclusive.setPhase {j : J} {φ : Phase W} (h : Exclusive s)
    (hj : ∀ w, s.phase j ≠ .held w) (hφ : ∀ w, φ ≠ .held w) : Exclusive (s.setPhase j φ) where
  held_of_guard w b hb := by
    have hw := h.held_of_guard w b hb
    have : b.job ≠ j := fun e ↦ hj w (e ▸ hw)
    simpa [this] using hw
  guard_of_held j' w hw := by
    by_cases e : j' = j
    · subst e
      simp only [setPhase_phase, Function.update_self] at hw
      exact absurd hw (hφ w)
    · simp only [setPhase_phase, Function.update_of_ne e] at hw
      exact h.guard_of_held j' w hw

/-- A free job goes to a free worker. -/
theorem Exclusive.bind {j : J} {w : W} {g : Option O} {n : ℕ} (h : Exclusive s)
    (hj : ∀ w, s.phase j ≠ .held w) (hw : s.guard w = none) :
    Exclusive ((s.setPhase j (.held w)).setGuard w (some ⟨j, g, n⟩)) where
  held_of_guard w' b hb := by
    by_cases e : w' = w
    · subst e
      simp only [setGuard_guard, Function.update_self, Option.some.injEq] at hb
      subst hb
      simp
    · simp only [setGuard_guard, setPhase_guard, Function.update_of_ne e] at hb
      have hw' := h.held_of_guard w' b hb
      have : b.job ≠ j := fun e ↦ hj w' (e ▸ hw')
      simpa [this] using hw'
  guard_of_held j' w' hw' := by
    by_cases e : j' = j
    · subst e
      simp only [setGuard_phase, setPhase_phase, Function.update_self, Phase.held.injEq] at hw'
      subst hw'
      exact ⟨_, Function.update_self .., rfl⟩
    · simp only [setGuard_phase, setPhase_phase, Function.update_of_ne e] at hw'
      obtain ⟨b, hb, hbj⟩ := h.guard_of_held j' w' hw'
      have : w' ≠ w := by
        rintro rfl
        simp [hw] at hb
      exact ⟨b, by simpa [this] using hb, hbj⟩

theorem Exclusive.settle {p : Set O} (h : Exclusive s) : Exclusive (s.settle p) :=
  ⟨h.held_of_guard, h.guard_of_held⟩

/-- **Exclusivity** survives every step, the irregular ones included. -/
theorem Exclusive.step (h : Exclusive s) (hst : Step lax s t) : Exclusive t := by
  cases hst with
  | settle p => exact h.settle
  | openWindow j g hj => exact h.setPhase (by simp [hj]) (by simp)
  | wake j g₀ g hj hg => exact h.setPhase (by simp [hj]) (by simp)
  | reopen j g₀ g hj => exact h.settle.setPhase (by simp [hj]) (by simp)
  | make o j w g hj hg ho hw hu => exact ⟨h.held_of_guard, h.guard_of_held⟩
  | assign j w g₀ g hj hw => exact h.settle.bind (by simp [hj]) hw
  | accept o v j ho hv hj hw =>
      have : Exclusive (s.setOffer o { v with state := .accepted }) :=
        ⟨h.held_of_guard, h.guard_of_held⟩
      exact this.settle.bind (by simp [hj]) hw
  | finish j w b hj hw hb =>
      constructor
      · intro w' b' hb'
        have e : w' ≠ w := by
          rintro rfl
          simp at hb'
        simp only [setGuard_guard, setPhase_guard, Function.update_of_ne e] at hb'
        have hw' := h.held_of_guard w' b' hb'
        have : b'.job ≠ j := by
          rintro rfl
          rw [hj] at hw'
          exact e (by injection hw' with hw'; exact hw'.symm)
        simpa [this] using hw'
      · intro j' w' hw'
        have e : j' ≠ j := by
          rintro rfl
          simp at hw'
        simp only [setGuard_phase, setPhase_phase, Function.update_of_ne e] at hw'
        obtain ⟨b', hb', hbj⟩ := h.guard_of_held j' w' hw'
        have : w' ≠ w := by
          rintro rfl
          rw [hw] at hb'
          cases hb'
          exact e (hbj.symm.trans hb)
        exact ⟨b', by simpa [this] using hb', hbj⟩
  | close j g hj => exact h.settle.setPhase (by simp [hj]) (by simp)
  | retire j hj => exact h.setPhase (by simp [hj]) (by simp)

theorem Exclusive.steps (h : Exclusive s) (hst : ReflTransGen (Step lax) s t) : Exclusive t := by
  induction hst with
  | refl => exact h
  | tail _ hst ih => exact ih.step hst

/-- A job's phase can change when none of its offers is live, or when its window keeps its
generation. -/
theorem Fresh.setPhase {j : J} {φ : Phase W} (h : Fresh s)
    (hj : ∀ o v, s.OfferIs o .live v → v.job = j → φ = .window v.gen) :
    Fresh (s.setPhase j φ) where
  current o v hv := by
    have hv' : s.OfferIs o .live v := hv
    by_cases e : v.job = j
    · simp [e, hj o v hv' e]
    · simpa [e] using h.current o v hv'
  one_live := h.one_live
  unique := h.unique
  gen_pos := h.gen_pos

theorem Fresh.settle {p : Set O} (h : Fresh s) : Fresh (s.settle p) where
  current o v hv := h.current o v (offerIs_live_settle.mp hv).1
  one_live o o' v v' hv hv' hw :=
    h.one_live o o' v v' (offerIs_live_settle.mp hv).1 (offerIs_live_settle.mp hv').1 hw
  unique o o' v v' hv hv' hj hg hw := by
    obtain ⟨v₀, h₀, e⟩ := of_settle_offer hv
    obtain ⟨v₁, h₁, e'⟩ := of_settle_offer hv'
    rcases e with rfl | rfl <;> rcases e' with rfl | rfl <;>
      exact h.unique o o' _ _ h₀ h₁ (by simpa using hj) (by simpa using hg) (by simpa using hw)
  gen_pos o v hv := by
    obtain ⟨v₀, h₀, rfl | rfl⟩ := of_settle_offer hv
    · exact h.gen_pos o _ h₀
    · simpa using h.gen_pos o _ h₀

/-- The job whose offers are all withdrawn can change its phase. -/
theorem Fresh.settle_on {j : J} {φ : Phase W} (h : Fresh s) :
    Fresh ((s.settle (s.on j)).setPhase j φ) := by
  refine h.settle.setPhase fun o v hv hvj ↦ ?_
  obtain ⟨hv, ho⟩ := offerIs_live_settle.mp hv
  exact absurd ⟨v, hv.1, hvj⟩ ho

theorem Fresh.setGuard {w : W} {b : Option (Binding J O)} (h : Fresh s) :
    Fresh (s.setGuard w b) :=
  ⟨h.current, h.one_live, h.unique, h.gen_pos⟩

/-- A live offer of the current window is decided. -/
theorem Fresh.decide {o : O} {v : Offer J W} {st : OfferState} (h : Fresh s)
    (ho : s.OfferIs o .live v) (hst : st ≠ .live) :
    Fresh (s.setOffer o { v with state := st }) := by
  have back : ∀ o' v', (s.setOffer o { v with state := st }).OfferIs o' .live v' →
      s.OfferIs o' .live v' := by
    intro o' v' hv'
    rcases offerIs_setOffer.mp hv' with ⟨-, -, hl⟩ | ⟨-, hv'⟩
    · exact absurd hl hst
    · exact hv'
  have same : ∀ o' v', (s.setOffer o { v with state := st }).offer o' = some v' →
      ∃ v₀, s.offer o' = some v₀ ∧ v₀.job = v'.job ∧ v₀.gen = v'.gen ∧
        v₀.worker = v'.worker := by
    intro o' v' hv'
    by_cases e : o' = o
    · subst e
      simp only [setOffer_offer, Function.update_self, Option.some.injEq] at hv'
      subst hv'
      exact ⟨v, ho.1, rfl, rfl, rfl⟩
    · simp only [setOffer_offer, Function.update_of_ne e] at hv'
      exact ⟨v', hv', rfl, rfl, rfl⟩
  constructor
  · intro o' v' hv'
    exact h.current o' v' (back o' v' hv')
  · intro o₁ o₂ v₁ v₂ h₁ h₂
    exact h.one_live o₁ o₂ v₁ v₂ (back _ _ h₁) (back _ _ h₂)
  · intro o₁ o₂ v₁ v₂ h₁ h₂ hj hg hw
    obtain ⟨u₁, k₁, j₁, g₁, w₁⟩ := same _ _ h₁
    obtain ⟨u₂, k₂, j₂, g₂, w₂⟩ := same _ _ h₂
    exact h.unique o₁ o₂ u₁ u₂ k₁ k₂ (by rw [j₁, j₂, hj]) (by rw [g₁, g₂, hg])
      (by rw [w₁, w₂, hw])
  · intro o' v' hv'
    obtain ⟨u, k, -, g, -⟩ := same _ _ hv'
    exact g ▸ h.gen_pos o' u k

/-- **Freshness** survives every step but a shift of a window under its live offers. -/
theorem Fresh.step (h : Fresh s) (hst : Step lax s t) (hlax : ¬ lax.shift) : Fresh t := by
  cases hst with
  | settle p => exact h.settle
  | openWindow j g hj =>
      refine h.setPhase fun o v hv hvj ↦ ?_
      have := h.current o v hv
      simp [hvj, hj] at this
  | wake j g₀ g hj hg =>
      refine h.setPhase fun o v hv hvj ↦ ?_
      have hcur := h.current o v hv
      rw [hvj, hj, Phase.window.injEq] at hcur
      rcases hg with hg | rfl | rfl
      · exact absurd hg hlax
      · exact absurd (h.gen_pos o v hv.1) (by omega)
      · rw [hcur]
  | reopen j g₀ g hj => exact h.settle_on
  | make o j w g hj hg ho hw hu =>
      have live : ∀ o' v', (s.setOffer o ⟨j, w, g, .live⟩).OfferIs o' .live v' →
          o' = o ∧ v' = ⟨j, w, g, .live⟩ ∨ o' ≠ o ∧ s.OfferIs o' .live v' := by
        intro o' v' hv'
        rcases offerIs_setOffer.mp hv' with ⟨rfl, rfl, -⟩ | hv'
        · exact Or.inl ⟨rfl, rfl⟩
        · exact Or.inr hv'
      have any : ∀ o' v', (s.setOffer o ⟨j, w, g, .live⟩).offer o' = some v' →
          o' = o ∧ v' = ⟨j, w, g, .live⟩ ∨ o' ≠ o ∧ s.offer o' = some v' := by
        intro o' v' hv'
        by_cases e : o' = o
        · subst e
          simp only [setOffer_offer, Function.update_self, Option.some.injEq] at hv'
          exact Or.inl ⟨rfl, hv'.symm⟩
        · simp only [setOffer_offer, Function.update_of_ne e] at hv'
          exact Or.inr ⟨e, hv'⟩
      constructor
      · intro o' v' hv'
        rcases live o' v' hv' with ⟨-, rfl⟩ | ⟨-, hv'⟩
        · exact hj
        · exact h.current o' v' hv'
      · intro o₁ o₂ v₁ v₂ h₁ h₂ hww
        rcases live _ _ h₁ with ⟨rfl, rfl⟩ | ⟨-, k₁⟩ <;>
          rcases live _ _ h₂ with ⟨rfl, rfl⟩ | ⟨-, k₂⟩
        · rfl
        · exact absurd hww.symm (hw _ _ k₂)
        · exact absurd hww (hw _ _ k₁)
        · exact h.one_live _ _ _ _ k₁ k₂ hww
      · intro o₁ o₂ v₁ v₂ h₁ h₂ hjj hgg hww
        rcases any _ _ h₁ with ⟨rfl, rfl⟩ | ⟨-, k₁⟩ <;>
          rcases any _ _ h₂ with ⟨rfl, rfl⟩ | ⟨-, k₂⟩
        · rfl
        · exact absurd ⟨hjj.symm, hgg.symm, hww.symm⟩ (hu _ _ k₂)
        · exact absurd ⟨hjj, hgg, hww⟩ (hu _ _ k₁)
        · exact h.unique _ _ _ _ k₁ k₂ hjj hgg hww
      · intro o' v' hv'
        rcases any o' v' hv' with ⟨-, rfl⟩ | ⟨-, hv'⟩
        · exact hg
        · exact h.gen_pos o' v' hv'
  | assign j w g₀ g hj hw => exact h.settle_on.setGuard
  | accept o v j ho hv hj hw =>
      have hdec : Fresh (s.setOffer o { v with state := .accepted }) := h.decide ho (by simp)
      refine (hdec.settle.setPhase fun o' v' hv' hvj' ↦ ?_).setGuard
      obtain ⟨hv', hon⟩ := offerIs_live_settle.mp hv'
      rcases offerIs_setOffer.mp hv' with ⟨-, -, hl⟩ | ⟨-, hv'⟩
      · cases hl
      · exact absurd ⟨v', hv'.1, hvj'⟩ hon
  | finish j w b hj hw hb =>
      refine (h.setPhase fun o v hv hvj ↦ ?_).setGuard
      have := h.current o v hv
      simp [hvj, hj] at this
  | close j g hj => exact h.settle_on
  | retire j hj =>
      refine h.setPhase fun o v hv hvj ↦ ?_
      have := h.current o v hv
      simp [hvj, hj] at this

theorem Fresh.steps (h : Fresh s) (hst : ReflTransGen (Step lax) s t) (hlax : ¬ lax.shift) :
    Fresh t := by
  induction hst with
  | refl => exact h
  | tail _ hst ih => exact ih.step hst hlax

/-- The phase of a job without an accepted offer can change. -/
theorem Single.setPhase {j : J} {φ : Phase W} (h : Single s)
    (hj : ∀ o v, s.OfferIs o .accepted v → v.job ≠ j) : Single (s.setPhase j φ) where
  settled o v hv := by
    have hv' : s.OfferIs o .accepted v := hv
    simpa [hj o v hv'] using h.settled o v hv'
  unique := h.unique

theorem Single.settle {p : Set O} (h : Single s) : Single (s.settle p) where
  settled o v hv := h.settled o v (offerIs_accepted_settle.mp hv)
  unique o o' v v' hv hv' :=
    h.unique o o' v v' (offerIs_accepted_settle.mp hv) (offerIs_accepted_settle.mp hv')

/-- The guard of a free worker can be set. -/
theorem Single.setGuard {w : W} {b : Option (Binding J O)} (h : Single s)
    (hw : s.guard w = none) : Single (s.setGuard w b) where
  settled o v hv := by
    have hv' : s.OfferIs o .accepted v := hv
    rcases h.settled o v hv' with ho | ⟨hp, hg⟩
    · exact Or.inl ho
    · have : v.worker ≠ w := by
        rintro rfl
        simp [hw] at hg
      exact Or.inr ⟨hp, by simpa [this] using hg⟩
  unique := h.unique

/-- The job of an accepted offer is neither unopened nor offerable. -/
theorem Single.ne_of_accepted {j : J} (h : Single s)
    (hj : s.phase j = .closed ∨ ∃ g, s.phase j = .window g) :
    ∀ o v, s.OfferIs o .accepted v → v.job ≠ j := by
  rintro o v hv rfl
  rcases h.settled o v hv with hp | ⟨hp, -⟩ <;> rcases hj with hj | ⟨g, hj⟩ <;> simp [hp] at hj

/-- **At most one acceptance per job**, over all its windows: it survives every step but an
acceptance for a job the offer does not name. -/
theorem Single.step (h : Single s) (hst : Step lax s t) (hlax : ¬ lax.foreign) :
    Single t := by
  cases hst with
  | settle p => exact h.settle
  | openWindow j g hj => exact h.setPhase (h.ne_of_accepted (Or.inl hj))
  | wake j g₀ g hj hg => exact h.setPhase (h.ne_of_accepted (Or.inr ⟨g₀, hj⟩))
  | reopen j g₀ g hj => exact h.settle.setPhase (h.settle.ne_of_accepted (Or.inr ⟨g₀, hj⟩))
  | make o j w g hj hg ho hw hu =>
      have back : ∀ o' v', (s.setOffer o ⟨j, w, g, .live⟩).OfferIs o' .accepted v' →
          s.OfferIs o' .accepted v' := by
        intro o' v' hv'
        rcases offerIs_setOffer.mp hv' with ⟨-, -, hl⟩ | ⟨-, hv'⟩
        · cases hl
        · exact hv'
      exact ⟨fun o' v' hv' ↦ h.settled o' v' (back o' v' hv'),
        fun o₁ o₂ v₁ v₂ h₁ h₂ ↦ h.unique o₁ o₂ v₁ v₂ (back _ _ h₁) (back _ _ h₂)⟩
  | assign j w g₀ g hj hw =>
      exact (h.settle.setPhase (h.settle.ne_of_accepted (Or.inr ⟨g₀, hj⟩))).setGuard hw
  | accept o v j ho hv hj hw =>
      obtain rfl : v.job = j := hv.resolve_left hlax
      have hne := h.ne_of_accepted (Or.inr ⟨v.gen, hj⟩)
      have key : ∀ o' v', ((((s.setOffer o { v with state := .accepted }).settle
          (s.on v.job)).setPhase v.job (.held v.worker)).setGuard v.worker
          (some ⟨v.job, some o, v.gen⟩)).OfferIs o' .accepted v' →
          o' = o ∧ v' = { v with state := .accepted } ∨ o' ≠ o ∧ s.OfferIs o' .accepted v' := by
        intro o' v' hv'
        rw [offerIs_setGuard, offerIs_setPhase, offerIs_accepted_settle, offerIs_setOffer] at hv'
        rcases hv' with ⟨rfl, rfl, -⟩ | hv'
        · exact Or.inl ⟨rfl, rfl⟩
        · exact Or.inr hv'
      constructor
      · intro o' v' hv'
        rcases key o' v' hv' with ⟨rfl, rfl⟩ | ⟨-, hv'⟩
        · exact Or.inr (by simp)
        · have hj' := hne o' v' hv'
          rcases h.settled o' v' hv' with hp | ⟨hp, hg⟩
          · exact Or.inl (by simpa [hj'] using hp)
          · have : v'.worker ≠ v.worker := by
              intro e
              simp [e, hw] at hg
            exact Or.inr ⟨by simpa [hj'] using hp, by simpa [this] using hg⟩
      · intro o₁ o₂ v₁ v₂ h₁ h₂ hjj
        rcases key _ _ h₁ with ⟨rfl, rfl⟩ | ⟨-, k₁⟩ <;>
          rcases key _ _ h₂ with ⟨rfl, rfl⟩ | ⟨-, k₂⟩
        · rfl
        · exact absurd hjj.symm (hne _ _ k₂)
        · exact absurd hjj (hne _ _ k₁)
        · exact h.unique _ _ _ _ k₁ k₂ hjj
  | finish j w b hj hw hb =>
      constructor
      · intro o v hv
        have hv' : s.OfferIs o .accepted v := hv
        rcases h.settled o v hv' with hp | ⟨hp, hg⟩
        · by_cases e : v.job = j
          · exact Or.inl (by simp [e])
          · exact Or.inl (by simpa [e] using hp)
        · by_cases e : v.job = j
          · exact Or.inl (by simp [e])
          · have : v.worker ≠ w := by
              rintro rfl
              rw [hw] at hg
              cases hg
              exact e hb
            exact Or.inr ⟨by simpa [e] using hp, by simpa [this] using hg⟩
      · exact h.unique
  | close j g hj => exact h.settle.setPhase (h.settle.ne_of_accepted (Or.inr ⟨g, hj⟩))
  | retire j hj => exact h.setPhase (h.ne_of_accepted (Or.inl hj))

theorem Single.steps (h : Single s) (hst : ReflTransGen (Step lax) s t) (hlax : ¬ lax.foreign) :
    Single t := by
  induction hst with
  | refl => exact h
  | tail _ hst ih => exact ih.step hst hlax

/-- An accepted offer stays accepted. -/
theorem State.OfferIs.step {o : O} {v : Offer J W} (h : s.OfferIs o .accepted v) (hst : Step lax s t) :
    t.OfferIs o .accepted v := by
  cases hst with
  | settle p => exact offerIs_accepted_settle.mpr h
  | openWindow j g hj => exact h
  | wake j g₀ g hj hg => exact h
  | reopen j g₀ g hj => exact offerIs_accepted_settle.mpr h
  | make o' j w g hj hg ho hw hu =>
      refine offerIs_setOffer.mpr (Or.inr ⟨?_, h⟩)
      rintro rfl
      simp [h.1] at ho
  | assign j w g₀ g hj hw => exact offerIs_accepted_settle.mpr h
  | accept o' v' j ho hv hj hw =>
      refine offerIs_accepted_settle.mpr (offerIs_setOffer.mpr (Or.inr ⟨?_, h⟩))
      rintro rfl
      cases h.state_eq ho
  | finish j w b hj hw hb => exact h
  | close j g hj => exact offerIs_accepted_settle.mpr h
  | retire j hj => exact h

theorem State.OfferIs.steps {o : O} {v : Offer J W} (h : s.OfferIs o .accepted v)
    (hst : ReflTransGen (Step lax) s t) : t.OfferIs o .accepted v := by
  induction hst with
  | refl => exact h
  | tail _ hst ih => exact ih.step hst

/-- The offer is the same one, whatever became of it. -/
structure Offer.Same (v v' : Offer J W) : Prop where
  job : v'.job = v.job
  worker : v'.worker = v.worker
  gen : v'.gen = v.gen

theorem Offer.Same.refl {v : Offer J W} : v.Same v := ⟨rfl, rfl, rfl⟩

theorem Offer.Same.trans {v v' v'' : Offer J W} (h : v.Same v') (h' : v'.Same v'') : v.Same v'' :=
  ⟨h'.job.trans h.job, h'.worker.trans h.worker, h'.gen.trans h.gen⟩

theorem State.offer_settle {o : O} {v : Offer J W} {p : Set O} (h : s.offer o = some v) :
    ∃ v', (s.settle p).offer o = some v' ∧ v.Same v' := by
  by_cases ho : o ∈ p
  · exact ⟨v.kill, by rw [settle_offer_of_mem ho, h]; rfl, by simp, by simp, by simp⟩
  · exact ⟨v, by rw [settle_offer_of_notMem ho, h], .refl⟩

/-- An offer stays the same one. -/
theorem State.offer_step {o : O} {v : Offer J W} (h : s.offer o = some v) (hst : Step lax s t) :
    ∃ v', t.offer o = some v' ∧ v.Same v' := by
  cases hst with
  | settle p => exact State.offer_settle h
  | openWindow j g hj => exact ⟨v, h, .refl⟩
  | wake j g₀ g hj hg => exact ⟨v, h, .refl⟩
  | reopen j g₀ g hj => exact State.offer_settle h
  | make o' j w g hj hg ho hw hu =>
      have hne : o ≠ o' := by
        rintro rfl
        cases ho.symm.trans h
      exact ⟨v, by simpa [hne] using h, .refl⟩
  | assign j w g₀ g hj hw => exact State.offer_settle h
  | accept o' v' j ho hv hj hw =>
      by_cases hne : o = o'
      · subst hne
        obtain rfl := Option.some.inj (h.symm.trans ho.1)
        obtain ⟨v', hv', hsame⟩ :=
          State.offer_settle (s := s.setOffer o { v with state := .accepted })
            (p := s.on j) (Function.update_self ..)
        exact ⟨v', hv', hsame.job, hsame.worker, hsame.gen⟩
      · exact State.offer_settle ((Function.update_of_ne hne ..).trans h)
  | finish j w b hj hw hb => exact ⟨v, h, .refl⟩
  | close j g hj => exact State.offer_settle h
  | retire j hj => exact ⟨v, h, .refl⟩

theorem State.offer_steps {o : O} {v : Offer J W} (h : s.offer o = some v)
    (hst : ReflTransGen (Step lax) s t) : ∃ v', t.offer o = some v' ∧ v.Same v' := by
  induction hst with
  | refl => exact ⟨v, h, .refl⟩
  | tail _ hst ih =>
      obtain ⟨v₁, h₁, hs₁⟩ := ih
      obtain ⟨v₂, h₂, hs₂⟩ := State.offer_step h₁ hst
      exact ⟨v₂, h₂, hs₁.trans hs₂⟩

/-- What is over stays over. -/
theorem State.over_step {j : J} (h : s.phase j = .over) (hst : Step lax s t) :
    t.phase j = .over := by
  have hne : ∀ {j' : J} {φ : Phase W}, s.phase j' = φ → φ ≠ .over → j ≠ j' := by
    rintro j' φ hφ hover rfl
    exact hover (hφ.symm.trans h)
  cases hst with
  | settle p => exact h
  | openWindow j' g hj => simpa [hne hj (by simp)] using h
  | wake j' g₀ g hj hg => simpa [hne hj (by simp)] using h
  | reopen j' g₀ g hj => simpa [hne hj (by simp)] using h
  | make o j' w' g hj hg ho hw hu => exact h
  | assign j' w' g₀ g hj hw => simpa [hne hj (by simp)] using h
  | accept o v j' ho hv hj hw => simpa [hne hj (by simp)] using h
  | finish j' w' b' hj hw hb => simpa [hne hj (by simp)] using h
  | close j' g hj => simpa [hne hj (by simp)] using h
  | retire j' hj => simpa [hne hj (by simp)] using h

theorem State.over_steps {j : J} (h : s.phase j = .over) (hst : ReflTransGen (Step lax) s t) :
    t.phase j = .over := by
  induction hst with
  | refl => exact h
  | tail _ hst ih => exact State.over_step ih hst

/-- The job is held under this binding, or over. -/
def State.Settled (s : State J W O) (w : W) (b : Binding J O) : Prop :=
  s.phase b.job = .over ∨ s.phase b.job = .held w ∧ s.guard w = some b

theorem State.Settled.setPhase {w : W} {b : Binding J O} {j : J} {φ : Phase W} (h : s.Settled w b)
    (hj : s.phase j = .closed ∨ ∃ g, s.phase j = .window g) : (s.setPhase j φ).Settled w b := by
  have hne : b.job ≠ j := by
    rintro rfl
    rcases h with h | ⟨h, -⟩ <;> rcases hj with hj | ⟨g, hj⟩ <;> cases h.symm.trans hj
  simpa [State.Settled, hne] using h

theorem State.Settled.setGuard {w w' : W} {b : Binding J O} {b' : Option (Binding J O)}
    (h : s.Settled w b) (hw : s.guard w' = none) : (s.setGuard w' b').Settled w b := by
  rcases h with h | ⟨h, hb⟩
  · exact Or.inl h
  · have hne : w ≠ w' := by
      rintro rfl
      cases hb.symm.trans hw
    exact Or.inr ⟨h, by simpa [hne] using hb⟩

/-- **A job that is held stays so under the same binding, until it is over.** -/
theorem State.Settled.step {w : W} {b : Binding J O} (h : s.Settled w b) (hst : Step lax s t) :
    t.Settled w b := by
  cases hst with
  | settle p => exact h
  | openWindow j g hj => exact h.setPhase (Or.inl hj)
  | wake j g₀ g hj hg => exact h.setPhase (Or.inr ⟨g₀, hj⟩)
  | reopen j g₀ g hj =>
      have hs : (s.settle (s.on j)).Settled w b := h
      exact hs.setPhase (Or.inr ⟨g₀, hj⟩)
  | make o j w' g hj hg ho hw hu => exact h
  | assign j w' g₀ g hj hw =>
      have hs : (s.settle (s.on j)).Settled w b := h
      exact (hs.setPhase (Or.inr ⟨g₀, hj⟩)).setGuard hw
  | accept o v j ho hv hj hw =>
      have hs : ((s.setOffer o { v with state := .accepted }).settle (s.on j)).Settled w b := h
      exact (hs.setPhase (Or.inr ⟨v.gen, hj⟩)).setGuard hw
  | finish j w' b' hj hw hb =>
      by_cases hbj : b.job = j
      · exact Or.inl (by simp [hbj])
      · rcases h with h | ⟨h, hg⟩
        · exact Or.inl (by simpa [hbj] using h)
        · have hne : w ≠ w' := by
            rintro rfl
            obtain rfl := Option.some.inj (hg.symm.trans hw)
            exact hbj hb
          exact Or.inr ⟨by simpa [hbj] using h, by simpa [hne] using hg⟩
  | close j g hj =>
      have hs : (s.settle (s.on j)).Settled w b := h
      exact hs.setPhase (Or.inr ⟨g, hj⟩)
  | retire j hj => exact h.setPhase (Or.inl hj)

theorem State.Settled.steps {w : W} {b : Binding J O} (h : s.Settled w b)
    (hst : ReflTransGen (Step lax) s t) : t.Settled w b := by
  induction hst with
  | refl => exact h
  | tail _ hst ih => exact ih.step hst

theorem Named.of_empty (hg : ∀ w, s.guard w = none) (ho : ∀ o, s.offer o = none) : Named s where
  accepted w b o h := by rw [hg w] at h; cases h
  gen_pos o v h := by rw [ho o] at h; cases h

/-- Settling changes no generation. -/
theorem gen_pos_settle {p : Set O} (h : ∀ o v, s.offer o = some v → 1 ≤ v.gen) :
    ∀ o v, (s.settle p).offer o = some v → 1 ≤ v.gen := by
  intro o v hv
  obtain ⟨v₀, hv₀, rfl | rfl⟩ := of_settle_offer hv
  · exact h o v hv₀
  · simpa using h o v₀ hv₀

theorem gen_pos_setOffer {o : O} {v : Offer J W} (h : ∀ o v, s.offer o = some v → 1 ≤ v.gen)
    (hv : 1 ≤ v.gen) : ∀ o' v', (s.setOffer o v).offer o' = some v' → 1 ≤ v'.gen := by
  intro o' v' hv'
  rw [setOffer_offer, Function.update_apply] at hv'
  split_ifs at hv'
  · exact Option.some.inj hv' ▸ hv
  · exact h o' v' hv'

theorem Named.step (h : Named s) (hst : Step lax s t) : Named t := by
  -- What a guard of the old state names stays accepted.
  have hold : ∀ w b o, s.guard w = some b → b.offer = some o → ∃ v, t.OfferIs o .accepted v := by
    intro w b o hg hb
    obtain ⟨v, hv⟩ := h.accepted w b o hg hb
    exact ⟨v, hv.step hst⟩
  cases hst with
  | settle p => exact ⟨hold, gen_pos_settle h.gen_pos⟩
  | openWindow j g hj => exact ⟨hold, h.gen_pos⟩
  | wake j g₀ g hj hg => exact ⟨hold, h.gen_pos⟩
  | reopen j g₀ g hj => exact ⟨hold, gen_pos_settle h.gen_pos⟩
  | make o j w g hj hg ho hw hu => exact ⟨hold, gen_pos_setOffer h.gen_pos hg⟩
  | assign j w g₀ g hj hw =>
      refine ⟨fun w' b o hg hb ↦ ?_, gen_pos_settle h.gen_pos⟩
      rw [setGuard_guard, Function.update_apply] at hg
      split_ifs at hg
      · obtain rfl := Option.some.inj hg
        cases hb
      · exact hold w' b o hg hb
  | accept o v j ho hv hj hw =>
      refine ⟨fun w' b o' hg hb ↦ ?_,
        gen_pos_settle (gen_pos_setOffer h.gen_pos (h.gen_pos o v ho.1))⟩
      rw [setGuard_guard, Function.update_apply] at hg
      split_ifs at hg
      · obtain rfl := Option.some.inj hg
        obtain rfl := Option.some.inj hb
        exact ⟨_, offerIs_accepted_settle.mpr (offerIs_setOffer.mpr (Or.inl ⟨rfl, rfl, rfl⟩))⟩
      · exact hold w' b o' hg hb
  | finish j w b hj hw hb =>
      refine ⟨fun w' b' o hg hb' ↦ ?_, h.gen_pos⟩
      rw [setGuard_guard, Function.update_apply] at hg
      split_ifs at hg
      exact hold w' b' o hg hb'
  | close j g hj => exact ⟨hold, gen_pos_settle h.gen_pos⟩
  | retire j hj => exact ⟨hold, h.gen_pos⟩

theorem Named.steps (h : Named s) (hst : ReflTransGen (Step lax) s t) : Named t := by
  induction hst with
  | refl => exact h
  | tail _ hst ih => exact ih.step hst

theorem Owned.of_empty (hg : ∀ w, s.guard w = none) : Owned s := by
  intro w b o h
  rw [hg w] at h
  cases h

/-- A guard keeps its offer, and a new one names the offer it came by. -/
theorem Owned.step (h : Owned s) (hst : Step lax s t) (hlax : ¬ lax.foreign) : Owned t := by
  -- What a guard of the old state names stays the same offer.
  have hold : ∀ w b o, s.guard w = some b → b.offer = some o →
      ∃ v, t.offer o = some v ∧ v.job = b.job ∧ v.worker = w := by
    intro w b o hg hb
    obtain ⟨v, hv, hjob, hworker⟩ := h w b o hg hb
    obtain ⟨v', hv', hsame⟩ := State.offer_step hv hst
    exact ⟨v', hv', hsame.job.trans hjob, hsame.worker.trans hworker⟩
  intro w' b o' hg hb
  cases hst with
  | assign j w g₀ g hj hw =>
      rw [setGuard_guard, Function.update_apply] at hg
      split_ifs at hg
      · obtain rfl := Option.some.inj hg
        cases hb
      · exact hold w' b o' hg hb
  | accept o v j ho hv hj hw =>
      obtain rfl : v.job = j := hv.resolve_left hlax
      rw [setGuard_guard, Function.update_apply] at hg
      split_ifs at hg with hw'
      · obtain rfl := Option.some.inj hg
        obtain rfl := Option.some.inj hb
        obtain ⟨v', hv', hsame⟩ := State.offer_settle (s := s.setOffer o { v with state := .accepted })
          (p := s.on v.job) (Function.update_self ..)
        exact ⟨v', hv', hsame.job, hsame.worker.trans hw'.symm⟩
      · exact hold w' b o' hg hb
  | finish j w b' hj hw hb' =>
      rw [setGuard_guard, Function.update_apply] at hg
      split_ifs at hg
      exact hold w' b o' hg hb
  | settle | openWindow | wake | reopen | make | close | retire => exact hold w' b o' hg hb

theorem Owned.steps (h : Owned s) (hst : ReflTransGen (Step lax) s t) (hlax : ¬ lax.foreign) :
    Owned t := by
  induction hst with
  | refl => exact h
  | tail _ hst ih => exact ih.step hst hlax

end Preservation

end Rcab.Market
