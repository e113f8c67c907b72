import Mathlib.Data.Int.Notation
import Mathlib.Logic.Function.Basic
import Mathlib.Tactic.Linarith
import Rcab.Lib.Run

/-!
# Reading through a store that forgets

Calls that look their key up in a store and, when there is nothing, ask a source and put what it
said into the store, where it expires after `ttl`.  Calls interleave between these statements, any
of which can fail, and the store can lose an entry at any time.  What a call returns the source said
for a request of the same key, in this call or less than `ttl` before the entry was read
(`returned_of_reachable`).
-/

universe u v w x

namespace Rcab.ReadThrough

/-- How requests are kept. -/
structure Scheme (R : Type u) (V : Type v) (K : Type w) (S : Type x) where
  key : R → K
  encode : V → S
  decode : S → Option V
  ttl : ℤ
  /-- An entry that cannot be read is asked for again, or the call fails. -/
  refetch : R → Bool

variable {R : Type u} {V : Type v} {K : Type w} {S : Type x}

/-- What the source said, to which call and when. -/
structure Answer (R : Type u) (V : Type v) where
  call : ℕ
  request : R
  value : V
  at_ : ℤ
deriving DecidableEq

inductive Phase (R : Type u) (V : Type v) where
  | reading | asking
  | storing (answer : Answer R V)
  /-- And when the store was read, or written. -/
  | returned (value : V) (at_ : ℤ)
  | failed
deriving DecidableEq

structure State (R : Type u) (V : Type v) (K : Type w) (S : Type x) where
  now : ℤ
  /-- Values, and when they expire. -/
  store : K → Option (S × ℤ)
  calls : ℕ → Option (R × Phase R V)
  /-- Everything the source has said. -/
  answers : List (Answer R V)
  /-- What was stored of it, and when. -/
  writes : List (Answer R V × ℤ)

inductive Event (R : Type u) (V : Type v) (K : Type w) where
  | tick (d : ℕ)
  | call (i : ℕ) (r : R)
  | get (i : ℕ) (reached : Bool)
  | ask (i : ℕ) (answer : Option V)
  /-- A write that throws may have been made. -/
  | set (i : ℕ) (done thrown : Bool)
  | lose (k : K)

section System

variable (c : Scheme R V K S) (fits : R → V → Prop)

/-- An answer is one to the request it answers. -/
def Event.Allowed (s : State R V K S) : Event R V K → Prop
  | .call i _ => s.calls i = none
  | .ask i answer => ∀ r phase v, s.calls i = some (r, phase) → answer = some v → fits r v
  | _ => True

/-- An entry that has not expired. -/
def State.lookup (s : State R V K S) (k : K) : Option S :=
  (s.store k).bind fun e ↦ if s.now < e.2 then some e.1 else none

namespace State

variable (s : State R V K S)

def setPhase (i : ℕ) (r : R) (phase : Phase R V) : State R V K S :=
  { s with calls := Function.update s.calls i (some (r, phase)) }

/-- What a call does with what it found. -/
def afterGet (r : R) : Phase R V :=
  match s.lookup (c.key r) with
  | none => .asking
  | some entry =>
      match c.decode entry with
      | some value => .returned value s.now
      | none => if c.refetch r then .asking else .failed

def next [DecidableEq K] (s : State R V K S) : Event R V K → State R V K S
  | .tick d => { s with now := s.now + d }
  | .call i r => s.setPhase i r .reading
  | .get i reached =>
      match s.calls i with
      | some (r, .reading) => s.setPhase i r (if reached then s.afterGet c r else .failed)
      | _ => s
  | .ask i answer =>
      match s.calls i with
      | some (r, .asking) =>
          match answer with
          | none => s.setPhase i r .failed
          | some value =>
              { s.setPhase i r (.storing ⟨i, r, value, s.now⟩) with
                answers := ⟨i, r, value, s.now⟩ :: s.answers }
      | _ => s
  | .set i done thrown =>
      match s.calls i with
      | some (r, .storing a) =>
          let s' := s.setPhase i r (if thrown then .failed else .returned a.value s.now)
          if done ∨ ¬ thrown then
            { s' with
              store := Function.update s.store (c.key r) (some (c.encode a.value, s.now + c.ttl))
              writes := (a, s.now) :: s.writes }
          else s'
      | _ => s
  | .lose k => { s with store := Function.update s.store k none }

/-- The system. -/
def step [DecidableEq K] (s : State R V K S) (e : Event R V K) (s' : State R V K S) : Prop :=
  e.Allowed fits s ∧ s.next c e = s'

end State

/-- Nothing stored, nobody asked. -/
structure State.Initial (s : State R V K S) : Prop where
  store : ∀ k, s.store k = none
  calls : ∀ i, s.calls i = none
  answers : s.answers = []
  writes : s.writes = []

/-- A call's own answer, or one that was stored less than `ttl` before it was read. -/
def Told (s : State R V K S) (i : ℕ) (r : R) (v : V) (t : ℤ) : Prop :=
  ∃ a ∈ s.answers, a.value = v ∧ c.key a.request = c.key r ∧ a.at_ ≤ t ∧
    (a.call = i ∧ a.request = r ∨ ∃ t₀, (a, t₀) ∈ s.writes ∧ a.at_ ≤ t₀ ∧ t₀ ≤ t ∧ t < t₀ + c.ttl)

structure Inv (s : State R V K S) : Prop where
  answers : ∀ a ∈ s.answers, fits a.request a.value ∧ a.at_ ≤ s.now
  writes : ∀ w ∈ s.writes, w.1 ∈ s.answers ∧ w.1.at_ ≤ w.2 ∧ w.2 ≤ s.now
  store : ∀ k entry exp, s.store k = some (entry, exp) → ∃ w ∈ s.writes,
    c.key w.1.request = k ∧ entry = c.encode w.1.value ∧ exp = w.2 + c.ttl
  storing : ∀ i r a, s.calls i = some (r, .storing a) → a ∈ s.answers ∧ a.call = i ∧ a.request = r
  returned : ∀ i r v t, s.calls i = some (r, .returned v t) → Told c s i r v t ∧ t ≤ s.now

variable {c fits} {s s' : State R V K S} {i : ℕ} {r : R} {v : V} {t : ℤ}

theorem Told.mono (h : Told c s i r v t) (ha : ∀ a ∈ s.answers, a ∈ s'.answers)
    (hw : ∀ w ∈ s.writes, w ∈ s'.writes) : Told c s' i r v t := by
  obtain ⟨a, hmem, hv, hk, hat, hfrom⟩ := h
  exact ⟨a, ha a hmem, hv, hk, hat, hfrom.imp id fun ⟨t₀, h₀, hle⟩ ↦ ⟨t₀, hw _ h₀, hle⟩⟩

namespace Inv

theorem initial (h : s.Initial) : Inv c fits s where
  answers := by simp [h.answers]
  writes := by simp [h.writes]
  store k := by simp [h.store]
  storing i := by simp [h.calls]
  returned i := by simp [h.calls]

/-- The call moves on, to a phase that is accounted for. -/
theorem setPhase (h : Inv c fits s) (i : ℕ) (r : R) {phase : Phase R V}
    (hs : ∀ a, phase = .storing a → a ∈ s.answers ∧ a.call = i ∧ a.request = r)
    (hr : ∀ v t, phase = .returned v t → Told c s i r v t ∧ t ≤ s.now) :
    Inv c fits (s.setPhase i r phase) where
  answers := h.answers
  writes := h.writes
  store := h.store
  storing j r' a hj := by
    simp only [State.setPhase, Function.update_apply] at hj
    split_ifs at hj with hji
    · obtain ⟨rfl, hphase⟩ := Prod.mk.inj (Option.some.inj hj)
      exact hji ▸ hs a hphase
    · exact h.storing j r' a hj
  returned j r' v t hj := by
    simp only [State.setPhase, Function.update_apply] at hj
    split_ifs at hj with hji
    · obtain ⟨rfl, hphase⟩ := Prod.mk.inj (Option.some.inj hj)
      exact hji ▸ hr v t hphase
    · exact h.returned j r' v t hj

/-- What is found in the store. -/
theorem afterGet (h : Inv c fits s) (hc : ∀ v, c.decode (c.encode v) = some v) (i : ℕ) (r : R) :
    ∀ v t, s.afterGet c r = .returned v t → Told c s i r v t ∧ t ≤ s.now := by
  intro v t hphase
  unfold State.afterGet at hphase
  cases hl : s.lookup (c.key r) with
  | none => simp [hl] at hphase
  | some entry =>
    obtain ⟨⟨entry', exp⟩, hstore, hlive⟩ := Option.bind_eq_some_iff.mp hl
    dsimp only at hlive
    split_ifs at hlive with hexp
    obtain rfl := Option.some.inj hlive
    obtain ⟨⟨a, t₀⟩, hw, hk, rfl, rfl⟩ := h.store _ _ _ hstore
    obtain ⟨ha, hat, hnow⟩ := h.writes _ hw
    simp only [hl, hc] at hphase
    obtain ⟨rfl, rfl⟩ := Phase.returned.inj hphase
    exact ⟨⟨a, ha, rfl, hk, hat.trans hnow, Or.inr ⟨t₀, hw, hat, hnow, hexp⟩⟩, le_rfl⟩

/-- The source is asked. -/
theorem ask (h : Inv c fits s) (hf : fits r v) :
    Inv c fits { s.setPhase i r (.storing ⟨i, r, v, s.now⟩) with
      answers := ⟨i, r, v, s.now⟩ :: s.answers } := by
  have hanswers : Inv c fits { s with answers := ⟨i, r, v, s.now⟩ :: s.answers } :=
    { answers := fun a ha ↦ by
        rcases List.mem_cons.mp ha with rfl | ha
        · exact ⟨hf, le_rfl⟩
        · exact h.answers a ha
      writes := fun w hw ↦ ⟨List.mem_cons_of_mem _ (h.writes w hw).1, (h.writes w hw).2⟩
      store := h.store
      storing := fun j r' a hj ↦
        ⟨List.mem_cons_of_mem _ (h.storing j r' a hj).1, (h.storing j r' a hj).2⟩
      returned := fun j r' v' t hj ↦ (h.returned j r' v' t hj).imp
        (·.mono (fun _ ↦ List.mem_cons_of_mem _) fun _ ↦ id) id }
  refine hanswers.setPhase i r (fun a ha ↦ ?_) fun _ _ hphase ↦ by cases hphase
  obtain rfl := Phase.storing.inj ha
  exact ⟨List.mem_cons_self, rfl, rfl⟩

variable [DecidableEq K]

/-- An answer is stored. -/
theorem write (h : Inv c fits s) {a : Answer R V} (ha : a ∈ s.answers) :
    Inv c fits { s with
      store := Function.update s.store (c.key a.request) (some (c.encode a.value, s.now + c.ttl))
      writes := (a, s.now) :: s.writes } where
  answers := h.answers
  writes w hw := by
    rcases List.mem_cons.mp hw with rfl | hw
    · exact ⟨ha, (h.answers a ha).2, le_rfl⟩
    · exact h.writes w hw
  store k entry exp hk := by
    simp only [Function.update_apply] at hk
    split_ifs at hk with heq
    · obtain ⟨rfl, rfl⟩ := Prod.mk.inj (Option.some.inj hk)
      exact ⟨_, List.mem_cons_self, heq.symm, rfl, rfl⟩
    · obtain ⟨w, hw, hrest⟩ := h.store k entry exp hk
      exact ⟨w, List.mem_cons_of_mem _ hw, hrest⟩
  storing := h.storing
  returned j r v t hj := (h.returned j r v t hj).imp
    (·.mono (fun _ ↦ id) fun _ ↦ List.mem_cons_of_mem _) id

theorem step (h : Inv c fits s) (hc : ∀ v, c.decode (c.encode v) = some v) {e : Event R V K}
    (hst : s.step c fits e s') : Inv c fits s' := by
  obtain ⟨hal, rfl⟩ := hst
  cases e with
  | tick d =>
    have hnow : s.now ≤ s.now + d := by omega
    exact
      { answers := fun a ha ↦ ⟨(h.answers a ha).1, (h.answers a ha).2.trans hnow⟩
        writes := fun w hw ↦ (h.writes w hw).imp id fun hle ↦ hle.imp id (·.trans hnow)
        store := h.store
        storing := h.storing
        returned := fun j r v t hj ↦ (h.returned j r v t hj).imp (·.mono (fun _ ↦ id) fun _ ↦ id)
          (·.trans hnow) }
  | call i r => exact h.setPhase i r (fun _ hp ↦ by cases hp) fun _ _ hp ↦ by cases hp
  | get i reached =>
    simp only [State.next]
    split
    case h_2 => exact h
    rename_i r _
    cases reached with
    | false => exact h.setPhase i r (fun _ hp ↦ by cases hp) fun _ _ hp ↦ by cases hp
    | true =>
      refine h.setPhase i r (fun a hp ↦ ?_) (h.afterGet hc i r)
      rw [if_pos rfl] at hp
      unfold State.afterGet at hp
      split at hp
      · cases hp
      · split at hp
        · cases hp
        · split_ifs at hp
  | ask i answer =>
    simp only [State.next]
    split
    case h_2 => exact h
    rename_i r hi
    cases answer with
    | none => exact h.setPhase i r (fun _ hp ↦ by cases hp) fun _ _ hp ↦ by cases hp
    | some v => exact h.ask (hal r _ v hi rfl)
  | set i done thrown =>
    simp only [State.next]
    split
    case h_2 => exact h
    rename_i r a hi
    obtain ⟨ha, hcall, rfl⟩ := h.storing i r a hi
    have hown : ∀ v t, (if thrown then (.failed : Phase R V) else .returned a.value s.now) =
        .returned v t → Told c s i a.request v t ∧ t ≤ s.now := by
      intro v t hp
      split_ifs at hp
      obtain ⟨rfl, rfl⟩ := Phase.returned.inj hp
      exact ⟨⟨a, ha, rfl, rfl, (h.answers a ha).2, Or.inl ⟨hcall, rfl⟩⟩, le_rfl⟩
    have hphase := h.setPhase i a.request (fun _ hp ↦ by split_ifs at hp) hown
    by_cases hset : done ∨ ¬ thrown
    · rw [if_pos hset]
      exact hphase.write ha
    · rw [if_neg hset]
      exact hphase
  | lose k =>
    exact
      { h with
        store := fun k' entry exp hk ↦ by
          simp only [State.next, Function.update_apply] at hk
          split_ifs at hk
          exact h.store k' entry exp hk }

end Inv

/-- What a call returns fits its request, and the source said it for the same key: to this call, or
less than `ttl` before it was read. -/
theorem returned_of_reachable [DecidableEq K] {s₀ : State R V K S}
    (hc : ∀ v, c.decode (c.encode v) = some v)
    (hfits : ∀ r r' v, c.key r = c.key r' → fits r v → fits r' v) (h₀ : s₀.Initial)
    (h : Reachable (State.step c fits) s₀ s) (hi : s.calls i = some (r, .returned v t)) :
    fits r v ∧ Told c s i r v t := by
  have hinv : Inv c fits s := h.invariant (fun _ _ _ hi hst ↦ hi.step hc hst) (.initial h₀)
  obtain ⟨a, ha, hv, hk, hrest⟩ := (hinv.returned i r v t hi).1
  exact ⟨hfits _ _ _ hk (hv ▸ (hinv.answers a ha).1), a, ha, hv, hk, hrest⟩

end System

end Rcab.ReadThrough
