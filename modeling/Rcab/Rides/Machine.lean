import Mathlib.Data.Set.Insert
import Rcab.Rides.Repository
import Rcab.Scheduled.Rearm

/-!
# One ride as a state machine

A ride as its own row and intents show it (`RideView`), and what a transaction may do to it
(`RideStep`): it is created or booked, woken, re-armed, or its status advances.  The
generations a wake may carry are a parameter; the outbox only ever publishes wakes for
generation 1.

The invariant says that every generation of a ride has its work intent (`RideInv`).
-/

namespace Rcab

open Scheduled (Retryable)

structure RideView where
  row : Option Ride
  /-- The generations with an intent to dispatch the ride. -/
  dispatch : Set ℕ
  /-- The generations with an intent to wake it. -/
  wake : Set ℕ

/-- The changes of status. -/
inductive RideStatus.Advances : RideStatus → RideStatus → Prop
  | accepted : Advances .requested .accepted
  | enRoute : Advances .accepted .enRoute
  | arrived : Advances .enRoute .arrived
  | inProgress : Advances .arrived .inProgress
  | completed : Advances .inProgress .completed
  | cancelled {s : RideStatus} (h : Rides.Cancellable .driver s) : Advances s .cancelled
  | noShow : Advances .arrived .noShow
  | noDriver : Advances .requested .noDriver

/-- A new status for the ride; a claim starts its generation if no wake did. -/
structure Ride.Moves (r r' : Ride) : Prop where
  id : r'.id = r.id
  passengerId : r'.passengerId = r.passengerId
  type : r'.type = r.type
  status : r.status.Advances r'.status
  generation : r'.dispatchGeneration = r.dispatchGeneration ∨
    r.status = .requested ∧ r'.dispatchGeneration = max r.dispatchGeneration 1

/-- What a transaction may do to a ride. -/
inductive RideStep (wakes : ℕ → Prop) : RideView → RideView → Prop
  | created {v} (r : Ride) (hrow : v.row = none) (hs : r.status = .requested)
      (ht : r.type ≠ .scheduled) (hg : r.dispatchGeneration = 1) :
      RideStep wakes v ⟨some r, insert 1 v.dispatch, v.wake⟩
  | booked {v} (r : Ride) (hrow : v.row = none) (hs : r.status = .requested)
      (ht : r.type = .scheduled) (hg : r.dispatchGeneration = 0) :
      RideStep wakes v ⟨some r, v.dispatch, insert 1 v.wake⟩
  | woken {v} (r : Ride) (g : ℕ) (hrow : v.row = some r) (hs : r.status = .requested)
      (ht : r.type = .scheduled)
      (hg : r.dispatchGeneration + 1 = g ∨ r.dispatchGeneration = g) (hw : wakes g) :
      RideStep wakes v ⟨some { r with dispatchGeneration := g }, v.dispatch, v.wake⟩
  | rearmed {v} (r : Ride) (hrow : v.row = some r) (h : Retryable r) :
      RideStep wakes v ⟨some { r with dispatchGeneration := r.dispatchGeneration + 1 },
        insert (r.dispatchGeneration + 1) v.dispatch, v.wake⟩
  | moved {v} (r r' : Ride) (hrow : v.row = some r) (h : r.Moves r') :
      RideStep wakes v ⟨some r', v.dispatch, v.wake⟩

/-- Every generation of the ride has its intent, and none is ahead of it. -/
structure RideInv (v : RideView) : Prop where
  once : ∀ r, v.row = some r → r.type ≠ .scheduled → r.dispatchGeneration = 1 ∧ 1 ∈ v.dispatch
  booked : ∀ r, v.row = some r → r.type = .scheduled → 1 ∈ v.wake
  windows : ∀ r, v.row = some r → r.type = .scheduled → 2 ≤ r.dispatchGeneration →
    r.dispatchGeneration ∈ v.dispatch
  upTo : ∀ g ∈ v.dispatch, ∃ r, v.row = some r ∧ g ≤ r.dispatchGeneration
  first : ∀ g ∈ v.wake, g = 1

namespace RideStatus.Advances

variable {s s' : RideStatus}

theorem ne_requested (h : s.Advances s') : s' ≠ .requested := by
  cases h <;> simp

end RideStatus.Advances

namespace RideStep

variable {wakes : ℕ → Prop} {v v' : RideView}

/-- A ride stays, keeps its passenger and its type, and its generation never decreases. -/
theorem kept (h : RideStep wakes v v') {r : Ride} (hrow : v.row = some r) :
    ∃ r', v'.row = some r' ∧ r'.passengerId = r.passengerId ∧ r'.type = r.type ∧
      r.dispatchGeneration ≤ r'.dispatchGeneration := by
  cases h with
  | created r' hnone =>
      rw [hrow] at hnone
      cases hnone
  | booked r' hnone =>
      rw [hrow] at hnone
      cases hnone
  | woken r' g hrow' hs ht hg =>
      obtain rfl := Option.some.inj (hrow.symm.trans hrow')
      exact ⟨_, rfl, rfl, rfl, by dsimp only; omega⟩
  | rearmed r' hrow' h =>
      obtain rfl := Option.some.inj (hrow.symm.trans hrow')
      exact ⟨_, rfl, rfl, rfl, Nat.le_succ _⟩
  | moved r₀ r' hrow' h =>
      obtain rfl := Option.some.inj (hrow.symm.trans hrow')
      refine ⟨_, rfl, h.passengerId, h.type, ?_⟩
      rcases h.generation with hg | ⟨-, hg⟩
      · exact hg.ge
      · rw [hg]
        exact Nat.le_max_left _ _

end RideStep

namespace RideInv

variable {v v' : RideView}

/-- A ride that is not there has no intents. -/
theorem of_absent (hrow : v.row = none) (hd : v.dispatch = ∅) (hw : v.wake = ∅) : RideInv v where
  once r hr := by rw [hrow] at hr; cases hr
  booked r hr := by rw [hrow] at hr; cases hr
  windows r hr := by rw [hrow] at hr; cases hr
  upTo g hg := by rw [hd] at hg; exact hg.elim
  first g hg := by rw [hw] at hg; exact hg.elim

/-- More intents, none ahead of the ride. -/
theorem mono (h : RideInv v) (hrow : v'.row = v.row) (hd : v.dispatch ⊆ v'.dispatch)
    (hw : v.wake ⊆ v'.wake)
    (hup : ∀ g ∈ v'.dispatch, ∃ r, v.row = some r ∧ g ≤ r.dispatchGeneration)
    (hfirst : ∀ g ∈ v'.wake, g = 1) : RideInv v' where
  once r hr ht := (h.once r (hrow ▸ hr) ht).imp_right fun h ↦ hd h
  booked r hr ht := hw (h.booked r (hrow ▸ hr) ht)
  windows r hr ht hg := hd (h.windows r (hrow ▸ hr) ht hg)
  upTo g hg := hrow ▸ hup g hg
  first := hfirst

theorem step (h : RideInv v) (hst : RideStep (· = 1) v v') : RideInv v' := by
  have habsent : v.row = none → ∀ g, g ∉ v.dispatch := by
    intro hnone g hg
    obtain ⟨r, hr, -⟩ := h.upTo g hg
    rw [hnone] at hr
    cases hr
  have hup : ∀ {r r' : Ride}, v.row = some r → r.dispatchGeneration ≤ r'.dispatchGeneration →
      ∀ g ∈ v.dispatch, ∃ r'', some r' = some r'' ∧ g ≤ r''.dispatchGeneration := by
    intro r r' hr hle g hg
    obtain ⟨r₀, hr₀, hg₀⟩ := h.upTo g hg
    obtain rfl := Option.some.inj (hr.symm.trans hr₀)
    exact ⟨r', rfl, hg₀.trans hle⟩
  have hle : ∀ {r r' : Ride}, v.row = some r → v'.row = some r' →
      r.dispatchGeneration ≤ r'.dispatchGeneration := by
    intro r r' hr hr'
    obtain ⟨r₁, hr₁, -, -, hg⟩ := hst.kept hr
    obtain rfl := Option.some.inj (hr'.symm.trans hr₁)
    exact hg
  cases hst with
  | created r hnone hs ht hg =>
      refine ⟨?_, ?_, ?_, ?_, h.first⟩
      · rintro _ ⟨rfl⟩ -
        exact ⟨hg, Set.mem_insert _ _⟩
      · rintro _ ⟨rfl⟩ ht'
        exact absurd ht' ht
      · rintro _ ⟨rfl⟩ ht'
        exact absurd ht' ht
      · rintro g (rfl | hg')
        · exact ⟨r, rfl, hg.ge⟩
        · exact absurd hg' (habsent hnone g)
  | booked r hnone hs ht hg =>
      refine ⟨?_, ?_, ?_, ?_, ?_⟩
      · rintro _ ⟨rfl⟩ ht'
        exact absurd ht ht'
      · rintro _ ⟨rfl⟩ -
        exact Set.mem_insert _ _
      · rintro _ ⟨rfl⟩ - hg'
        omega
      · exact fun g hg' ↦ absurd hg' (habsent hnone g)
      · rintro g (rfl | hg')
        · rfl
        · exact h.first g hg'
  | woken r g hrow hs ht hg hw =>
      subst hw
      refine ⟨?_, ?_, ?_, hup hrow (by dsimp only; omega), h.first⟩
      · rintro _ ⟨rfl⟩ ht'
        exact absurd ht ht'
      · rintro _ ⟨rfl⟩ -
        exact h.booked r hrow ht
      · rintro _ ⟨rfl⟩ - hg'
        dsimp only at hg'
        omega
  | rearmed r hrow hr =>
      refine ⟨?_, ?_, ?_, ?_, h.first⟩
      · rintro _ ⟨rfl⟩ ht'
        exact absurd hr.type ht'
      · rintro _ ⟨rfl⟩ -
        exact h.booked r hrow hr.type
      · rintro _ ⟨rfl⟩ - -
        exact Set.mem_insert _ _
      · rintro g (rfl | hg')
        · exact ⟨_, rfl, Nat.le_refl _⟩
        · exact hup hrow (Nat.le_succ _) g hg'
  | moved r r' hrow hm =>
      refine ⟨?_, ?_, ?_, hup hrow (hle hrow rfl), h.first⟩
      · rintro _ ⟨rfl⟩ ht'
        rw [hm.type] at ht'
        obtain ⟨hg, hin⟩ := h.once r hrow ht'
        refine ⟨?_, hin⟩
        rcases hm.generation with hg' | ⟨-, hg'⟩ <;> rw [hg', hg]
        rfl
      · rintro _ ⟨rfl⟩ ht'
        exact h.booked r hrow (hm.type ▸ ht')
      · rintro _ ⟨rfl⟩ ht' hg'
        have hsame : r'.dispatchGeneration = r.dispatchGeneration := by
          rcases hm.generation with hg | ⟨-, hg⟩ <;> omega
        rw [hsame] at hg' ⊢
        exact h.windows r hrow (hm.type ▸ ht') hg'

end RideInv

end Rcab
