import Rcab.Pools.Simulation
import Rcab.Realtime.Publish
import Rcab.Rides.Simulation

/-!
# Versions order what happened

The rank of a ride's status grows with every change of it, and a terminal status is never left;
the version of a pool grows with every change of its row.  So a version names one state of its
ride or pool, and a message that was true once stays true of the past (`Message.Valid`).
-/

universe u

namespace Rcab

open Realtime
open Relation (ReflTransGen)

/-! ## The ranks of a ride -/

namespace RideStatus

/-- The version of a status. -/
def rank (s : RideStatus) : ℕ := rideStatusVersion s.text

/-- The statuses a ride can go through, one after the other or none. -/
abbrev Reaches : RideStatus → RideStatus → Prop := ReflTransGen Advances

variable {s s' s'' : RideStatus}

/-- Every change of status raises the rank. -/
theorem Advances.rank_lt (h : s.Advances s') : s.rank < s'.rank := by
  cases h with
  | cancelled hc => cases s <;> first | decide | exact hc.elim
  | _ => decide

/-- No change of status leaves a terminal one. -/
theorem Advances.not_terminal (h : s.Advances s') : s.text ∉ terminalRideStatuses := by
  cases h with
  | cancelled hc => cases s <;> first | decide | exact hc.elim
  | _ => decide

theorem Reaches.eq_or_lt (h : s.Reaches s') : s = s' ∨ s.rank < s'.rank := by
  induction h with
  | refl => exact Or.inl rfl
  | tail _ hst ih =>
      rcases ih with rfl | hlt
      · exact Or.inr hst.rank_lt
      · exact Or.inr (hlt.trans hst.rank_lt)

/-- A terminal status reaches itself only. -/
theorem Reaches.eq_of_terminal (h : s.Reaches s') (ht : s.text ∈ terminalRideStatuses) : s = s' := by
  rcases h.cases_head with rfl | ⟨t, hst, -⟩
  · rfl
  · exact absurd ht hst.not_terminal

/-- Statuses of one rank are the same or both terminal. -/
theorem eq_or_terminal_of_rank (h : s.rank = s'.rank) :
    s = s' ∨ s.text ∈ terminalRideStatuses ∧ s'.text ∈ terminalRideStatuses := by
  revert h
  cases s <;> cases s' <;> decide

/-- A ride has one status of each rank. -/
theorem Reaches.eq_of_rank (h : s.Reaches s'') (h' : s'.Reaches s'') (hr : s.rank = s'.rank) :
    s = s' := by
  rcases eq_or_terminal_of_rank hr with heq | ⟨ht, ht'⟩
  · exact heq
  · exact (h.eq_of_terminal ht).trans (h'.eq_of_terminal ht').symm

end RideStatus

/-- A step of the ride takes its status forward, or leaves it. -/
theorem RideStep.reaches {wakes : ℕ → Prop} {v v' : RideView} (h : RideStep wakes v v') {r : Ride}
    (hrow : v.row = some r) : ∃ r', v'.row = some r' ∧ r.status.Reaches r'.status := by
  cases h with
  | created r' hnone =>
      rw [hrow] at hnone
      cases hnone
  | booked r' hnone =>
      rw [hrow] at hnone
      cases hnone
  | woken r' g hrow' =>
      obtain rfl := Option.some.inj (hrow.symm.trans hrow')
      exact ⟨_, rfl, .refl⟩
  | rearmed r' hrow' =>
      obtain rfl := Option.some.inj (hrow.symm.trans hrow')
      exact ⟨_, rfl, .refl⟩
  | moved r₀ r' hrow' hm =>
      obtain rfl := Option.some.inj (hrow.symm.trans hrow')
      exact ⟨_, rfl, .single hm.status⟩

/-! ## The versions of a pool -/

/-- A pool stays, and a change of its row raises its version. -/
theorem PoolStep.newer {v v' : PoolView} (h : PoolStep v v') {s : SharedRide}
    (hrow : v.row = some s) :
    ∃ s', v'.row = some s' ∧ (s' = s ∨ s.stateVersion < s'.stateVersion) := by
  have heq : ∀ {s₀ : SharedRide}, v.row = some s₀ → s₀ = s := fun h₀ ↦
    Option.some.inj (h₀.symm.trans hrow)
  cases h with
  | idle => exact ⟨s, hrow, Or.inl rfl⟩
  | opened _ _ hnone =>
      rw [hrow] at hnone
      cases hnone
  | joined s₀ _ h₀ => exact ⟨_, rfl, Or.inr (heq h₀ ▸ Nat.lt_succ_self _)⟩
  | closed s₀ _ _ _ h₀ => exact ⟨_, rfl, Or.inr (heq h₀ ▸ Nat.lt_succ_self _)⟩
  | retired s₀ s' _ h₀ _ _ _ hmv => exact ⟨_, rfl, Or.inr (heq h₀ ▸ hmv.stateVersion)⟩
  | claimed s₀ _ _ h₀ => exact ⟨_, rfl, Or.inr (heq h₀ ▸ Nat.lt_succ_self _)⟩
  | aborted s₀ s' _ h₀ _ _ _ hmv => exact ⟨_, rfl, Or.inr (heq h₀ ▸ hmv.stateVersion)⟩
  | confirmed s₀ s' _ _ _ h₀ _ _ _ _ hmv => exact ⟨_, rfl, Or.inr (heq h₀ ▸ hmv.stateVersion)⟩
  | completed s₀ s' _ _ _ h₀ _ _ _ _ hmv => exact ⟨_, rfl, Or.inr (heq h₀ ▸ hmv.stateVersion)⟩

/-! ## Over a step of the system -/

section Exec

variable {D : Type u} [LinearOrder D] {dist : Point → Point → D} {db : Db}

variable (dist) in
/-- Every ride stays, and its status goes forward. -/
theorem reaches_exec (e : Step) {id : RideId} {r : Ride} (hr : db.rides.get id = some r) :
    ∃ r', (exec dist db e).rides.get id = some r' ∧ r.status.Reaches r'.status := by
  have hwakes : e.WakesIn fun _ ↦ True := by cases e <;> trivial
  have hkeep : ∀ v, ReflTransGen (RideStep fun _ ↦ True) (db.rideView id) v →
      ∃ r', v.row = some r' ∧ r.status.Reaches r'.status := by
    intro v hv
    induction hv with
    | refl => exact ⟨r, hr, .refl⟩
    | tail _ hst ih =>
        obtain ⟨r₁, hr₁, h₁⟩ := ih
        obtain ⟨r₂, hr₂, h₂⟩ := hst.reaches hr₁
        exact ⟨r₂, hr₂, h₁.trans h₂⟩
  exact hkeep _ ((rideSim_exec dist e hwakes).steps id)

variable (dist) in
/-- Every pool stays, and a change of its row raises its version. -/
theorem newer_exec (hi : PoolsInv db) (e : Step) {id : PoolId} {s : SharedRide}
    (hs : db.sharedRides.get id = some s) :
    ∃ s', (exec dist db e).sharedRides.get id = some s' ∧
      (s' = s ∨ s.stateVersion < s'.stateVersion) := by
  have hkeep : ∀ v, ReflTransGen PoolStep (db.poolView id) v →
      ∃ s', v.row = some s' ∧ (s' = s ∨ s.stateVersion < s'.stateVersion) := by
    intro v hv
    induction hv with
    | refl => exact ⟨s, hs, Or.inl rfl⟩
    | tail _ hst ih =>
        obtain ⟨s₁, hs₁, h₁⟩ := ih
        obtain ⟨s₂, hs₂, h₂⟩ := hst.newer hs₁
        refine ⟨s₂, hs₂, ?_⟩
        rcases h₁ with rfl | h₁ <;> rcases h₂ with rfl | h₂
        · exact Or.inl rfl
        · exact Or.inr h₂
        · exact Or.inr h₁
        · exact Or.inr (h₁.trans h₂)
  exact hkeep _ ((poolSim_exec dist hi e).steps id)

end Exec

/-! ## What messages say -/

namespace Realtime

/-- The ride had this status. -/
def Said (db : Db) (rideId : RideId) (state : String) : Prop :=
  ∃ r s, db.rides.get rideId = some r ∧ state = RideStatus.text s ∧ s.Reaches r.status

/-- The pool is shown as it is, or as it was at an earlier version. -/
def Shown (db : Db) (p : PoolUpdatePayload) : Prop :=
  ∃ row, db.sharedRides.get p.sharedRideId = some row ∧
    (p = poolUpdatePayload row ∨ p.version < row.stateVersion)

/-- What the message says was so, and its version says when. -/
def Message.Valid (db : Db) : Message → Prop
  | .poolSnapshot snapshot => Shown db snapshot.toPoolUpdatePayload
  | .poolUpdate payload => Shown db payload
  | .rideSnapshot snapshot =>
      Said db snapshot.rideId snapshot.status ∧ snapshot.version = rideStatusVersion snapshot.status
  | .rideStateChanged event =>
      Said db event.rideId event.state ∧
        event.version.getD (rideStatusVersion event.state) = rideStatusVersion event.state

section Exec

variable {D : Type u} [LinearOrder D] {dist : Point → Point → D} {db : Db}

theorem Said.exec {rideId : RideId} {state : String} (h : Said db rideId state) (e : Step) :
    Said (exec dist db e) rideId state := by
  obtain ⟨r, s, hr, hs, hreach⟩ := h
  obtain ⟨r', hr', h'⟩ := reaches_exec dist e hr
  exact ⟨r', s, hr', hs, hreach.trans h'⟩

theorem Shown.exec {p : PoolUpdatePayload} (h : Shown db p) (hi : PoolsInv db) (e : Step) :
    Shown (exec dist db e) p := by
  obtain ⟨row, hrow, h⟩ := h
  obtain ⟨row', hrow', h'⟩ := newer_exec dist hi e hrow
  refine ⟨row', hrow', ?_⟩
  rcases h' with rfl | hlt
  · exact h
  · rcases h with rfl | h
    · exact Or.inr hlt
    · exact Or.inr (h.trans hlt)

/-- A message that was true stays true of the past. -/
theorem Message.Valid.exec {m : Message} (h : m.Valid db) (hi : PoolsInv db) (e : Step) :
    m.Valid (exec dist db e) := by
  cases m with
  | poolSnapshot snapshot => exact Shown.exec h hi e
  | poolUpdate payload => exact Shown.exec h hi e
  | rideSnapshot snapshot => exact h.imp_left fun h ↦ h.exec e
  | rideStateChanged event => exact h.imp_left fun h ↦ h.exec e

end Exec

end Realtime

end Rcab
