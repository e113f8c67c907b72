import Rcab.Pools.Itinerary
import Rcab.Matching.PoolLifecycle
import Rcab.Matching.RideStop
import Mathlib.Data.Set.Insert

/-!
# The life of one pool

A pool seen on its own: its row, its members, its stops, and the generations for which the
outbox holds an intent to dispatch or to expire it.  `PoolStep` lists what can happen to it:

    opened → joined* → closed → claimed → confirmed* → completed
                  ↘ retired      ↘ aborted

and `PoolInv` is what then always holds: the seats are counted, the members are active until
the pool is over, an itinerary is there exactly from the close on, and the confirmed stops
are its first `k`, with the state of the pool following `k`.
-/

namespace Rcab

/-- What the tables say of one pool. -/
structure PoolView where
  row : Option SharedRide
  members : List PoolMember
  stops : List RideStop
  /-- The generations of its `pool.dispatch.requested` rows. -/
  dispatch : Set ℕ
  /-- The generations of its `pool.expire.schedule` rows. -/
  expire : Set ℕ

/-- The members once the pool is over. -/
def releaseAll (now : Time) (members : List PoolMember) : List PoolMember :=
  members.map fun m ↦ if m.active then m.release now else m

/-- The stops once stop `i` is confirmed. -/
def stamp (i : ℕ) (now : Time) (stops : List RideStop) : List RideStop :=
  stops.map fun s ↦ if s.sequenceIndex = i then { s with confirmedAt := some now } else s

/-- Nothing but the state of the pool changes, and its version grows. -/
structure Moves (s s' : SharedRide) : Prop where
  seatCount : s'.seatCount = s.seatCount
  maxSeats : s'.maxSeats = s.maxSeats
  dispatchGeneration : s'.dispatchGeneration = s.dispatchGeneration
  claimedByDriverId : s'.claimedByDriverId = s.claimedByDriverId
  stateVersion : s.stateVersion < s'.stateVersion

/-- Stop `i` is the first that is not confirmed yet. -/
def FirstPending (stops : List RideStop) (i : ℕ) : Prop :=
  (∃ s ∈ stops, s.sequenceIndex = i ∧ s.confirmedAt = none) ∧
    ∀ s ∈ stops, s.confirmedAt = none → i ≤ s.sequenceIndex

/-- What can happen to a pool. -/
inductive PoolStep (v : PoolView) : PoolView → Prop
  | idle : PoolStep v v
  | opened (s : SharedRide) (m : PoolMember) (hrow : v.row = none) (ho : s.poolState = .open_)
      (hn : s.seatCount = 1) (hg : s.dispatchGeneration = 0) (hd : s.claimedByDriverId = none)
      (hm : m.active = true) :
      PoolStep v { v with row := some s, members := v.members ++ [m], expire := insert 0 v.expire }
  | joined (s : SharedRide) (m : PoolMember) (hrow : v.row = some s) (ho : s.poolState = .open_)
      (hcap : s.seatCount + 1 ≤ s.maxSeats) (hm : m.active = true) :
      PoolStep v { v with
        row := some (s.seatOne.withVersion (s.stateVersion + 1))
        members := v.members ++ [m] }
  | closed (s : SharedRide) (reason : Matching.CloseReason) (now : Time) (stops : List RideStop)
      (hrow : v.row = some s) (ho : s.poolState = .open_) (hn : s.seatCount ≠ 0)
      (hi : IsItinerary (v.members.map PoolMember.passengerId) (stops.map RideStop.plan))
      (hu : ∀ x ∈ stops, x.confirmedAt = none) :
      PoolStep v { v with
        row := some ((s.close reason.state now).withVersion (s.stateVersion + 1))
        stops := v.stops ++ stops
        dispatch := insert (s.dispatchGeneration + 1) v.dispatch }
  | retired (s s' : SharedRide) (now : Time) (hrow : v.row = some s) (ho : s.poolState = .open_)
      (hn : s.seatCount = 0) (hs : s'.poolState = .aborted) (hmv : Moves s s') :
      PoolStep v { v with row := some s', members := releaseAll now v.members }
  | claimed (s : SharedRide) (d : DriverId) (now : Time) (hrow : v.row = some s)
      (hc : s.poolState.Claimable) (hd : s.claimedByDriverId = none) :
      PoolStep v { v with row := some ((s.claim d now).withVersion (s.stateVersion + 1)) }
  | aborted (s s' : SharedRide) (now : Time) (hrow : v.row = some s)
      (hc : s.poolState.Claimable) (hd : s.claimedByDriverId = none)
      (hs : s'.poolState = .aborted) (hmv : Moves s s') :
      PoolStep v { v with row := some s', members := releaseAll now v.members }
  | confirmed (s s' : SharedRide) (d : DriverId) (i : ℕ) (now : Time) (hrow : v.row = some s)
      (hd : s.claimedByDriverId = some d) (hf : FirstPending v.stops i)
      (hmore : ∃ x ∈ v.stops, x.confirmedAt = none ∧ x.sequenceIndex ≠ i)
      (hs : s'.poolState = .closedStarted) (hmv : Moves s s') :
      PoolStep v { v with row := some s', stops := stamp i now v.stops }
  | completed (s s' : SharedRide) (d : DriverId) (i : ℕ) (now : Time) (hrow : v.row = some s)
      (hd : s.claimedByDriverId = some d) (hf : FirstPending v.stops i)
      (hlast : ∀ x ∈ v.stops, x.confirmedAt = none → x.sequenceIndex = i)
      (hs : s'.poolState = .completed) (hmv : Moves s s') :
      PoolStep v { v with
        row := some s'
        stops := stamp i now v.stops
        members := releaseAll now v.members }

/-- The number `k` of confirmed stops, of `n`, that goes with a state. -/
def PoolState.Reached (n k : ℕ) : PoolState → Prop
  | .closedStarted => 0 < k ∧ k < n
  | .completed => k = n
  | _ => k = 0

/-- The confirmed stops are the first `k`, and the state is the one that goes with `k`. -/
def Progress (state : PoolState) (stops : List RideStop) : Prop :=
  ∃ k ≤ stops.length, (∀ x ∈ stops, x.confirmedAt ≠ none ↔ x.sequenceIndex < k) ∧
    state.Reached stops.length k

/-- What holds of every pool. -/
structure PoolInv (v : PoolView) : Prop where
  absent : v.row = none → v.members = [] ∧ v.stops = []
  seats : ∀ s, v.row = some s → s.seatCount = v.members.length ∧ 1 ≤ s.seatCount
  active : ∀ s, v.row = some s → ∀ m ∈ v.members, m.active = true ↔ ¬ s.poolState.Terminal
  expire : ∀ s, v.row = some s → 0 ∈ v.expire
  whileOpen : ∀ s, v.row = some s → s.poolState = .open_ → s.dispatchGeneration = 0 ∧ v.stops = []
  onceClosed : ∀ s, v.row = some s → s.poolState ≠ .open_ →
    s.dispatchGeneration = 1 ∧ 1 ∈ v.dispatch ∧
      IsItinerary (v.members.map PoolMember.passengerId) (v.stops.map RideStop.plan)
  progress : ∀ s, v.row = some s → Progress s.poolState v.stops
  /-- A claimed pool is closed or completed, and those past their first stop are claimed. -/
  claimed : ∀ s d, v.row = some s → s.claimedByDriverId = some d →
    s.poolState.Closed ∨ s.poolState = .completed

/-- The only intent to dispatch a pool is the one of its close. -/
def DispatchedOnce (v : PoolView) : Prop :=
  ∀ g ∈ v.dispatch, g = 1 ∧ ∃ s, v.row = some s ∧ s.poolState ≠ .open_

/-! ## Members and stops -/

@[simp] theorem releaseAll_passengerId (now : Time) (members : List PoolMember) :
    (releaseAll now members).map PoolMember.passengerId = members.map PoolMember.passengerId := by
  rw [releaseAll, List.map_map]
  refine List.map_congr_left fun m _ ↦ ?_
  simp only [Function.comp_apply]
  split_ifs <;> rfl

@[simp] theorem releaseAll_length (now : Time) (members : List PoolMember) :
    (releaseAll now members).length = members.length := List.length_map _

theorem releaseAll_active {now : Time} {members : List PoolMember} :
    ∀ m ∈ releaseAll now members, m.active = false := by
  intro m hm
  obtain ⟨m, -, rfl⟩ := List.mem_map.mp hm
  split_ifs with ha
  · rfl
  · simpa using ha

@[simp] theorem stamp_plan (i : ℕ) (now : Time) (stops : List RideStop) :
    (stamp i now stops).map RideStop.plan = stops.map RideStop.plan := by
  rw [stamp, List.map_map]
  refine List.map_congr_left fun s _ ↦ ?_
  simp only [Function.comp_apply]
  split_ifs <;> rfl

@[simp] theorem stamp_length (i : ℕ) (now : Time) (stops : List RideStop) :
    (stamp i now stops).length = stops.length := List.length_map _

/-- Exactly one more stop is confirmed. -/
theorem forall_mem_stamp {i : ℕ} {now : Time} {stops : List RideStop} {k : ℕ}
    (h : ∀ x ∈ stops, x.confirmedAt ≠ none ↔ x.sequenceIndex < k) (hk : i = k) :
    ∀ x ∈ stamp i now stops, x.confirmedAt ≠ none ↔ x.sequenceIndex < k + 1 := by
  intro y hy
  obtain ⟨x, hx, rfl⟩ := List.mem_map.mp hy
  split_ifs with hi
  · refine iff_of_true (by simp) ?_
    show x.sequenceIndex < k + 1
    omega
  · rw [h x hx]
    omega

/-- The first pending stop comes right after the `k` confirmed ones. -/
theorem FirstPending.eq {stops : List RideStop} {i k : ℕ} (hf : FirstPending stops i)
    (hconf : ∀ x ∈ stops, x.confirmedAt ≠ none ↔ x.sequenceIndex < k)
    (hall : ∀ j < stops.length, ∃ x ∈ stops, x.sequenceIndex = j)
    (hidx : ∀ x ∈ stops, x.sequenceIndex < stops.length) :
    i = k ∧ k < stops.length := by
  obtain ⟨⟨s, hs, rfl, hnone⟩, hle⟩ := hf
  have hk : ¬ s.sequenceIndex < k := fun h ↦ (hconf s hs).mpr h hnone
  have hlt := hidx s hs
  obtain ⟨x, hx, hxk⟩ := hall k (by omega)
  have hxn : x.confirmedAt = none := by
    by_contra hne
    have := (hconf x hx).mp hne
    omega
  have := hle x hx hxn
  omega

/-- The rows of an itinerary are numbered by their positions. -/
theorem IsItinerary.range {passengers : List PassengerId} {stops : List RideStop}
    (h : IsItinerary passengers (stops.map RideStop.plan)) :
    stops.map RideStop.sequenceIndex = List.range stops.length := by
  have hlen : stops.length = 2 * passengers.length := by simpa using h.length
  have := h.indexes
  rwa [List.map_map, ← hlen] at this

theorem mem_of_range {stops : List RideStop}
    (h : stops.map RideStop.sequenceIndex = List.range stops.length) :
    (∀ j < stops.length, ∃ x ∈ stops, x.sequenceIndex = j) ∧
      ∀ x ∈ stops, x.sequenceIndex < stops.length := by
  constructor
  · intro j hj
    have : j ∈ stops.map RideStop.sequenceIndex := by
      rw [h]
      exact List.mem_range.mpr hj
    exact List.mem_map.mp this
  · intro x hx
    have : x.sequenceIndex ∈ List.range stops.length := h ▸ List.mem_map_of_mem hx
    exact List.mem_range.mp this

/-- The indexes of an itinerary's stops. -/
theorem IsItinerary.rows {passengers : List PassengerId} {stops : List RideStop}
    (h : IsItinerary passengers (stops.map RideStop.plan)) :
    (∀ j < stops.length, ∃ x ∈ stops, x.sequenceIndex = j) ∧
      ∀ x ∈ stops, x.sequenceIndex < stops.length :=
  mem_of_range h.range

/-! ## The invariant -/

namespace PoolInv

variable {v v' : PoolView}

/-- Before the pool is opened. -/
theorem of_absent (hrow : v.row = none) (hm : v.members = []) (hs : v.stops = []) :
    PoolInv v where
  absent _ := ⟨hm, hs⟩
  seats s hs := by rw [hrow] at hs; cases hs
  active s hs := by rw [hrow] at hs; cases hs
  expire s hs := by rw [hrow] at hs; cases hs
  whileOpen s hs := by rw [hrow] at hs; cases hs
  onceClosed s hs := by rw [hrow] at hs; cases hs
  progress s hs := by rw [hrow] at hs; cases hs
  claimed s d hs := by rw [hrow] at hs; cases hs

/-- The stops of a pool are numbered by their positions, whatever its state. -/
theorem range (h : PoolInv v) :
    v.stops.map RideStop.sequenceIndex = List.range v.stops.length := by
  cases hrow : v.row with
  | none => rw [(h.absent hrow).2]; rfl
  | some s =>
      by_cases ho : s.poolState = .open_
      · rw [(h.whileOpen s hrow ho).2]
        rfl
      · exact (h.onceClosed s hrow ho).2.2.range

/-- A pool that is closed has stops to confirm, and knows which is next. -/
theorem next (h : PoolInv v) {s : SharedRide} (hrow : v.row = some s) {i : ℕ}
    (hf : FirstPending v.stops i) :
    (∀ x ∈ v.stops, x.confirmedAt ≠ none ↔ x.sequenceIndex < i) ∧ i < v.stops.length ∧
      s.poolState.Reached v.stops.length i := by
  obtain ⟨k, hk, hconf, hr⟩ := h.progress s hrow
  by_cases ho : s.poolState = .open_
  · -- An open pool has no stops at all.
    obtain ⟨⟨x, hx, -⟩, -⟩ := hf
    rw [(h.whileOpen s hrow ho).2] at hx
    cases hx
  obtain ⟨hall, hidx⟩ := (h.onceClosed s hrow ho).2.2.rows
  obtain ⟨rfl, hlt⟩ := hf.eq hconf hall hidx
  exact ⟨hconf, hlt, hr⟩

/-- The invariant of a pool whose row is known. -/
theorem of_row {s : SharedRide} (hrow : v.row = some s)
    (seats : s.seatCount = v.members.length ∧ 1 ≤ s.seatCount)
    (active : ∀ m ∈ v.members, m.active = true ↔ ¬ s.poolState.Terminal) (expire : 0 ∈ v.expire)
    (whileOpen : s.poolState = .open_ → s.dispatchGeneration = 0 ∧ v.stops = [])
    (onceClosed : s.poolState ≠ .open_ → s.dispatchGeneration = 1 ∧ 1 ∈ v.dispatch ∧
      IsItinerary (v.members.map PoolMember.passengerId) (v.stops.map RideStop.plan))
    (progress : Progress s.poolState v.stops)
    (claimed : ∀ d, s.claimedByDriverId = some d → s.poolState.Closed ∨ s.poolState = .completed) :
    PoolInv v := by
  have hself : ∀ {s'}, v.row = some s' → s = s' := fun h ↦ Option.some.inj (hrow.symm.trans h)
  constructor
  · intro hr
    rw [hrow] at hr
    cases hr
  · intro s' hs'
    exact hself hs' ▸ seats
  · intro s' hs'
    exact hself hs' ▸ active
  · intro s' _
    exact expire
  · intro s' hs'
    exact hself hs' ▸ whileOpen
  · intro s' hs'
    exact hself hs' ▸ onceClosed
  · intro s' hs'
    exact hself hs' ▸ progress
  · intro s' d hs'
    exact hself hs' ▸ claimed d

/-! ## One step -/

section Steps

variable {s s' : SharedRide} {m : PoolMember} {d : DriverId} {now : Time} {i : ℕ}

theorem opened (h : PoolInv v) (hrow : v.row = none) (ho : s.poolState = .open_)
    (hn : s.seatCount = 1) (hg : s.dispatchGeneration = 0) (hd : s.claimedByDriverId = none)
    (hm : m.active = true) :
    PoolInv { v with
      row := some s
      members := v.members ++ [m]
      expire := insert 0 v.expire } := by
  obtain ⟨hms, hss⟩ := h.absent hrow
  refine of_row rfl ?_ (fun x hx ↦ ?_) (Set.mem_insert 0 _) (fun _ ↦ ⟨hg, hss⟩) (fun hne ↦ ?_) ?_
    fun d hd' ↦ ?_
  · simp [hms, hn]
  · obtain rfl : x = m := by simpa [hms] using hx
    simp [hm, ho, PoolState.Terminal]
  · exact absurd ho hne
  · exact ⟨0, Nat.zero_le _, by simp [hss], by simp [ho, PoolState.Reached]⟩
  · rw [hd] at hd'
    cases hd'

theorem joined (h : PoolInv v) (hrow : v.row = some s) (ho : s.poolState = .open_)
    (hcap : s.seatCount + 1 ≤ s.maxSeats) (hm : m.active = true) :
    PoolInv { v with
      row := some (s.seatOne.withVersion (s.stateVersion + 1))
      members := v.members ++ [m] } := by
  obtain ⟨hcount, hpos⟩ := h.seats s hrow
  obtain ⟨hg, hss⟩ := h.whileOpen s hrow ho
  have hseat : s.seatOne.seatCount = s.seatCount + 1 := by simp [SharedRide.seatOne, hcap]
  refine of_row rfl ?_ (fun x hx ↦ ?_) (h.expire s hrow) (fun _ ↦ ⟨by simpa using hg, hss⟩)
    (fun hne ↦ ?_) ?_ fun d hd ↦ ?_
  · simp only [List.length_append, List.length_singleton, ← hcount]
    exact ⟨hseat, by show 1 ≤ s.seatOne.seatCount; omega⟩
  · rcases List.mem_append.mp hx with hx | hx
    · simpa using h.active s hrow x hx
    · obtain rfl : x = m := by simpa using hx
      simp [hm, ho, PoolState.Terminal]
  · exact absurd (by simpa using ho) hne
  · simpa using h.progress s hrow
  · simpa using h.claimed s d hrow (by simpa using hd)

theorem closed {reason : Matching.CloseReason} {stops : List RideStop} (h : PoolInv v)
    (hrow : v.row = some s) (ho : s.poolState = .open_)
    (hi : IsItinerary (v.members.map PoolMember.passengerId) (stops.map RideStop.plan))
    (hu : ∀ x ∈ stops, x.confirmedAt = none) :
    PoolInv { v with
      row := some ((s.close reason.state now).withVersion (s.stateVersion + 1))
      stops := v.stops ++ stops
      dispatch := insert (s.dispatchGeneration + 1) v.dispatch } := by
  obtain ⟨hg, hss⟩ := h.whileOpen s hrow ho
  have hopen : reason.state ≠ .open_ := by cases reason <;> simp [Matching.CloseReason.state]
  have hterm : ¬ reason.state.Terminal := by cases reason <;> exact not_false
  have hlive : ¬ s.poolState.Terminal := by rw [ho]; exact not_false
  refine of_row rfl (h.seats s hrow) (fun x hx ↦ ?_) (h.expire s hrow)
    (fun ho' ↦ absurd ho' hopen) (fun _ ↦ ⟨?_, ?_, ?_⟩) ⟨0, Nat.zero_le _, fun x hx ↦ ?_, ?_⟩
    fun d _ ↦ Or.inl ?_
  · exact (h.active s hrow x hx).trans (iff_of_true hlive hterm)
  · show s.dispatchGeneration + 1 = 1
    omega
  · rw [hg]
    exact Set.mem_insert 1 _
  · simpa [hss] using hi
  · rw [hss, List.nil_append] at hx
    simp [hu x hx]
  · cases reason <;> simp [PoolState.Reached, Matching.CloseReason.state]
  · cases reason <;> trivial

theorem claimed_step (h : PoolInv v) (hrow : v.row = some s) (hc : s.poolState.Claimable) :
    PoolInv { v with row := some ((s.claim d now).withVersion (s.stateVersion + 1)) } := by
  have hopen : s.poolState ≠ .open_ := fun ho ↦ by rw [ho] at hc; exact hc
  exact of_row rfl (h.seats s hrow) (h.active s hrow) (h.expire s hrow) (fun ho ↦ absurd ho hopen)
    (fun _ ↦ h.onceClosed s hrow hopen) (h.progress s hrow)
    fun _ _ ↦ Or.inl (PoolState.closed_of_claimable hc)

theorem aborted (h : PoolInv v) (hrow : v.row = some s) (hc : s.poolState.Claimable)
    (hd : s.claimedByDriverId = none) (hs : s'.poolState = .aborted) (hmv : Moves s s') :
    PoolInv { v with row := some s', members := releaseAll now v.members } := by
  have hopen : s.poolState ≠ .open_ := fun ho ↦ by rw [ho] at hc; exact hc
  obtain ⟨hg, hds, hi⟩ := h.onceClosed s hrow hopen
  obtain ⟨k, hk, hconf, hr⟩ := h.progress s hrow
  refine of_row rfl ?_ (fun m hm ↦ ?_) (h.expire s hrow) (fun ho ↦ ?_) (fun _ ↦ ?_)
    ⟨k, hk, hconf, ?_⟩ fun d hd' ↦ ?_
  · simpa [hmv.seatCount] using h.seats s hrow
  · simp [releaseAll_active m hm, hs, PoolState.Terminal]
  · rw [hs] at ho
    cases ho
  · exact ⟨hmv.dispatchGeneration.trans hg, hds, by simpa using hi⟩
  · rw [hs]
    cases hst : s.poolState <;> rw [hst] at hc hr <;> first | exact hr | exact hc.elim
  · rw [hmv.claimedByDriverId, hd] at hd'
    cases hd'

/-- A pool with a pending stop is closed. -/
theorem ne_open (h : PoolInv v) (hrow : v.row = some s) (hf : FirstPending v.stops i) :
    s.poolState ≠ .open_ := by
  intro ho
  have hlt := (h.next hrow hf).2.1
  rw [(h.whileOpen s hrow ho).2] at hlt
  cases hlt

theorem confirmed (h : PoolInv v) (hrow : v.row = some s) (hd : s.claimedByDriverId = some d)
    (hf : FirstPending v.stops i)
    (hmore : ∃ x ∈ v.stops, x.confirmedAt = none ∧ x.sequenceIndex ≠ i)
    (hs : s'.poolState = .closedStarted) (hmv : Moves s s') :
    PoolInv { v with row := some s', stops := stamp i now v.stops } := by
  obtain ⟨hconf, hlt, hr⟩ := h.next hrow hf
  obtain ⟨hg, hds, hi⟩ := h.onceClosed s hrow (h.ne_open hrow hf)
  have hlive : ¬ s.poolState.Terminal := by
    rcases h.claimed s d hrow hd with hc | hc
    · cases hst : s.poolState <;> rw [hst] at hc <;> first | exact not_false | exact hc.elim
    · rw [hc] at hr
      exact absurd hr hlt.ne
  have hterm : ¬ s'.poolState.Terminal := by rw [hs]; exact not_false
  have hmore : i + 1 < v.stops.length := by
    obtain ⟨x, hx, hxn, hne⟩ := hmore
    have := hf.2 x hx hxn
    have := hi.rows.2 x hx
    omega
  refine of_row rfl ?_ (fun m hm ↦ ?_) (h.expire s hrow) (fun ho ↦ ?_) (fun _ ↦ ?_)
    ⟨i + 1, by simp; omega, forall_mem_stamp hconf rfl, ?_⟩ fun d' _ ↦ Or.inl ?_
  · simpa [hmv.seatCount] using h.seats s hrow
  · exact (h.active s hrow m hm).trans (iff_of_true hlive hterm)
  · rw [hs] at ho
    cases ho
  · exact ⟨hmv.dispatchGeneration.trans hg, hds, by simpa using hi⟩
  · rw [hs, stamp_length]
    exact ⟨Nat.succ_pos i, hmore⟩
  · rw [hs]
    trivial

theorem completed (h : PoolInv v) (hrow : v.row = some s) (hf : FirstPending v.stops i)
    (hlast : ∀ x ∈ v.stops, x.confirmedAt = none → x.sequenceIndex = i)
    (hs : s'.poolState = .completed) (hmv : Moves s s') :
    PoolInv { v with
      row := some s'
      stops := stamp i now v.stops
      members := releaseAll now v.members } := by
  obtain ⟨hconf, hlt, hr⟩ := h.next hrow hf
  obtain ⟨hg, hds, hi⟩ := h.onceClosed s hrow (h.ne_open hrow hf)
  have hend : i + 1 = v.stops.length := by
    -- The last stop is pending, so it is this one.
    obtain ⟨x, hx, hxi⟩ := hi.rows.1 (v.stops.length - 1) (by omega)
    by_contra hne
    have hxn : x.confirmedAt = none := by
      by_contra hc
      have := (hconf x hx).mp hc
      omega
    have := hlast x hx hxn
    omega
  refine of_row rfl ?_ (fun m hm ↦ ?_) (h.expire s hrow) (fun ho ↦ ?_) (fun _ ↦ ?_)
    ⟨i + 1, by simp; omega, forall_mem_stamp hconf rfl, ?_⟩ fun _ _ ↦ Or.inr hs
  · simpa [hmv.seatCount] using h.seats s hrow
  · simp [releaseAll_active m hm, hs, PoolState.Terminal]
  · rw [hs] at ho
    cases ho
  · exact ⟨hmv.dispatchGeneration.trans hg, hds, by simpa using hi⟩
  · rw [hs, stamp_length]
    exact hend

end Steps

theorem step (h : PoolInv v) (hst : PoolStep v v') : PoolInv v' := by
  cases hst with
  | idle => exact h
  | opened s m hrow ho hn hg hd hm => exact h.opened hrow ho hn hg hd hm
  | joined s m hrow ho hcap hm => exact h.joined hrow ho hcap hm
  | closed s reason now stops hrow ho hn hi hu => exact h.closed hrow ho hi hu
  | retired s s' now hrow ho hn hs hmv =>
      -- An open pool has a member: this never happens.
      have := (h.seats s hrow).2
      omega
  | claimed s d now hrow hc hd => exact h.claimed_step hrow hc
  | aborted s s' now hrow hc hd hs hmv => exact h.aborted hrow hc hd hs hmv
  | confirmed s s' d i now hrow hd hf hmore hs hmv => exact h.confirmed hrow hd hf hmore hs hmv
  | completed s s' d i now hrow hd hf hlast hs hmv => exact h.completed hrow hf hlast hs hmv

/-- A pool is closed once, so it is dispatched once. -/
theorem dispatchedOnce (h : PoolInv v) (hd : DispatchedOnce v) (hst : PoolStep v v') :
    DispatchedOnce v' := by
  have hopen : ∀ s, v.row = some s → s.poolState = .open_ → v.dispatch = ∅ := by
    intro s hrow ho
    refine Set.eq_empty_of_forall_notMem fun g hg ↦ ?_
    obtain ⟨-, s', hs', hne⟩ := hd g hg
    rw [hrow, Option.some.injEq] at hs'
    exact hne (hs' ▸ ho)
  -- A step out of a state that is not open, into one that is not.
  have hstay : ∀ s s', v.row = some s → s'.poolState ≠ .open_ → v.dispatch = v'.dispatch →
      v'.row = some s' → DispatchedOnce v' := by
    intro s s' hrow hne heq hrow' g hg
    exact ⟨(hd g (heq ▸ hg)).1, s', hrow', hne⟩
  cases hst with
  | idle => exact hd
  | opened s m hrow =>
      intro g hg
      obtain ⟨-, s', hs', -⟩ := hd g hg
      rw [hrow] at hs'
      cases hs'
  | joined s m hrow ho =>
      intro g hg
      have hg : g ∈ v.dispatch := hg
      rw [hopen s hrow ho] at hg
      exact hg.elim
  | closed s reason now stops hrow ho =>
      intro g hg
      have hg : g ∈ insert (s.dispatchGeneration + 1) v.dispatch := hg
      rw [hopen s hrow ho, (h.whileOpen s hrow ho).1] at hg
      refine ⟨by simpa using hg, _, rfl, ?_⟩
      cases reason <;> simp [Matching.CloseReason.state]
  | retired s s' now hrow ho hn hs => exact hstay s s' hrow (by simp [hs]) rfl rfl
  | claimed s d now hrow hc =>
      refine hstay s _ hrow ?_ rfl rfl
      intro ho
      have ho : s.poolState = .open_ := ho
      rw [ho] at hc
      exact hc
  | aborted s s' now hrow hc hd hs => exact hstay s s' hrow (by simp [hs]) rfl rfl
  | confirmed s s' d i now hrow hd hf hmore hs => exact hstay s s' hrow (by simp [hs]) rfl rfl
  | completed s s' d i now hrow hd hf hlast hs => exact hstay s s' hrow (by simp [hs]) rfl rfl

end PoolInv

end Rcab
