import Rcab.Pools.Dispatched
import Rcab.Trips.Exclusivity

/-!
# Confirming the stops of a claimed pool

Whatever confirmations are sent, and whatever else happens, the confirmed stops of a claimed
pool are the first ones, the state of the pool says how far it got, and its driver is bound
to it until the last stop.
-/

universe u

namespace Rcab

open Dispatch Matching RideLifecycle

/-- The pool is claimed by that driver. -/
def PoolView.ClaimedBy (d : DriverId) (v : PoolView) : Prop :=
  ∃ s, v.row = some s ∧ s.claimedByDriverId = some d

/-- A claim is never given up. -/
theorem PoolStep.claimedBy {v v' : PoolView} {d : DriverId} (hst : PoolStep v v')
    (h : v.ClaimedBy d) : v'.ClaimedBy d := by
  obtain ⟨s₀, hrow₀, hd₀⟩ := h
  have hd : ∀ s, v.row = some s → s.claimedByDriverId = some d := by
    intro s hrow
    rw [hrow₀, Option.some.injEq] at hrow
    exact hrow ▸ hd₀
  cases hst with
  | idle => exact ⟨s₀, hrow₀, hd₀⟩
  | opened s m hrow =>
      rw [hrow₀] at hrow
      cases hrow
  | joined s m hrow => exact ⟨_, rfl, by simpa using hd s hrow⟩
  | closed s reason now stops hrow => exact ⟨_, rfl, hd s hrow⟩
  | retired s s' now hrow ho hn hs hmv => exact ⟨s', rfl, hmv.claimedByDriverId.trans (hd s hrow)⟩
  | claimed s d' now hrow hc hnone =>
      rw [hd s hrow] at hnone
      cases hnone
  | aborted s s' now hrow hc hnone =>
      rw [hd s hrow] at hnone
      cases hnone
  | confirmed s s' d' i now hrow hd' hf hmore hs hmv =>
      exact ⟨s', rfl, hmv.claimedByDriverId.trans (hd s hrow)⟩
  | completed s s' d' i now hrow hd' hf hlast hs hmv =>
      exact ⟨s', rfl, hmv.claimedByDriverId.trans (hd s hrow)⟩

/-- The stops, the state and the driver of a claimed pool agree. -/
structure StopsInOrder (db : Db) (s : SharedRide) (d : DriverId) : Prop where
  /-- The confirmed stops are the first `k`, and the state follows `k`. -/
  progress : ∃ k ≤ 2 * s.seatCount,
    (findByRideId db s.rideId).map RideStop.sequenceIndex = List.range (2 * s.seatCount) ∧
    (∀ x ∈ findByRideId db s.rideId, x.confirmedAt ≠ none ↔ x.sequenceIndex < k) ∧
    (s.poolState = .closedFull ∨ s.poolState = .closedTimeout ↔ k = 0) ∧
    (s.poolState = .closedStarted ↔ 0 < k ∧ k < 2 * s.seatCount) ∧
    (s.poolState = .completed ↔ k = 2 * s.seatCount)
  guard : Bound db d (.shared s.rideId) ↔ ∃ x ∈ findByRideId db s.rideId, x.confirmedAt = none

/-- What a claimed pool's state says of the confirmed stops. -/
theorem PoolState.Reached.state_iff {state : PoolState} {n k : ℕ} (h : state.Reached n k)
    (hn : 0 < n) (hcl : state.Closed ∨ state = .completed) :
    (state = .closedFull ∨ state = .closedTimeout ↔ k = 0) ∧
      (state = .closedStarted ↔ 0 < k ∧ k < n) ∧ (state = .completed ↔ k = n) := by
  have hzero : k = 0 → ¬ (0 < k ∧ k < n) ∧ k ≠ n := fun h ↦ by omega
  cases state with
  | open_ => exact (hcl.elim id fun h ↦ by cases h).elim
  | aborted => exact (hcl.elim id fun h ↦ by cases h).elim
  | closedFull =>
      have hk : k = 0 := h
      exact ⟨iff_of_true (Or.inl rfl) hk, iff_of_false (fun h ↦ by cases h) (hzero hk).1,
        iff_of_false (fun h ↦ by cases h) (hzero hk).2⟩
  | closedTimeout =>
      have hk : k = 0 := h
      exact ⟨iff_of_true (Or.inr rfl) hk, iff_of_false (fun h ↦ by cases h) (hzero hk).1,
        iff_of_false (fun h ↦ by cases h) (hzero hk).2⟩
  | closedStarted =>
      have hk : 0 < k ∧ k < n := h
      exact ⟨iff_of_false (by simp) hk.1.ne', iff_of_true rfl hk,
        iff_of_false (fun h ↦ by cases h) hk.2.ne⟩
  | completed =>
      have hk : k = n := h
      exact ⟨iff_of_false (by simp) (by omega), iff_of_false (fun h ↦ by cases h) (by omega),
        iff_of_true rfl hk⟩

theorem stopsInOrder_of_inv {db : Db} {s : SharedRide} {d : DriverId} (hp : PoolsInv db)
    (ht : TripsInv db) (hs : s ∈ db.sharedRides) (hd : s.claimedByDriverId = some d) :
    StopsInOrder db s d := by
  have hi := hp.pool s.rideId
  have hrow : (db.poolView s.rideId).row = some s := Table.get_of_mem hs
  have hcl := hi.claimed s d hrow hd
  have hne : s.poolState ≠ .open_ := by
    intro ho
    rw [ho] at hcl
    exact hcl.elim id (by simp)
  obtain ⟨hcount, hpos⟩ := hi.seats s hrow
  have hlen : (db.poolView s.rideId).stops.length = 2 * s.seatCount := by
    have := (hi.onceClosed s hrow hne).2.2.length
    simp only [List.length_map] at this
    rw [this, hcount]
  obtain ⟨k, hk, hconf, hr⟩ := hi.progress s hrow
  have hrange := hi.range
  have hstate : (s.poolState = .closedFull ∨ s.poolState = .closedTimeout ↔ k = 0) ∧
      (s.poolState = .closedStarted ↔ 0 < k ∧ k < 2 * s.seatCount) ∧
      (s.poolState = .completed ↔ k = 2 * s.seatCount) := by
    rw [hlen] at hr
    exact hr.state_iff (by omega) hcl
  rw [hlen] at hk hrange
  refine ⟨⟨k, hk, ?_⟩, ?_⟩
  · rw [hi.findByRideId_eq]
    exact ⟨hrange, hconf, hstate⟩
  · rw [bound_iff_holds ht.exclusive, hi.findByRideId_eq]
    have hclosed : Holds db d (.shared s.rideId) ↔ s.poolState ≠ .completed := by
      constructor
      · rintro ⟨s', hs', hid, -, hc⟩ hcomp
        obtain rfl : s' = s := Table.unique hs' hs hid
        rw [hcomp] at hc
        exact hc
      · exact fun h ↦ ⟨s, hs, rfl, hd, hcl.resolve_right h⟩
    rw [hclosed, Ne, hstate.2.2]
    constructor
    · -- The stop after the confirmed ones is pending.
      intro hlt
      obtain ⟨x, hx, hxk⟩ := (mem_of_range hi.range).1 k (by omega)
      refine ⟨x, hx, ?_⟩
      by_contra hc
      have := (hconf x hx).mp hc
      omega
    · rintro ⟨x, hx, hn⟩ hkn
      have hlt := (mem_of_range hi.range).2 x hx
      exact (hconf x hx).mpr (by omega) hn

section Runs

variable {D : Type u} [LinearOrder D] {db₀ db db' : Db} {tr tr' : List (Db × Step)}

/-- **Confirmations in order**: a pool claimed in a run stays claimed by the same driver, and
in every later state its stops, its state and its guard agree.  A confirmation never throws;
one that is refused or repeated changes nothing; any other one returns the version it
committed, which is greater than the one before. -/
theorem confirmations_in_order (dist : Point → Point → D) (h₀ : db₀.NoTrips) (h₀' : db₀.NoPools)
    (hr : Run (step dist) db₀ tr db) {s : SharedRide} (hs : s ∈ db.sharedRides) {d : DriverId}
    (hd : s.claimedByDriverId = some d) (hr' : Run (step dist) db tr' db') :
    ∃ s' ∈ db'.sharedRides, s'.rideId = s.rideId ∧ s'.claimedByDriverId = some d ∧
      StopsInOrder db' s' d ∧
      ∀ t input, input.rideId = s.rideId →
        ∃ db'' r, confirmStop t db' input = .ok (db'', r) ∧
          (∀ reason, r = .failed reason → db'' = db') ∧
          (∀ c, r = .ok c → c.duplicate = true → db'' = db') ∧
          ∀ c, r = .ok c → c.duplicate = false → ∃ s'' ∈ db''.sharedRides,
            s''.rideId = s.rideId ∧ c.version = s''.stateVersion ∧
              s'.stateVersion < s''.stateVersion := by
  have hp := (PoolsInv.of_noPools h₀').run hr
  have hp' := hp.run hr'
  have ht' := (TripsInv.of_noTrips h₀).run (hr.trans hr')
  have hclaimed : PoolsInv db' ∧ (db'.poolView s.rideId).ClaimedBy d := by
    refine hr'.invariant (I := fun db ↦ PoolsInv db ∧ (db.poolView s.rideId).ClaimedBy d) ?_
      ⟨hp, s, Table.get_of_mem hs, hd⟩
    rintro db e db' ⟨hi, hc⟩ hst
    refine ⟨hi.step hst, ?_⟩
    obtain rfl := hst
    exact (poolSim_exec dist hi e).keeps (fun _ _ hst h ↦ hst.claimedBy h) s.rideId hc
  obtain ⟨-, s', hrow', hd'⟩ := hclaimed
  have hget' : db'.sharedRides.get s.rideId = some s' := hrow'
  have hs' := Table.mem_of_get hget'
  refine ⟨s', hs', Table.key_of_get hget', hd', stopsInOrder_of_inv hp' ht' hs' hd', ?_⟩
  intro t input hid
  obtain ⟨db'', r, hok, hc⟩ := confirmStop_spec (t := t) (hp'.pool input.rideId)
  refine ⟨db'', r, hok, ?_⟩
  cases hc with
  | refused reason => exact ⟨fun _ _ ↦ rfl, fun _ h ↦ (by cases h), fun _ h ↦ (by cases h)⟩
  | repeated c hc =>
      refine ⟨fun _ h ↦ (by cases h), fun _ _ _ ↦ rfl, fun c' h hc' ↦ ?_⟩
      obtain rfl := StopConfirmResult.ok.inj h
      rw [hc] at hc'
      cases hc'
  | confirmed s₁ s'' db'' c hs₁ hd₁ hs'' hc hv hlt hst hsim =>
      rw [hid] at hs₁ hs''
      rw [hget', Option.some.injEq] at hs₁
      subst hs₁
      refine ⟨fun _ h ↦ (by cases h), fun c' h hc' ↦ ?_, fun c' h _ ↦ ?_⟩
      · obtain rfl := StopConfirmResult.ok.inj h
        rw [hc] at hc'
        cases hc'
      · obtain rfl := StopConfirmResult.ok.inj h
        exact ⟨s'', Table.mem_of_get hs'', Table.key_of_get hs'', hv, hlt⟩

/-- Driver 7 accepts the sample pool. -/
def sampleTaken : Db :=
  exec (D := ℕ) (fun _ _ ↦ 0)
    (exec (D := ℕ) (fun _ _ ↦ 0) sampleTimedOut
      (.createOffer ⟨60001, 60001⟩ 20 [] ⟨.shared 1, 7, 1, 1, 12000⟩))
    (.acceptInTx ⟨60002, 60002⟩ ⟨[⟨7, .active, .driver, true⟩], [⟨7, 4, true⟩]⟩ 20 7 (.shared 1))

theorem sampleTaken_bound : ∃ s ∈ sampleTaken.sharedRides, s.claimedByDriverId = some 7 ∧
    StopsInOrder sampleTaken s 7 := by
  have hany : sampleTaken.sharedRides.Any fun s ↦ s.claimedByDriverId = some 7 := by decide +kernel
  obtain ⟨s, hs, hd⟩ := hany
  have hopen : step (D := ℕ) (fun _ _ ↦ 0) .empty (.openPool ⟨0, 0⟩ samplePool) samplePooled := rfl
  have hclose : step (D := ℕ) (fun _ _ ↦ 0) samplePooled (.closeIfOpen ⟨60000, 60000⟩ 1)
      sampleTimedOut := rfl
  have hoffer : step (D := ℕ) (fun _ _ ↦ 0) sampleTimedOut
      (.createOffer ⟨60001, 60001⟩ 20 [] ⟨.shared 1, 7, 1, 1, 12000⟩) _ := rfl
  have hrun : Run (step (D := ℕ) fun _ _ ↦ 0) .empty _ sampleTaken :=
    (((Run.single hopen).snoc hclose).snoc hoffer).snoc rfl
  obtain ⟨s', hs', hid, hd', hord, -⟩ := confirmations_in_order (D := ℕ) (fun _ _ ↦ 0)
    Db.empty_noTrips Db.empty_noPools hrun hs hd .nil
  exact ⟨s', hs', hd', hord⟩

end Runs

end Rcab
