import Rcab.Pools.Membership
import Rcab.Realtime.Delivery
import Rcab.Realtime.RideScreen

/-!
# The member's screen of a pool

What is owed to a connection that follows a pool is never lost, and the gate of the client shows
the newest of what it was given.  So once everything owed has been said and delivered, the app
shows the committed row of the highest version.
-/

universe u

namespace Rcab.Realtime

variable {net : Connections} {s : System}

/-- Everything about the pool has been said to the subscription, and delivered to the app, which
follows the pool. -/
structure Settled (net : Connections) (s : System) (u : Subscription) (poolId : PoolId) : Prop where
  trip : u.trip = .shared poolId
  emitted : u.phase = .emitted
  follows : (s.apps (net.app u.socket)).socket.poolGate.followed = some poolId
  published : ∀ p ∈ s.owed, p.poolId ≠ poolId
  said : ∀ x ∈ s.held, x.1 ≠ .pool poolId
  delivered : ∀ m ∈ (s.sent u.socket).drop u.since, m.trip = .shared poolId →
    m ∈ (s.apps (net.app u.socket)).pools.heard

/-- The last thing shown of the pool is the committed row, the newest there was. -/
def ShowsNewest (tr : List (System × Event)) (s : System) (app : AppId) (poolId : PoolId) : Prop :=
  ∃ row, s.db.sharedRides.get poolId = some row ∧
    (s.apps app).pools.handed.getLast? = some (.pool (poolUpdatePayload row)) ∧
      ∀ x ∈ tr, ∀ row', x.1.db.sharedRides.get poolId = some row' →
        row' = row ∨ row'.stateVersion < row.stateVersion

/-- A message that shows a pool is about it. -/
theorem Message.trip_of_pool? {m : Message} {payload : PoolUpdatePayload}
    (h : m.pool? = some payload) : m.trip = .shared payload.sharedRideId ∧
      m.handed = .pool payload ∧ m.version = payload.version := by
  cases m with
  | poolSnapshot snapshot =>
      obtain rfl := Option.some.inj h
      exact ⟨rfl, rfl, rfl⟩
  | poolUpdate payload' =>
      obtain rfl := Option.some.inj h
      exact ⟨rfl, rfl, rfl⟩
  | rideSnapshot snapshot => cases h
  | rideStateChanged event => cases h

/-- A true message about a pool shows it. -/
theorem Message.Valid.pool {db : Db} {m : Message} (h : m.Valid db) {id : PoolId}
    (ht : m.trip = .shared id) :
    ∃ payload, m.pool? = some payload ∧ payload.sharedRideId = id ∧ Shown db payload := by
  cases m with
  | poolSnapshot snapshot =>
      exact ⟨_, rfl, TripRef.shared.inj ht, h⟩
  | poolUpdate payload => exact ⟨_, rfl, TripRef.shared.inj ht, h⟩
  | rideSnapshot snapshot => cases ht
  | rideStateChanged event => cases ht

/-- The newest of what was delivered is the row, once a message that shows it was. -/
theorem Truthful.shows (h : Truthful s) {app : AppId} {poolId : PoolId} {row : SharedRide}
    (hrow : s.db.sharedRides.get poolId = some row)
    (hf : (s.apps app).socket.poolGate.followed = some poolId) {m : Message}
    (hm : m ∈ (s.apps app).pools.heard) (hshow : m.pool? = some (poolUpdatePayload row)) :
    (s.apps app).pools.handed.getLast? = some (.pool (poolUpdatePayload row)) := by
  obtain ⟨newest, hnewest, hlast, hmax⟩ :=
    (h.consistent app).pools.getLast (List.ne_nil_of_mem hm)
  obtain ⟨id, ht⟩ := (h.consistent app).shared newest hnewest
  have hfollowed := (h.consistent app).pools.followed newest hnewest
  rw [hf, ht] at hfollowed
  have hid : id = poolId := (Option.some.inj hfollowed).symm
  obtain ⟨payload, hp, hpid, row', hrow', hshown⟩ := (h.valid newest (.pools app hnewest)).pool ht
  rw [hpid, hid, hrow] at hrow'
  obtain rfl := Option.some.inj hrow'
  have hle := hmax m hm
  rw [(Message.trip_of_pool? hshow).2.2, (Message.trip_of_pool? hp).2.2] at hle
  rcases hshown with rfl | hlt
  · rw [hlast, (Message.trip_of_pool? hp).2.1]
  · exact absurd hle (not_le.mpr hlt)

section Runs

variable {D : Type u} [LinearOrder D] {dist : Point → Point → D}

/-- Every subscription of a pool is served, in every reachable state. -/
theorem served_run {s₀ : System} {tr : List (System × Event)} (h₀ : s₀.Initial)
    (hr : Run (step net dist) s₀ tr s) : Truthful s ∧ Served net s := by
  refine hr.invariant (I := fun s ↦ Truthful s ∧ Served net s) ?_ ⟨.initial h₀, fun u hu ↦ ?_⟩
  · rintro s e s' ⟨ht, hs⟩ hst
    refine ⟨ht.step hst, ?_⟩
    obtain ⟨ha, rfl⟩ := hst
    exact served_next ht.pools hs ha
  · exact absurd (h₀.subscriptions ▸ hu) List.not_mem_nil

/-- Every row a pool had was the present one or had a smaller version. -/
theorem newest_run {s₀ : System} {tr : List (System × Event)} (h₀ : s₀.Initial)
    (hr : Run (step net dist) s₀ tr s) {poolId : PoolId} {row row' : SharedRide}
    (hrow : s.db.sharedRides.get poolId = some row) {x : System × Event} (hx : x ∈ tr)
    (hrow' : x.1.db.sharedRides.get poolId = some row') :
    row' = row ∨ row'.stateVersion < row.stateVersion := by
  obtain ⟨t, e⟩ := x
  obtain ⟨tr₁, tr₂, rfl⟩ := List.append_of_mem hx
  obtain ⟨h₁, t', hst, h₂⟩ := hr.step_of_split
  have hnewer : ∀ t e t', (PoolsInv t.db ∧ ∃ row₁, t.db.sharedRides.get poolId = some row₁ ∧
      (row' = row₁ ∨ row'.stateVersion < row₁.stateVersion)) → step net dist t e t' →
      PoolsInv t'.db ∧ ∃ row₁, t'.db.sharedRides.get poolId = some row₁ ∧
        (row' = row₁ ∨ row'.stateVersion < row₁.stateVersion) := by
    rintro t e _ ⟨hi, row₁, hrow₁, h⟩ ⟨-, rfl⟩
    rcases db_next net t dist e with hdb | ⟨st, -, hdb⟩ <;> rw [hdb]
    · exact ⟨hi, row₁, hrow₁, h⟩
    · obtain ⟨row₂, hrow₂, h'⟩ := newer_exec dist hi st hrow₁
      refine ⟨hi.step rfl, row₂, hrow₂, ?_⟩
      rcases h with rfl | h <;> rcases h' with rfl | h'
      · exact Or.inl rfl
      · exact Or.inr h'
      · exact Or.inr h
      · exact Or.inr (h.trans h')
  have ht := (Truthful.initial h₀).run h₁
  obtain ⟨-, row₁, hrow₁, h⟩ := (Run.cons hst h₂).invariant hnewer
    ⟨ht.pools, row', hrow', Or.inl rfl⟩
  obtain rfl := Option.some.inj (hrow.symm.trans hrow₁)
  exact h

/-- **The screen of a pool converges**: in every run, what the handlers of an app see of a pool
never goes back to an older version; and once every publication has been made and every message
delivered, the last they saw is the committed row of the highest version. -/
theorem pool_converges (net : Connections) (dist : Point → Point → D) {s₀ s : System}
    {tr : List (System × Event)} (h₀ : s₀.Initial) (hr : Run (step net dist) s₀ tr s) :
    (∀ app, (s.apps app).pools.handed.Pairwise fun a b ↦ a.version ≤ b.version) ∧
      ∀ u ∈ s.subscriptions, ∀ poolId, Settled net s u poolId →
        ShowsNewest tr s (net.app u.socket) poolId := by
  obtain ⟨htruth, hserved⟩ := served_run h₀ hr
  refine ⟨fun app ↦ (htruth.consistent app).pools.sorted, fun u hu poolId hset ↦ ?_⟩
  have hserves := hserved u hu poolId hset.trip
  obtain ⟨snap, hsnap⟩ := poolSnapshot_of_member htruth.pools hserves.member
  obtain ⟨row, hrow, -⟩ := poolSnapshot_eq_some hsnap
  refine ⟨row, hrow, ?_, fun x hx row' hrow' ↦ newest_run h₀ hr hrow hx hrow'⟩
  rcases hserves.emitted hset.emitted row hrow with ⟨p, hp, hid, -⟩ | hx | ⟨m, hm, hshow⟩
  · exact absurd hid (hset.published p hp)
  · exact absurd rfl (hset.said _ hx)
  · have ht : m.trip = .shared poolId := by
      rw [(Message.trip_of_pool? hshow).1]
      exact congrArg TripRef.shared (show row.rideId = poolId from Table.key_of_get hrow)
    exact htruth.shows hrow hset.follows (hset.delivered m hm ht) hshow

end Runs

/-! ## A pool that closes while its member subscribes -/

/-- The snapshot is read before the pool closes, and emitted after the news of it. -/
def sampleClosing : List Event :=
  let u : Subscription := ⟨0, .shared 1, .joined, 0⟩
  let opened : Message := .poolSnapshot
    { sharedRideId := 1, version := 1, seatCount := 1, maxSeats := 1, poolStatus := .open_
      terminal := false, driverId := none, completedAt := none
      me := ⟨true, some 500, ⟨0, 0⟩, ⟨1, 1⟩⟩, itinerary := [] }
  let closed : PoolUpdatePayload := ⟨1, 2, 1, 1, .closedTimeout, false, none⟩
  [.commit (.openPool ⟨0, 0⟩ samplePool),
    .read ⟨.lifecycle, 1⟩,
    .emit (.pool 1) (.poolUpdate { closed with version := 1, poolStatus := .open_ }),
    .follow 0 (.shared 1),
    .subscribe 0 (.shared 1),
    .join { u with phase := .allowed },
    .readSnapshot u,
    .commit (.closeIfOpen ⟨60000, 60000⟩ 1),
    .read ⟨.lifecycle, 1⟩,
    .emit (.pool 1) (.poolUpdate closed),
    .emitSnapshot { u with phase := .read opened } opened,
    .deliver 0 (.poolUpdate closed),
    .deliver 0 opened]

def sampleClosed : System :=
  sampleClosing.foldl (next sampleConnections (D := ℕ) fun _ _ ↦ 0) sampleServer

theorem sampleClosed_shown :
    ShowsNewest (traceOf (next sampleConnections (D := ℕ) fun _ _ ↦ 0) sampleServer sampleClosing)
      sampleClosed 0 1 ∧ (sampleClosed.apps 0).pools.heard.length = 2 := by
  have hrun := Run.of_enabled (step sampleConnections (D := ℕ) fun _ _ ↦ 0) step_next
    sampleClosing (s := sampleServer) (by decide +kernel)
  have hset : Settled sampleConnections sampleClosed ⟨0, .shared 1, .emitted, 0⟩ 1 :=
    ⟨rfl, rfl, by decide +kernel, by decide +kernel, by decide +kernel, by decide +kernel⟩
  have h := pool_converges sampleConnections (D := ℕ) (fun _ _ ↦ 0) sampleServer_initial hrun
  exact ⟨h.2 _ (by decide +kernel) 1 hset, by decide +kernel⟩

end Rcab.Realtime
