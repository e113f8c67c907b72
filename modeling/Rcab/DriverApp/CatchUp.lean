import Rcab.DriverApp.NoRewind
import Rcab.Trips.Accepts

/-!
# What the driver is shown in the end

All the server sends a driver of a claimed pool has been delivered, in any order and any number of
times.  The notifier shows exactly the stops confirmed by then which some delivery brought
(`catches_up`): an echo that was not dropped, or an itinerary that was taken up.
-/

universe u

namespace Rcab.DriverApp

open Dispatch (Accounts assignedOutcome acceptInTx)
open Realtime (DriverAssignmentView driverAssignment)
open RideLifecycle (StopConfirmInput StopConfirmResult StopEcho confirmStop)

/-! ## The messages of a claimed pool -/

section Messages

variable (tr : List (Db × Step)) (s : Db) (driverId : DriverId) (poolId : PoolId)
  (offerId : OfferId)

/-- The outcome of an accept of the pool, with the assignment as it was read after the commit. -/
inductive TripOutcome : Input → Prop
  | mk {before after : List (Db × Step)} {x : Db × Step} {t : TxClock} {accounts : Accounts}
      {generation : ℕ} {replay : Bool} {revoked : List Dispatch.RevokedOffer} {db db' : Db}
      (htr : tr = before ++ x :: after)
      (hstep : x.2 = .acceptInTx t accounts offerId driverId (.shared poolId))
      (hok : acceptInTx t x.1 accounts offerId driverId (.shared poolId) =
        .ok (db', ⟨.ok (.shared poolId) generation replay, revoked⟩))
      (hc : Committed after s db) :
      TripOutcome (.applyOutcome
        (.fromPayload (assignedOutcome db driverId offerId (.shared poolId) generation)))

/-- What the server sends the driver of the pool. -/
inductive TripMessage : Input → Prop
  | outcome {i : Input} (h : TripOutcome tr s driverId poolId offerId i) : TripMessage i
  /-- The ack of the accept, which carries no assignment. -/
  | ack {x : Db × Step} {t : TxClock} {accounts : Accounts} {generation : ℕ} {replay : Bool}
      {revoked : List Dispatch.RevokedOffer} {db' : Db} (hx : x ∈ tr)
      (hstep : x.2 = .acceptInTx t accounts offerId driverId (.shared poolId))
      (hok : acceptInTx t x.1 accounts offerId driverId (.shared poolId) =
        .ok (db', ⟨.ok (.shared poolId) generation replay, revoked⟩)) :
      TripMessage (.applyOutcome (.fromAck offerId (.ok (.shared poolId) generation replay)))
  /-- A read of any committed state, before the claim or after it. -/
  | snapshot {db : Db} (hc : Committed tr s db)
      (hown : ∀ a, db.driverActiveAssignment.get driverId = some a → a.trip = .shared poolId) :
      TripMessage (.applyAssignment ((driverAssignment db driverId).map .fromView))
  | echo {x : Db × Step} {t : TxClock} {input : StopConfirmInput} {db' : Db} {dateNow : Time}
      {r : StopConfirmResult} {echo : StopEcho} (hx : x ∈ tr) (hstep : x.2 = .confirmStop t input)
      (hdriver : input.driverId = driverId) (hpool : input.rideId = poolId)
      (hok : confirmStop t x.1 input = .ok (db', r)) (hecho : r.echo dateNow input = some echo) :
      TripMessage (.applyServerEcho echo)

end Messages

namespace SharedRideNotifier

/-- The pool is the trip to drive. -/
def Drives (n : SharedRideNotifier) (poolId : PoolId) : Prop :=
  n.state.sharedRideId = some poolId ∧ n.state.isAssigned

instance {n : SharedRideNotifier} {poolId : PoolId} : Decidable (n.Drives poolId) :=
  inferInstanceAs (Decidable (_ ∧ _))

/-- The pool is the trip to drive, with the committed set of confirmed stops. -/
structure UpToDate (n : SharedRideNotifier) (db : Db) (poolId : PoolId) : Prop where
  drives : n.Drives poolId
  confirmed : ∀ k, n.state.Tells (.confirmed k) ↔
    (TripFact.confirmed k).Holds (db.poolView poolId).stops

/-- Nothing was heard of the pool but its offer. -/
structure Waiting (n : SharedRideNotifier) (poolId : PoolId) (offerId : OfferId) : Prop where
  unheard : n.versionTripId ≠ some poolId
  undriven : ¬ n.Drives poolId
  unshown : ∀ f, ¬ n.Shows poolId f
  offer : n.state.offerId = some offerId → n.state.sharedRideId = some poolId

/-- The call does not release the pool, and takes up nothing older than what was noted. -/
structure Lossless (poolId : PoolId) (n : SharedRideNotifier) (i : Input) : Prop where
  released : i = .applyAssignment none → ¬ n.Drives poolId
  current : ∀ a, n.Takes i a → ¬ n.isOlder a.tripId (some a.version)

/-- The call tells the notifier that the stop was confirmed: an echo of it that is not dropped, or
an itinerary that is taken up. -/
def Brings (poolId : PoolId) (k : ℕ) (n : SharedRideNotifier) (i : Input) : Prop :=
  (∃ echo, i = .applyServerEcho echo ∧ echo.rideId = poolId ∧ echo.sequenceIndex = k ∧
    n.Drives poolId ∧ ¬ n.isOlder poolId echo.version) ∨
  ∃ a, n.Takes i a ∧ a.tripId = poolId ∧ ∃ j ∈ a.stops, j.sequenceIndex = k ∧ j.confirmed = true

end SharedRideNotifier

/-- One delivery. -/
def deliver (n : SharedRideNotifier) (i : Input) (n' : SharedRideNotifier) : Prop := n.apply i = n'

/-! ## The guard of the driver -/

section Guard

variable {db : Db} {driverId : DriverId} {poolId : PoolId} {offerId : OfferId}
  {g : DriverActiveAssignment}

/-- A guard's pool is held by its driver. -/
theorem held_of_guard (he : Market.Exclusive (market db))
    (hg : db.driverActiveAssignment.get driverId = some g) (htrip : g.trip = .shared poolId) :
    ∃ row, db.sharedRides.get poolId = some row ∧ row.claimedByDriverId = some driverId ∧
      row.poolState.Closed := by
  have hguard : (market db).guard driverId = some g.view :=
    market_guard_eq_some.mpr ⟨g, Table.mem_of_get hg, Table.key_of_get hg, rfl⟩
  have hheld : db.phase g.trip = .held driverId := he.held_of_guard driverId g.view hguard
  rw [htrip] at hheld
  cases hrow : db.sharedRides.get poolId with
  | none => simp [Db.phase, hrow] at hheld
  | some row =>
      rw [phase_shared hrow, SharedRide.phase_eq_held] at hheld
      exact ⟨row, rfl, hheld⟩

/-- The pool a driver holds has stops. -/
theorem stops_ne_nil_of_guard (he : Market.Exclusive (market db)) (hp : PoolsInv db)
    (hg : db.driverActiveAssignment.get driverId = some g) (htrip : g.trip = .shared poolId) :
    (db.poolView poolId).stops ≠ [] := by
  obtain ⟨row, hrow, -, hclosed⟩ := held_of_guard he hg htrip
  have hi := hp.pool poolId
  have hopen : row.poolState ≠ .open_ := by
    intro ho
    rw [ho] at hclosed
    exact hclosed
  have hlen := ((hi.onceClosed row hrow hopen).2.2).length
  obtain ⟨hseats, hpos⟩ := hi.seats row hrow
  rw [List.length_map, List.length_map, ← hseats] at hlen
  exact List.ne_nil_of_length_pos (by omega)

/-- The driver's assignment is the pool, under the offer of the guard. -/
theorem driverAssignment_of_guard (he : Market.Exclusive (market db))
    (hg : db.driverActiveAssignment.get driverId = some g) (htrip : g.trip = .shared poolId) :
    ∃ view, driverAssignment db driverId = some view ∧ view.tripId = poolId ∧
      view.offerId = g.offerId ∧ (DriverAssignment.fromView view).isShared := by
  obtain ⟨row, hrow, -⟩ := held_of_guard he hg htrip
  unfold driverAssignment
  rw [hg]
  dsimp only
  rw [htrip]
  dsimp only
  rw [hrow]
  exact ⟨_, rfl, rfl, rfl, rfl⟩

end Guard

/-! ## What the messages carry -/

section Carried

variable {D : Type u} [LinearOrder D] {dist : Point → Point → D} {s₀ s : Db}
  {tr : List (Db × Step)} {driverId : DriverId} {poolId : PoolId} {offerId : OfferId} {i : Input}
  {g : DriverActiveAssignment}

theorem TripOutcome.fromServer (h : TripOutcome tr s driverId poolId offerId i) :
    FromServer tr s driverId i := by
  cases h with
  | mk htr hstep hok hc =>
      rename_i after x _ _ _ _ _ _ _
      subst htr
      refine .assigned (List.mem_append_right _ List.mem_cons_self) hstep hok ?_
      exact hc.imp_right fun ⟨y, hy, h⟩ ↦
        ⟨y, List.mem_append_right _ (List.mem_cons_of_mem _ hy), h⟩

theorem TripMessage.fromServer (h : TripMessage tr s driverId poolId offerId i) :
    FromServer tr s driverId i := by
  cases h with
  | outcome h => exact h.fromServer
  | ack hx hstep hok => exact .ack hx hstep hok
  | snapshot hc hown => exact .snapshot hc
  | echo hx hstep hdriver hpool hok hecho => exact .echo hx hstep hdriver hok hecho

theorem tripsInv_of_committed {db : Db} (h₀ : s₀.NoTrips) (hr : Run (step dist) s₀ tr s)
    (hc : Committed tr s db) : TripsInv db := by
  obtain ⟨tr₁, -, h₁, -⟩ := runs_of_committed hr hc
  exact (TripsInv.of_noTrips h₀).run h₁

/-- **The outcome carries the assignment**, when the driver still holds the pool in the end. -/
theorem TripOutcome.assignment (h₀ : s₀.NoTrips) (hr : Run (step dist) s₀ tr s)
    (hg : s.driverActiveAssignment.get driverId = some g) (htrip : g.trip = .shared poolId)
    (hoffer : g.offerId = some offerId) (h : TripOutcome tr s driverId poolId offerId i) :
    ∃ outcome a, i = .applyOutcome outcome ∧ outcome.kind = .assigned ∧
      outcome.tripKind ≠ some .solo ∧ outcome.offerId = offerId ∧ outcome.tripId = some poolId ∧
        outcome.assignment = some a ∧ a.isShared ∧ a.tripId = poolId ∧ a.offerId = some offerId := by
  cases h with
  | mk htr hstep hok hc =>
      rename_i before after x t accounts generation replay revoked db db'
      subst htr
      obtain ⟨hbefore, t', hst, hafter⟩ := hr.step_of_split
      obtain rfl : t' = db' := by
        rw [← show exec dist x.1 x.2 = t' from hst, hstep]
        show (acceptInTx t x.1 accounts offerId driverId (.shared poolId)).commit x.1 = db'
        rw [hok]
        rfl
      have hinv : TripsInv t' := ((TripsInv.of_noTrips h₀).run hbefore).step hst
      obtain ⟨b, hb, hjob⟩ := guard_of_ok hok
      obtain ⟨tr₁, tr₂, h₁, h₂⟩ := runs_of_committed hafter hc
      have hend : (market s).guard driverId = some g.view :=
        market_guard_eq_some.mpr ⟨g, Table.mem_of_get hg, Table.key_of_get hg, rfl⟩
      have hsame : g.view.job = b.job := by
        rw [hjob]
        exact htrip
      obtain ⟨g', hg', hd, hview⟩ := market_guard_eq_some.mp (guard_between hinv h₁ h₂ hb hend hsame)
      have hget : db.driverActiveAssignment.get driverId = some g' := hd ▸ Table.get_of_mem hg'
      have htrip' : g'.trip = .shared poolId := (congrArg Market.Binding.job hview).trans htrip
      have hoffer' : g'.offerId = some offerId := (congrArg Market.Binding.offer hview).trans hoffer
      obtain ⟨view, hv, hid, ho, hshared⟩ :=
        driverAssignment_of_guard (hinv.run h₁).exclusive hget htrip'
      have hid' : (DriverAssignment.fromView view).tripId = poolId ∧
          (DriverAssignment.fromView view).offerId = some offerId := by
        rw [← hoffer', ← ho, ← hid]
        unfold DriverAssignment.fromView
        split <;> exact ⟨rfl, rfl⟩
      refine ⟨_, .fromView view, rfl, rfl, fun h ↦ (by cases h), rfl, rfl, ?_, hshared, hid'⟩
      show (Dispatch.assignmentView db driverId poolId).map DriverAssignment.fromView = _
      rw [show Dispatch.assignmentView db driverId poolId = some view from
        Option.filter_eq_some_iff.mpr ⟨hv, decide_eq_true hid⟩]
      rfl

/-- What is taken up has stops. -/
theorem FromServer.taken_stops {n : SharedRideNotifier} {a : DriverAssignment} (h₀ : s₀.NoTrips)
    (h₀' : s₀.NoPools) (hr : Run (step dist) s₀ tr s) (h : FromServer tr s driverId i)
    (ht : n.Takes i a) : a.stops ≠ [] := by
  obtain ⟨hshared, db, view, hc, hview, rfl⟩ := h.taken ht
  have hp := poolsInv_of_committed h₀' hr hc
  obtain ⟨g, row, hg, htrip, -, heq⟩ := driverAssignment_shared hview hshared
  have hne := stops_ne_nil_of_guard (tripsInv_of_committed h₀ hr hc).exclusive hp hg htrip
  rw [heq]
  show (Matching.findByRideId db view.tripId).map _ ≠ []
  rw [(hp.pool view.tripId).findByRideId_eq]
  exact fun hnil ↦ hne (List.map_eq_nil_iff.mp hnil)

/-- What a message of the pool makes the notifier take up is the pool. -/
theorem TripMessage.taken_tripId {n : SharedRideNotifier} {a : DriverAssignment}
    (h : TripMessage tr s driverId poolId offerId i) (ht : n.Takes i a) : a.tripId = poolId := by
  have hid : ∀ view : DriverAssignmentView,
      (DriverAssignment.fromView view).tripId = view.tripId := by
    intro view
    unfold DriverAssignment.fromView
    split <;> rfl
  cases h with
  | outcome h =>
      cases h with
      | mk htr hstep hok hc =>
          obtain ⟨-, -, ha, -⟩ := ht
          obtain ⟨view, hview, rfl⟩ := Option.map_eq_some_iff.mp ha
          rw [hid]
          exact of_decide_eq_true (Option.filter_eq_some_iff.mp hview).2
  | ack hx hstep hok =>
      obtain ⟨-, -, ha, -⟩ := ht
      cases ha
  | snapshot hc hown =>
      rename_i db
      cases hview : driverAssignment db driverId with
      | none =>
          rw [hview] at ht
          exact ht.elim
      | some view =>
          rw [hview] at ht
          obtain ⟨rfl, hshared, -⟩ := ht
          obtain ⟨g, -, hg, htrip, -⟩ := driverAssignment_shared hview hshared
          rw [hid]
          exact TripRef.shared.inj (htrip.symm.trans (hown g hg))
  | echo => exact ht.elim

/-- What a message of the pool starts is the pool. -/
theorem TripMessage.starts_tripId {n : SharedRideNotifier}
    (h : TripMessage tr s driverId poolId offerId i) (hs : n.Starts i)
    (hoffer : n.state.offerId = some offerId → n.state.sharedRideId = some poolId) :
    n.state.sharedRideId = some poolId := by
  cases h with
  | outcome h =>
      cases h with
      | mk htr hstep hok hc =>
          obtain ⟨-, -, hmatch, -⟩ := hs
          exact hmatch.elim hoffer fun h ↦ h.2.1.symm
  | ack hx hstep hok =>
      obtain ⟨-, -, hmatch, -⟩ := hs
      exact hmatch.elim hoffer fun h ↦ h.2.1.symm
  | snapshot hc hown => exact hs.elim
  | echo => exact hs.elim

/-- What a message of the pool can do. -/
theorem TripMessage.cases (h : TripMessage tr s driverId poolId offerId i)
    (n : SharedRideNotifier) :
    (∃ a, n.Takes i a ∧ n.apply i = n.hydrate a) ∨
      (n.Starts i ∧ SharedRideNotifier.Started n (n.apply i)) ∨
        (∃ echo, i = .applyServerEcho echo ∧ echo.rideId = poolId ∧ n.Echoed echo (n.apply i)) ∨
          (i = .applyAssignment none ∧ n.state.isAssigned ∧ n.apply i = n.setState .empty) ∨
            n.apply i = n := by
  have hassigned : ∀ {outcome : OfferOutcome}, outcome.kind = .assigned →
      n.apply (.applyOutcome outcome) = (n.applyAssigned outcome).1 :=
    fun hkind ↦ congrArg Prod.fst (if_pos hkind)
  have houtcome : ∀ {outcome : OfferOutcome}, outcome.kind = .assigned → i = .applyOutcome outcome →
      (∃ a, n.Takes i a ∧ n.apply i = n.hydrate a) ∨
        (n.Starts i ∧ SharedRideNotifier.Started n (n.apply i)) ∨ n.apply i = n := by
    rintro outcome hkind rfl
    rw [hassigned hkind]
    exact n.applyAssigned_cases hkind
  cases h with
  | outcome h =>
      cases h with
      | mk htr hstep hok hc =>
          rcases houtcome rfl rfl with h | h | h
          · exact Or.inl h
          · exact Or.inr (Or.inl h)
          · exact Or.inr (Or.inr (Or.inr (Or.inr h)))
  | ack hx hstep hok =>
      rcases houtcome rfl rfl with h | h | h
      · exact Or.inl h
      · exact Or.inr (Or.inl h)
      · exact Or.inr (Or.inr (Or.inr (Or.inr h)))
  | snapshot hc hown =>
      rename_i db
      rcases n.applyAssignment_cases ((driverAssignment db driverId).map .fromView) with
        h | ⟨hnone, h⟩ | h
      · exact Or.inl h
      · exact Or.inr (Or.inr (Or.inr (Or.inl ⟨congrArg Input.applyAssignment hnone, h⟩)))
      · exact Or.inr (Or.inr (Or.inr (Or.inr h)))
  | echo hx hstep hdriver hpool hok hecho =>
      rename_i x t input db' dateNow r echo
      rcases n.applyServerEcho_cases echo with h | h
      · exact Or.inr (Or.inr (Or.inr (Or.inr h)))
      · refine Or.inr (Or.inr (Or.inl ⟨echo, rfl, ?_, h⟩))
        cases r with
        | failed reason => cases hecho
        | ok c =>
            obtain rfl := Option.some.inj hecho
            exact hpool

end Carried

/-! ## One delivery -/

section Step

open SharedRideNotifier

variable (tr : List (Db × Step)) (s : Db) (poolId : PoolId) (offerId : OfferId)

/-- What is shown of the pool has come true by the version noted, and the pool is driven once any
version is. -/
structure Follows (n : SharedRideNotifier) : Prop where
  itinerary : Itinerary tr s n
  filled : n.state.sharedRideId ≠ none → n.state.stops ≠ []
  heard : n.versionTripId = some poolId → n.Drives poolId
  backed : ∀ f, n.Shows poolId f → Backed tr s n poolId f
  offer : n.state.offerId = some offerId → n.state.sharedRideId = some poolId

/-- What a delivery adds to what is shown of the pool. -/
structure Adds (n : SharedRideNotifier) (i : Input) (n' : SharedRideNotifier) : Prop where
  drives : n.Drives poolId → n'.Drives poolId
  keeps : ∀ k, n.Drives poolId → n.state.Tells (.confirmed k) → n'.state.Tells (.confirmed k)
  brought : ∀ k, n'.Shows poolId (.confirmed k) → n.Shows poolId (.confirmed k) ∨ Brings poolId k n i

variable {tr s poolId offerId}
variable {D : Type u} [LinearOrder D] {dist : Point → Point → D} {s₀ : Db} {driverId : DriverId}
  {n : SharedRideNotifier} {i : Input}

/-- Every call leaves stops, or no trip. -/
theorem filled_next (h₀ : s₀.NoTrips) (h₀' : s₀.NoPools) (hr : Run (Rcab.step dist) s₀ tr s)
    (hi : FromServer tr s driverId i) (h : n.state.sharedRideId ≠ none → n.state.stops ≠ []) :
    (n.apply i).state.sharedRideId ≠ none → (n.apply i).state.stops ≠ [] := by
  rcases n.apply_cases i with ⟨a, ha, hnext⟩ | ⟨-, hs⟩ | ⟨echo, rfl, he⟩ | ⟨-, hstops⟩
  · rw [hnext, hydrate_stops]
    intro _ hnil
    have hperm := sortStops_perm (a.stops.map restoredStop)
    rw [hnil] at hperm
    exact hi.taken_stops h₀ h₀' hr ha (List.map_eq_nil_iff.mp hperm.symm.eq_nil)
  · rw [hs.sharedRideId, hs.stops]
    exact h
  · intro _ hnil
    have hidx := he.indexes
    rw [hnil] at hidx
    exact h (by rw [he.trip]; simp) (List.map_eq_nil_iff.mp hidx.symm)
  · generalize n.apply i = n' at hstops
    cases hstops with
    | kept hid hst =>
        rw [hid, hst]
        exact h
    | none hid hst => exact fun hne ↦ absurd hid hne
    | offer o hid hst =>
        intro _ hnil
        have hperm := sortStops_perm (o.stops.map fun s ↦ { stop := s, status := .pending })
        rw [← hst, hnil] at hperm
        exact (hi.offered h₀' hr).1 (List.map_eq_nil_iff.mp hperm.symm.eq_nil)

theorem Follows.takes (hn : Follows tr s poolId offerId n) (h₀' : s₀.NoPools)
    (hr : Run (Rcab.step dist) s₀ tr s) {db : Db} {row : SharedRide} {a : DriverAssignment}
    (hread : Read tr s a db row) (hid : a.tripId = poolId)
    (hnew : ¬ n.isOlder a.tripId (some a.version)) (ht : n.Takes i a)
    (hitin : Itinerary tr s (n.hydrate a)) (hfilled : (n.hydrate a).state.stops ≠ []) :
    Follows tr s poolId offerId (n.hydrate a) ∧ Adds poolId n i (n.hydrate a) := by
  subst hid
  -- What was shown is part of the itinerary.
  have hall : ∀ f, n.Shows a.tripId f → f.Holds (db.poolView a.tripId).stops := by
    intro f hf
    refine (hn.backed f hf).holds h₀' hr hread.committed hread.found ?_
    rw [← hread.version]
    exact hnew
  refine ⟨⟨hitin, fun _ ↦ hfilled, fun _ ↦ ⟨rfl, rfl⟩,
    fun f hf ↦ hread.backed (hread.tells hf.2), fun _ ↦ rfl⟩, ⟨fun _ ↦ ⟨rfl, rfl⟩, ?_, ?_⟩⟩
  · intro k hd hk
    exact hread.told (hall _ ⟨hd.1, hk⟩)
  · rintro k ⟨-, x, hx, hxk, hc⟩
    obtain ⟨j, hj, rfl⟩ := mem_hydrate_stops.mp hx
    exact Or.inr (Or.inr ⟨a, ht, rfl, j, hj, hxk, restoredStop_status.mp hc⟩)

theorem Follows.starts (hn : Follows tr s poolId offerId n) (hid : n.state.sharedRideId = some poolId)
    (hi : n.Starts i) (hs : Started n (n.apply i)) (hitin : Itinerary tr s (n.apply i))
    (hfilled : (n.apply i).state.sharedRideId ≠ none → (n.apply i).state.stops ≠ []) :
    Follows tr s poolId offerId (n.apply i) ∧ Adds poolId n i (n.apply i) := by
  have hdrives : (n.apply i).Drives poolId := ⟨hs.sharedRideId.trans hid, hs.assigned⟩
  have hnot : ¬ n.state.isAssigned := by
    cases i with
    | applyOutcome outcome => exact hi.2.2.2.1
    | _ => exact hi.elim
  have hshows : ∀ f, (n.apply i).Shows poolId f → n.Shows poolId f := by
    intro f hf
    refine ⟨hid, ?_⟩
    cases f with
    | confirmed j =>
        obtain ⟨x, hx, hc⟩ := hf.2
        exact ⟨x, hs.stops ▸ hx, hc⟩
    | completed => exact hs.completed.symm.trans hf.2
  -- Nothing was shown of a pool that was not driven.
  have hnone : ∀ f, ¬ n.Shows poolId f := fun f hf ↦ hnot (hn.heard (hn.backed f hf).1).2
  exact ⟨⟨hitin, hfilled, fun _ ↦ hdrives, fun f hf ↦ absurd (hshows f hf) (hnone f),
    fun _ ↦ hdrives.1⟩, ⟨fun _ ↦ hdrives, fun _ hd ↦ absurd hd.2 hnot,
      fun k hf ↦ Or.inl (hshows _ hf)⟩⟩

theorem Follows.echoed (hn : Follows tr s poolId offerId n) (h₀' : s₀.NoPools)
    (hr : Run (Rcab.step dist) s₀ tr s) {db : Db} {row : SharedRide} {echo : StopEcho}
    (hheard : Heard tr s echo db row) (hid : echo.rideId = poolId)
    (he : n.Echoed echo (n.apply (.applyServerEcho echo)))
    (hitin : Itinerary tr s (n.apply (.applyServerEcho echo)))
    (hfilled : (n.apply (.applyServerEcho echo)).state.sharedRideId ≠ none →
      (n.apply (.applyServerEcho echo)).state.stops ≠ []) :
    Follows tr s poolId offerId (n.apply (.applyServerEcho echo)) ∧
      Adds poolId n (.applyServerEcho echo) (n.apply (.applyServerEcho echo)) := by
  subst hid
  generalize n.apply (.applyServerEcho echo) = n' at he hitin hfilled
  have hi := (poolsInv_of_committed h₀' hr hheard.committed).pool echo.rideId
  have hdrives : n'.Drives echo.rideId := ⟨he.trip', he.assigned'⟩
  obtain ⟨hshows, -⟩ := Echoed.shows he hheard hi hitin fun f hf ↦ by
    refine (hn.backed f hf).holds h₀' hr hheard.committed hheard.found ?_
    rw [← hheard.version]
    exact he.newer
  have hbacked : ∀ f, n'.Shows echo.rideId f → Backed tr s n' echo.rideId f := by
    intro f hf
    refine ⟨?_, db, row, hheard.committed, hheard.found, ?_, hshows f hf⟩
    · rw [he.versionTripId, hheard.version]
      exact noteVersion_versionTripId ..
    · rw [he.appliedVersion, hheard.version]
      exact le_noteVersion ..
  refine ⟨⟨hitin, hfilled, fun _ ↦ hdrives, hbacked, fun _ ↦ hdrives.1⟩,
    ⟨fun _ ↦ hdrives, ?_, ?_⟩⟩
  · rintro k - ⟨y, hy, hyk, hc⟩
    rcases he.stops with hstate | ⟨l₁, x, l₂, hl, -, hpending, hl', -⟩
    · rw [hstate]
      exact ⟨y, hy, hyk, hc⟩
    · refine ⟨y, ?_, hyk, hc⟩
      rw [hl] at hy
      rw [hl']
      rcases List.mem_append.mp hy with hy | hy
      · exact List.mem_append_left _ hy
      · rcases List.mem_cons.mp hy with rfl | hy
        · cases hpending.symm.trans hc
        · exact List.mem_append_right _ (List.mem_cons_of_mem _ hy)
  · rintro k ⟨-, y, hy, hyk, hc⟩
    have hbrings : echo.sequenceIndex = k → Brings echo.rideId k n (.applyServerEcho echo) :=
      fun hk ↦ Or.inl ⟨echo, rfl, rfl, hk, ⟨he.trip, he.assigned⟩, he.newer⟩
    rcases he.stops with hstate | ⟨l₁, x, l₂, hl, hx, -, hl', -⟩
    · exact Or.inl ⟨he.trip, y, hstate ▸ hy, hyk, hc⟩
    · rw [hl'] at hy
      rcases List.mem_append.mp hy with hy | hy
      · refine Or.inl ⟨he.trip, y, ?_, hyk, hc⟩
        rw [hl]
        exact List.mem_append_left _ hy
      · rcases List.mem_cons.mp hy with rfl | hy
        · exact Or.inr (hbrings (hx.symm.trans hyk))
        · refine Or.inl ⟨he.trip, y, ?_, hyk, hc⟩
          rw [hl]
          exact List.mem_append_right _ (List.mem_cons_of_mem _ hy)

/-- **One delivery that loses nothing** adds what it brings. -/
theorem Follows.next (hn : Follows tr s poolId offerId n) (h₀ : s₀.NoTrips) (h₀' : s₀.NoPools)
    (hr : Run (Rcab.step dist) s₀ tr s) (hi : TripMessage tr s driverId poolId offerId i)
    (hl : Lossless poolId n i) :
    Follows tr s poolId offerId (n.apply i) ∧ Adds poolId n i (n.apply i) := by
  have hitin := hn.itinerary.next h₀' hr hi.fromServer
  have hfilled := filled_next h₀ h₀' hr hi.fromServer hn.filled
  rcases hi.cases n with ⟨a, ha, hnext⟩ | ⟨hs, hstarted⟩ | ⟨echo, rfl, hid, he⟩ |
    ⟨rfl, hassigned, hnext⟩ | hnext
  · obtain ⟨db, row, hread⟩ := hi.fromServer.read h₀' hr ha
    rw [hnext] at hitin hfilled ⊢
    exact hn.takes h₀' hr hread (hi.taken_tripId ha) (hl.current a ha) ha hitin (hfilled (by simp))
  · exact hn.starts (hi.starts_tripId hs hn.offer) hs hstarted hitin hfilled
  · obtain ⟨db, row, hheard⟩ := hi.fromServer.heard h₀' hr
    exact hn.echoed h₀' hr hheard hid he hitin hfilled
  · -- Another trip is released.
    have hnot := hl.released rfl
    rw [hnext] at hitin hfilled ⊢
    exact ⟨⟨hitin, hfilled, fun h ↦ absurd (hn.heard h) hnot, fun f hf ↦ (by cases hf.1),
      fun h ↦ (by cases h)⟩, ⟨fun h ↦ absurd h hnot, fun k h ↦ absurd h hnot,
        fun k hf ↦ (by cases hf.1)⟩⟩
  · rw [hnext]
    exact ⟨hn, ⟨id, fun _ _ h ↦ h, fun _ h ↦ Or.inl h⟩⟩

/-- The outcome makes the pool the trip to drive. -/
theorem Follows.outcome (hn : Follows tr s poolId offerId n) {outcome : OfferOutcome}
    {a : DriverAssignment} (hkind : outcome.kind = .assigned)
    (hsolo : outcome.tripKind ≠ some .solo) (hoffer : outcome.offerId = offerId)
    (htrip : outcome.tripId = some poolId) (ha : outcome.assignment = some a)
    (hshared : a.isShared) (hid : a.tripId = poolId) (hown : a.offerId = some offerId) :
    (n.apply (.applyOutcome outcome)).Drives poolId := by
  show (n.applyOutcome outcome).1.Drives poolId
  unfold applyOutcome applyAssigned
  rw [if_pos hkind, if_neg hsolo]
  by_cases hmatch : n.Matches outcome
  · have hshown : n.state.sharedRideId = some poolId := by
      rcases hmatch with hmatch | ⟨-, hmatch, -⟩
      · exact hn.offer (hmatch.trans (congrArg some hoffer))
      · exact hmatch.symm.trans htrip
    have hfilter : (outcome.assignment.filter fun a ↦
        a.isShared ∧ some a.tripId = n.state.sharedRideId) = some a :=
      Option.filter_eq_some_iff.mpr ⟨ha, decide_eq_true ⟨hshared, by rw [hid, hshown]⟩⟩
    rw [if_neg (not_not.mpr hmatch), hfilter]
    exact ⟨congrArg some hid, rfl⟩
  · rw [if_pos hmatch, ha]
    dsimp only
    rw [if_pos ⟨hshared, hown.trans (congrArg some hoffer.symm)⟩]
    unfold applyAssignment
    dsimp only
    rw [if_neg (not_not.mpr hshared)]
    by_cases hold : n.isOlder a.tripId (some a.version) ∨ n.revertsCompleted a.tripId a.version
    · -- Only a version of the pool can be in the way.
      rw [if_pos hold]
      rcases hold with hold | hold
      · exact hn.heard (hid ▸ hold.1)
      · exact hn.heard (hid ▸ hold.2.1)
    · rw [if_neg hold]
      exact ⟨congrArg some hid, rfl⟩

/-- What a delivery brings is shown. -/
theorem Follows.told (hn : Follows tr s poolId offerId n) (h₀' : s₀.NoPools)
    (hr : Run (Rcab.step dist) s₀ tr s) (hi : FromServer tr s driverId i) {k : ℕ}
    (hb : Brings poolId k n i) :
    (n.apply i).Drives poolId ∧ (n.apply i).state.Tells (.confirmed k) := by
  rcases hb with ⟨echo, rfl, rfl, rfl, hd, hnew⟩ | ⟨a, ha, rfl, j, hj, hk, hc⟩
  · have he := echoed_applyServerEcho hd.1 hd.2 hnew
    obtain ⟨db, row, hheard⟩ := hi.heard h₀' hr
    obtain ⟨x, hx, hxk, -⟩ := hheard.confirmed
    refine ⟨⟨he.trip', he.assigned'⟩, he.told ?_⟩
    rw [← hxk]
    exact hn.itinerary.covers _ hd.1 (hn.filled (by rw [hd.1]; simp)) db hheard.committed x hx
  · rw [apply_of_takes ha]
    exact ⟨⟨rfl, rfl⟩, restoredStop j, mem_hydrate_stops.mpr ⟨j, hj, rfl⟩, hk,
      restoredStop_status.mpr hc⟩

end Step

/-! ## All deliveries -/

section Runs

open SharedRideNotifier

variable {D : Type u} [LinearOrder D]

theorem Itinerary.of_calls {dist : Point → Point → D} {s₀ s : Db} {tr : List (Db × Step)}
    (h₀ : s₀.NoTrips) (h₀' : s₀.NoPools) (hr : Run (Rcab.step dist) s₀ tr s) {driverId : DriverId}
    {offerSender : Bool} {calls : List (Timeline × Input)} {h : Timeline}
    (hcalls : Run (only Timeline.step fun _ i ↦ FromServer tr s driverId i)
      (.start offerSender) calls h) :
    Itinerary tr s h.now ∧ (h.now.state.sharedRideId ≠ none → h.now.state.stops ≠ []) := by
  have hstart : Itinerary tr s (Timeline.start offerSender).now :=
    ⟨List.nodup_nil, fun _ h ↦ by cases h⟩
  refine hcalls.invariant (I := fun h ↦ Itinerary tr s h.now ∧
    (h.now.state.sharedRideId ≠ none → h.now.state.stops ≠ [])) ?_
    ⟨hstart, fun h ↦ absurd rfl h⟩
  rintro h i _ ⟨hitin, hfilled⟩ ⟨rfl, hi⟩
  exact ⟨hitin.next h₀' hr hi, filled_next h₀ h₀' hr hi hfilled⟩

/-- **The notifier catches up**: a driver holds a pool and all deliveries lost nothing, the
outcome among them.  The pool is shown as the trip to drive with exactly the committed set of
confirmed stops when, and only when, a delivery brought each of them. -/
theorem catches_up (dist : Point → Point → D) {s₀ s : Db} {tr : List (Db × Step)}
    (h₀ : s₀.NoTrips) (h₀' : s₀.NoPools) (hr : Run (Rcab.step dist) s₀ tr s)
    {driverId : DriverId} {poolId : PoolId} {offerId : OfferId} {g : DriverActiveAssignment}
    (hg : s.driverActiveAssignment.get driverId = some g) (htrip : g.trip = .shared poolId)
    (hoffer : g.offerId = some offerId) {offerSender : Bool} {calls : List (Timeline × Input)}
    {h : Timeline} (hcalls : Run (only Timeline.step fun _ i ↦ FromServer tr s driverId i)
      (.start offerSender) calls h) (hwaiting : h.now.Waiting poolId offerId)
    {deliveries : List (SharedRideNotifier × Input)} {n : SharedRideNotifier}
    (hdeliveries : Run (only deliver fun n i ↦
      TripMessage tr s driverId poolId offerId i ∧ Lossless poolId n i) h.now deliveries n)
    (houtcome : ∃ x ∈ deliveries, TripOutcome tr s driverId poolId offerId x.2) :
    n.UpToDate s poolId ↔ ∀ k, (TripFact.confirmed k).Holds (s.poolView poolId).stops →
      ∃ x ∈ deliveries, Brings poolId k x.1 x.2 := by
  obtain ⟨hitin, hfilled⟩ := Itinerary.of_calls h₀ h₀' hr hcalls
  have hstart : Follows tr s poolId offerId h.now :=
    ⟨hitin, hfilled, fun h ↦ absurd h hwaiting.unheard, fun f hf ↦ absurd hf (hwaiting.unshown f),
      hwaiting.offer⟩
  have key : Follows tr s poolId offerId n ∧
      ((∃ x ∈ deliveries, TripOutcome tr s driverId poolId offerId x.2) → n.Drives poolId) ∧
      (∀ k, (∃ x ∈ deliveries, Brings poolId k x.1 x.2) →
        n.Drives poolId ∧ n.state.Tells (.confirmed k)) ∧
      ∀ k, n.Shows poolId (.confirmed k) → ∃ x ∈ deliveries, Brings poolId k x.1 x.2 := by
    refine hdeliveries.invariant_trace (I := fun deliveries n ↦ Follows tr s poolId offerId n ∧
      ((∃ x ∈ deliveries, TripOutcome tr s driverId poolId offerId x.2) → n.Drives poolId) ∧
      (∀ k, (∃ x ∈ deliveries, Brings poolId k x.1 x.2) →
        n.Drives poolId ∧ n.state.Tells (.confirmed k)) ∧
      ∀ k, n.Shows poolId (.confirmed k) → ∃ x ∈ deliveries, Brings poolId k x.1 x.2) ?_
      ⟨hstart, by simp, by simp, fun k hk ↦ absurd hk (hwaiting.unshown _)⟩
    rintro deliveries n i _ ⟨hn, hdrives, htold, hshown⟩ ⟨rfl, hi, hl⟩
    obtain ⟨hn', hadds⟩ := hn.next h₀ h₀' hr hi hl
    refine ⟨hn', ?_, fun k ↦ ?_, fun k hk ↦ ?_⟩
    · rintro ⟨x, hx, ho⟩
      rcases List.mem_append.mp hx with hx | hx
      · exact hadds.drives (hdrives ⟨x, hx, ho⟩)
      · obtain rfl := List.mem_singleton.mp hx
        obtain ⟨outcome, a, rfl, hkind, hsolo, ho, hid, ha, hshared, haid, hown⟩ :=
          ho.assignment h₀ hr hg htrip hoffer
        exact hn.outcome hkind hsolo ho hid ha hshared haid hown
    · rintro ⟨x, hx, hb⟩
      rcases List.mem_append.mp hx with hx | hx
      · obtain ⟨hd, hk⟩ := htold k ⟨x, hx, hb⟩
        exact ⟨hadds.drives hd, hadds.keeps k hd hk⟩
      · obtain rfl := List.mem_singleton.mp hx
        exact hn.told h₀' hr hi.fromServer hb
    · rcases hadds.brought k hk with hk | hb
      · obtain ⟨x, hx, hb⟩ := hshown k hk
        exact ⟨x, List.mem_append_left _ hx, hb⟩
      · exact ⟨(n, i), List.mem_append_right _ (List.mem_singleton_self _), hb⟩
  obtain ⟨hn, hdrives, htold, hshown⟩ := key
  have hd := hdrives houtcome
  constructor
  · intro hup k hk
    exact hshown k ⟨hd.1, (hup.confirmed k).mpr hk⟩
  · intro hall
    refine ⟨hd, fun k ↦ ⟨fun hk ↦ ?_, fun hk ↦ (htold k (hall k hk)).2⟩⟩
    obtain ⟨-, db, row, hc, hrow, -, hf⟩ := hn.backed _ ⟨hd.1, hk⟩
    exact ((later_last h₀' hr hc poolId).onward hrow).holds _ hf

end Runs

/-! ## Echoes out of order -/

section Sample

open SharedRideNotifier

/-- The driver was shown the offer and accepted it. -/
def sampleAccepted : Timeline := [.applyOffer sampleOffer, .accept].foldl Timeline.next (.start true)

/-- The outcome, and the echoes of both pickups. -/
def sampleDeliveries : List Input :=
  [.applyOutcome sampleOutcome, .applyServerEcho sampleEcho, .applyServerEcho sampleEcho']

/-- The later echo comes first. -/
def sampleReordered : List Input :=
  [.applyOutcome sampleOutcome, .applyServerEcho sampleEcho', .applyServerEcho sampleEcho]

theorem sampleAccepted_calls : Run (only Timeline.step fun _ i ↦
    FromServer sampleTrace (sampleAt 6) 7 i) (.start true)
      (traceOf Timeline.next (.start true) [.applyOffer sampleOffer, .accept]) sampleAccepted := by
  have hall : Enabled (fun _ i ↦ FromServer sampleTrace (sampleAt 6) 7 i) Timeline.next
      (.start true) [.applyOffer sampleOffer, .accept] :=
    ⟨sampleOffer_fromServer, .accept, trivial⟩
  exact Run.of_enabled _ (fun _ _ h ↦ ⟨rfl, h⟩) _ hall

theorem sampleAccepted_waiting : sampleAccepted.now.Waiting 1 20 where
  unheard := by decide
  undriven := by decide
  unshown f := by
    rintro ⟨-, hf⟩
    cases f with
    | confirmed k =>
        obtain ⟨x, hx, -, hc⟩ := hf
        revert x
        decide
    | completed => cases hf
  offer := by decide

theorem sampleAt_guard :
    (sampleAt 6).driverActiveAssignment.get 7 = some ⟨7, .shared 1, some 20, 1, 60002⟩ := by
  decide +kernel

theorem sampleOutcome_tripOutcome :
    TripOutcome sampleTrace (sampleAt 6) 7 1 20 (.applyOutcome sampleOutcome) := by
  obtain ⟨db', hok⟩ := sampleAt_accept
  rw [sampleOutcome_eq]
  have htr : sampleTrace = sampleTrace.take 3 ++
      (sampleAt 3, sampleCommits.get ⟨3, by decide⟩) :: sampleTrace.drop 4 := rfl
  exact .mk htr rfl hok (Or.inr ⟨(sampleAt 4, sampleCommits.get ⟨4, by decide⟩),
    List.mem_cons_self, rfl⟩)

theorem sampleEcho_message :
    TripMessage sampleTrace (sampleAt 6) 7 1 20 (.applyServerEcho sampleEcho) := by
  obtain ⟨db', r, hok, hecho⟩ := sampleEcho_sent
  exact .echo (sampleAt_mem (k := 4) (by decide)) rfl rfl rfl hok hecho

theorem sampleEcho'_message :
    TripMessage sampleTrace (sampleAt 6) 7 1 20 (.applyServerEcho sampleEcho') := by
  obtain ⟨db', r, hok, hecho⟩ := sampleEcho'_sent
  exact .echo (sampleAt_mem (k := 5) (by decide)) rfl rfl rfl hok hecho

/-- Only the pickups are confirmed. -/
theorem sampleAt_confirmed {k : ℕ}
    (h : (TripFact.confirmed k).Holds ((sampleAt 6).poolView 1).stops) : k = 0 ∨ k = 1 := by
  have hall : ∀ x ∈ ((sampleAt 6).poolView 1).stops, x.confirmedAt ≠ none →
      x.sequenceIndex = 0 ∨ x.sequenceIndex = 1 := by decide +kernel
  obtain ⟨x, hx, rfl, hc⟩ := h
  exact hall x hx hc

/-- **An echo that a later one overtakes is lost.** -/
theorem overtaken_echo_lost : ¬ ∀ (s₀ s : Db) (tr : List (Db × Step)) (driverId : DriverId)
    (poolId : PoolId) (offerId : OfferId) (g : DriverActiveAssignment) (offerSender : Bool)
    (calls : List (Timeline × Input)) (h : Timeline)
    (deliveries : List (SharedRideNotifier × Input)) (n : SharedRideNotifier),
    s₀.NoTrips → s₀.NoPools → Run (Rcab.step (D := ℕ) fun _ _ ↦ 0) s₀ tr s →
    s.driverActiveAssignment.get driverId = some g → g.trip = .shared poolId →
    g.offerId = some offerId →
    Run (only Timeline.step fun _ i ↦ FromServer tr s driverId i) (.start offerSender) calls h →
    h.now.Waiting poolId offerId →
    Run (only deliver fun _ i ↦ TripMessage tr s driverId poolId offerId i) h.now deliveries n →
    (∃ x ∈ deliveries, TripOutcome tr s driverId poolId offerId x.2) →
    (∀ k, (TripFact.confirmed k).Holds (s.poolView poolId).stops →
      ∃ x ∈ deliveries, ∃ echo, x.2 = .applyServerEcho echo ∧ echo.sequenceIndex = k) →
    n.UpToDate s poolId := by
  intro h
  have hall : Enabled (fun _ i ↦ TripMessage sampleTrace (sampleAt 6) 7 1 20 i)
      SharedRideNotifier.apply sampleAccepted.now sampleReordered :=
    ⟨.outcome sampleOutcome_tripOutcome, sampleEcho'_message, sampleEcho_message, trivial⟩
  have hrun := Run.of_enabled (only deliver fun _ i ↦ TripMessage sampleTrace (sampleAt 6) 7 1 20 i)
    (fun _ _ h ↦ ⟨rfl, h⟩) _ hall
  have hup := h .empty (sampleAt 6) sampleTrace 7 1 20 _ true _ _ _ _ Db.empty_noTrips
    Db.empty_noPools sampleTrace_run sampleAt_guard rfl rfl sampleAccepted_calls
    sampleAccepted_waiting hrun ⟨_, List.mem_cons_self, sampleOutcome_tripOutcome⟩ ?_
  · have hshown := (hup.confirmed 0).mpr (by
      show ∃ x ∈ _, _
      decide +kernel)
    exact absurd hshown (by decide)
  · intro k hk
    rcases sampleAt_confirmed hk with rfl | rfl
    · exact ⟨_, List.mem_cons_of_mem _ (List.mem_cons_of_mem _ List.mem_cons_self),
        sampleEcho, rfl, rfl⟩
    · exact ⟨_, List.mem_cons_of_mem _ List.mem_cons_self, sampleEcho', rfl, rfl⟩

/-- In order, both are shown. -/
theorem catches_up_sample :
    (sampleDeliveries.foldl SharedRideNotifier.apply sampleAccepted.now).UpToDate (sampleAt 6) 1 := by
  have hecho : ∀ {n : SharedRideNotifier} {echo : StopEcho},
      Lossless 1 n (.applyServerEcho echo) :=
    ⟨fun h ↦ (by cases h), fun _ h ↦ h.elim⟩
  have houtcome : Lossless 1 sampleAccepted.now (.applyOutcome sampleOutcome) := by
    refine ⟨fun h ↦ (by cases h), ?_⟩
    rintro a ⟨-, -, ha, -⟩
    obtain rfl := Option.some.inj ha
    decide
  have hall : Enabled (fun n i ↦ TripMessage sampleTrace (sampleAt 6) 7 1 20 i ∧ Lossless 1 n i)
      SharedRideNotifier.apply sampleAccepted.now sampleDeliveries :=
    ⟨⟨.outcome sampleOutcome_tripOutcome, houtcome⟩, ⟨sampleEcho_message, hecho⟩,
      ⟨sampleEcho'_message, hecho⟩, trivial⟩
  have hrun := Run.of_enabled (only deliver fun n i ↦
    TripMessage sampleTrace (sampleAt 6) 7 1 20 i ∧ Lossless 1 n i) (fun _ _ h ↦ ⟨rfl, h⟩) _ hall
  refine (catches_up (D := ℕ) (fun _ _ ↦ 0) Db.empty_noTrips Db.empty_noPools sampleTrace_run
    sampleAt_guard rfl rfl sampleAccepted_calls sampleAccepted_waiting hrun
    ⟨_, List.mem_cons_self, sampleOutcome_tripOutcome⟩).mpr fun k hk ↦ ?_
  rcases sampleAt_confirmed hk with rfl | rfl
  · exact ⟨_, List.mem_cons_of_mem _ List.mem_cons_self,
      Or.inl ⟨sampleEcho, rfl, rfl, rfl, by decide, by decide⟩⟩
  · exact ⟨_, List.mem_cons_of_mem _ (List.mem_cons_of_mem _ List.mem_cons_self),
      Or.inl ⟨sampleEcho', rfl, rfl, rfl, by decide, by decide⟩⟩

/-- A snapshot that was read before the claim releases the pool. -/
example : ¬ ((sampleDeliveries.foldl SharedRideNotifier.apply sampleAccepted.now).apply
    (.applyAssignment none)).Drives 1 := by decide

end Sample

end Rcab.DriverApp
