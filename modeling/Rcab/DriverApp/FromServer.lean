import Rcab.DriverApp.Steps

/-!
# What the server sends a driver

Every message is built from a committed state of some run of the trips, read at any time after
the transaction it answers; it may come late, twice, or after later ones.
-/

universe u

namespace Rcab.DriverApp

open Dispatch (Accounts AcceptOutcome CreatedOffer assignedOutcome sharedRideOffer)
open Realtime (DriverAssignmentView driverAssignment driverStopView)
open RideLifecycle (StopConfirmInput StopConfirmResult StopConfirmed StopEcho confirmStop)

/-- The driver's own calls, and what the server may have built for the driver in the run. -/
inductive FromServer (tr : List (Db × Step)) (s : Db) (driverId : DriverId) : Input → Prop
  | accept : FromServer tr s driverId .accept
  | decline : FromServer tr s driverId .decline
  | tick : FromServer tr s driverId .tick
  | ackTimedOut : FromServer tr s driverId .ackTimedOut
  | resolveUndecidedAccept : FromServer tr s driverId .resolveUndecidedAccept
  | reset : FromServer tr s driverId .reset
  | offer {db : Db} {pool : SharedRide} {created : CreatedOffer} {ttlMs : Int} {waveNumber : ℕ}
      {payload : Dispatch.SharedRideOfferPayload} {offer : SharedRideOffer}
      (hc : Committed tr s db) (hrow : db.sharedRides.get pool.rideId = some pool)
      (hp : sharedRideOffer db pool created ttlMs waveNumber = some payload)
      (ho : SharedRideOffer.fromPayload payload = some offer) :
      FromServer tr s driverId (.applyOffer offer)
  /-- The event of an accept that committed, with what was read of the assignment. -/
  | assigned {x : Db × Step} {t : TxClock} {accounts : Accounts} {offerId : OfferId}
      {trip : TripRef} {generation : ℕ} {replay : Bool} {revoked : List Dispatch.RevokedOffer}
      {db db' : Db} (hx : x ∈ tr) (hstep : x.2 = .acceptInTx t accounts offerId driverId trip)
      (hok : Dispatch.acceptInTx t x.1 accounts offerId driverId trip =
        .ok (db', ⟨.ok trip generation replay, revoked⟩)) (hc : Committed tr s db) :
      FromServer tr s driverId
        (.applyOutcome (.fromPayload (assignedOutcome db driverId offerId trip generation)))
  /-- The ack of an accept that committed. -/
  | ack {x : Db × Step} {t : TxClock} {accounts : Accounts} {offerId : OfferId}
      {trip : TripRef} {generation : ℕ} {replay : Bool} {revoked : List Dispatch.RevokedOffer}
      {db' : Db} (hx : x ∈ tr) (hstep : x.2 = .acceptInTx t accounts offerId driverId trip)
      (hok : Dispatch.acceptInTx t x.1 accounts offerId driverId trip =
        .ok (db', ⟨.ok trip generation replay, revoked⟩)) :
      FromServer tr s driverId (.applyOutcome (.fromAck offerId (.ok trip generation replay)))
  /-- Whatever refuses, revokes or declines an offer. -/
  | refused {outcome : OfferOutcome} (hkind : outcome.kind ≠ .assigned) :
      FromServer tr s driverId (.applyOutcome outcome)
  | snapshot {db : Db} (hc : Committed tr s db) :
      FromServer tr s driverId (.applyAssignment ((driverAssignment db driverId).map .fromView))
  | echo {x : Db × Step} {t : TxClock} {input : StopConfirmInput} {db' : Db} {dateNow : Time}
      {r : StopConfirmResult} {echo : StopEcho} (hx : x ∈ tr) (hstep : x.2 = .confirmStop t input)
      (hdriver : input.driverId = driverId) (hok : confirmStop t x.1 input = .ok (db', r))
      (hecho : r.echo dateNow input = some echo) : FromServer tr s driverId (.applyServerEcho echo)

/-- The itinerary as it was read of a committed pool. -/
structure Read (tr : List (Db × Step)) (s : Db) (a : DriverAssignment) (db : Db)
    (row : SharedRide) : Prop where
  committed : Committed tr s db
  found : db.sharedRides.get a.tripId = some row
  version : a.version = row.stateVersion
  stops : a.stops = (db.poolView a.tripId).stops.map driverStopView

/-- An echo as it was sent of a committed pool. -/
structure Heard (tr : List (Db × Step)) (s : Db) (echo : StopEcho) (db : Db) (row : SharedRide) :
    Prop where
  committed : Committed tr s db
  found : db.sharedRides.get echo.rideId = some row
  version : echo.version = some row.stateVersion
  confirmed : (TripFact.confirmed echo.sequenceIndex).Holds (db.poolView echo.rideId).stops
  completed : echo.rideCompleted = true ↔ TripFact.completed.Holds (db.poolView echo.rideId).stops

variable {tr : List (Db × Step)} {s db : Db} {driverId : DriverId}

/-- A shared assignment is read of the driver's guard and its pool. -/
theorem driverAssignment_shared {view : DriverAssignmentView}
    (h : driverAssignment db driverId = some view)
    (hshared : (DriverAssignment.fromView view).isShared) :
    ∃ g row, db.driverActiveAssignment.get driverId = some g ∧ g.trip = .shared view.tripId ∧
      db.sharedRides.get view.tripId = some row ∧
        DriverAssignment.fromView view = ⟨.shared, view.tripId, g.offerId, g.dispatchGeneration,
          row.stateVersion, (Matching.findByRideId db view.tripId).map driverStopView⟩ := by
  unfold driverAssignment at h
  split at h
  · cases h
  rename_i g hg
  split at h
  · obtain ⟨r, -, rfl⟩ := Option.map_eq_some_iff.mp h
    cases hshared
  · rename_i poolId htrip
    obtain ⟨row, hrow, rfl⟩ := Option.map_eq_some_iff.mp h
    exact ⟨g, row, hg, htrip, hrow, rfl⟩

/-- It tells the committed itinerary. -/
theorem read_of_assignment (hi : PoolsInv db) (hc : Committed tr s db)
    {view : DriverAssignmentView} (h : driverAssignment db driverId = some view)
    (hshared : (DriverAssignment.fromView view).isShared) :
    ∃ row, Read tr s (.fromView view) db row := by
  obtain ⟨g, row, -, -, hrow, heq⟩ := driverAssignment_shared h hshared
  rw [heq]
  exact ⟨row, hc, hrow, rfl, by rw [(hi.pool view.tripId).findByRideId_eq]⟩

section Runs

variable {D : Type u} [LinearOrder D] {dist : Point → Point → D} {s₀ : Db} {i : Input}
  {n : SharedRideNotifier} {a : DriverAssignment}

/-- What the notifier takes up is an assignment of the driver. -/
theorem FromServer.taken (h : FromServer tr s driverId i) (ht : n.Takes i a) :
    a.isShared ∧ ∃ db view, Committed tr s db ∧ driverAssignment db driverId = some view ∧
      .fromView view = a := by
  cases h with
  | assigned hx hstep hok hc =>
      rename_i db _
      obtain ⟨-, -, ha, hshared, -⟩ := ht
      obtain ⟨view, hview, rfl⟩ := Option.map_eq_some_iff.mp ha
      obtain ⟨hview, -⟩ := Option.filter_eq_some_iff.mp hview
      exact ⟨hshared, db, view, hc, hview, rfl⟩
  | ack hx hstep hok =>
      obtain ⟨-, -, ha, -⟩ := ht
      cases ha
  | refused hkind => exact absurd ht.1 hkind
  | snapshot hc =>
      rename_i db
      cases hview : driverAssignment db driverId with
      | none =>
          rw [hview] at ht
          exact ht.elim
      | some view =>
          rw [hview] at ht
          obtain ⟨rfl, hshared, -⟩ := ht
          exact ⟨hshared, db, view, hc, hview, rfl⟩
  | _ => exact ht.elim

/-- **What the notifier takes up was read of a committed pool.** -/
theorem FromServer.read (h₀ : s₀.NoPools) (hr : Run (step dist) s₀ tr s)
    (h : FromServer tr s driverId i) (ht : n.Takes i a) : ∃ db row, Read tr s a db row := by
  obtain ⟨hshared, db, view, hc, hview, rfl⟩ := h.taken ht
  exact ⟨db, read_of_assignment (poolsInv_of_committed h₀ hr hc) hc hview hshared⟩

/-- **An echo tells a committed pool.** -/
theorem FromServer.heard {echo : StopEcho} (h₀ : s₀.NoPools) (hr : Run (step dist) s₀ tr s)
    (h : FromServer tr s driverId (.applyServerEcho echo)) : ∃ db row, Heard tr s echo db row := by
  cases h with
  | echo hx hstep hdriver hok hecho =>
      rename_i x t input db' dateNow r
      have hi := poolsInv_of_committed h₀ hr (Or.inr ⟨x, hx, rfl⟩)
      have hc := committed_exec hr hx
      rw [hstep, show exec dist x.1 (.confirmStop t input) = db' from by
        show (confirmStop t x.1 input).commit x.1 = db'
        rw [hok]
        rfl] at hc
      cases r with
      | failed reason => cases hecho
      | ok c =>
          obtain rfl := Option.some.inj hecho
          obtain ⟨row, hrow, hv, hstop, hdone⟩ := confirmStop_echo (hi.pool input.rideId) hok
          exact ⟨db', row, hc, hrow, congrArg some hv, hstop, hdone⟩

/-- The stops of an offer are those of a committed pool. -/
theorem FromServer.offered {o : SharedRideOffer} (h₀ : s₀.NoPools) (hr : Run (step dist) s₀ tr s)
    (h : FromServer tr s driverId (.applyOffer o)) :
    o.stops ≠ [] ∧ ∃ db row, Committed tr s db ∧ db.sharedRides.get o.sharedRideId = some row ∧
      o.stops.map SharedRideStop.sequenceIndex =
        (db.poolView o.sharedRideId).stops.map RideStop.sequenceIndex := by
  cases h with
  | offer hc hrow hp ho =>
      rename_i db pool created ttlMs waveNumber payload
      have hi := poolsInv_of_committed h₀ hr hc
      unfold sharedRideOffer at hp
      dsimp only at hp
      split_ifs at hp
      obtain rfl := Option.some.inj hp
      unfold SharedRideOffer.fromPayload at ho
      split_ifs at ho with hnil
      obtain rfl := Option.some.inj ho
      refine ⟨fun h ↦ hnil (List.map_eq_nil_iff.mp h), db, pool, hc, hrow, ?_⟩
      show (((Matching.findByRideId db pool.rideId).map _).map _).map _ = _
      rw [(hi.pool pool.rideId).findByRideId_eq, List.map_map, List.map_map]
      rfl

end Runs

end Rcab.DriverApp
