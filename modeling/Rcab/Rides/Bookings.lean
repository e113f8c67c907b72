import Rcab.Rides.Simulation

/-!
# What a ride was booked as

The scope and the fingerprint of a ride are written once.  A transaction other than a create adds
no ride and leaves every booking as it is (`bookingsKept_exec`).  A ride has one intent of its
creation, and an intent of a creation its ride (`Enqueued`).
-/

universe u

namespace Rcab

open Dispatch

/-- What identifies the request a ride was created by. -/
structure Booking where
  scope : IdempotencyScope
  requestFingerprint : Option String
  type : RideType
deriving DecidableEq

def Ride.scope (r : Ride) : IdempotencyScope :=
  ⟨r.passengerId, r.idempotencyOperation, r.idempotencyKey⟩

def Ride.booking (r : Ride) : Booking := ⟨r.scope, r.requestFingerprint, r.type⟩

/-- The rides are the same ones, booked as before. -/
def BookingsKept (db db' : Db) : Prop :=
  ∀ id, (db'.rides.get id).map Ride.booking = (db.rides.get id).map Ride.booking

namespace BookingsKept

variable {db db' db'' : Db}

theorem refl : BookingsKept db db := fun _ ↦ rfl

theorem trans (h : BookingsKept db db') (h' : BookingsKept db' db'') : BookingsKept db db'' :=
  fun id ↦ (h' id).trans (h id)

theorem of_eq (h : db'.rides = db.rides) : BookingsKept db db' := fun _ ↦ by rw [h]

theorem of_kept (h : RidesKept db db') : BookingsKept db db' := fun id ↦
  congrArg (Option.map Ride.booking) (congrArg RideView.row (h id))

/-- An update of anything else of a ride. -/
theorem update {p : Ride → Prop} [DecidablePred p] {f : Ride → Ride}
    (h : ∀ hf, db'.rides = db.rides.update p f hf) (hf : ∀ r, (f r).id = r.id)
    (hb : ∀ r, (f r).booking = r.booking) : BookingsKept db db' := by
  intro id
  rw [h hf, Table.get_update, Option.map_map]
  congr 1
  funext r
  simp only [Function.comp_apply]
  split_ifs
  · exact hb r
  · rfl

/-- A ride of one is a ride of the other, booked the same. -/
theorem of_mem (h : BookingsKept db db') {a : Ride} (ha : a ∈ db'.rides) :
    ∃ b ∈ db.rides, b.id = a.id ∧ b.booking = a.booking := by
  have hb := h a.id
  rw [Table.get_of_mem ha, Option.map_some] at hb
  obtain ⟨b, hb, heq⟩ := Option.map_eq_some_iff.mp hb.symm
  exact ⟨b, Table.mem_of_get hb, Table.key_of_get hb, heq⟩

theorem symm (h : BookingsKept db db') : BookingsKept db' db := fun id ↦ (h id).symm

end BookingsKept

variable {t : TxClock} {db db' : Db} {rideId : RideId}

theorem bookingsKept_claimSoloRow {driverId : DriverId} {g : ℕ} {u : Unit}
    (h : claimSoloRow t db rideId driverId g = .ok (db', u)) : BookingsKept db db' := by
  simp only [claimSoloRow] at h
  split_ifs at h
  obtain ⟨rfl, -⟩ := Tx.ok_inj h
  exact .update (fun _ ↦ rfl) (fun _ ↦ rfl) fun _ ↦ rfl

theorem bookingsKept_claimRow {trip : TripRef} {driverId : DriverId} {g : ℕ} {u : Unit}
    (h : claimRow t db trip driverId g = .ok (db', u)) : BookingsKept db db' := by
  cases trip with
  | solo rideId => exact bookingsKept_claimSoloRow h
  | shared poolId => exact .of_kept (ridesKept_claimSharedRow h)

theorem bookingsKept_acceptInTx {accounts : Accounts} {offerId : OfferId} {driverId : DriverId}
    {trip : TripRef} {out : AcceptOutcome}
    (h : acceptInTx t db accounts offerId driverId trip = .ok (db', out)) : BookingsKept db db' :=
  AcceptRule.acceptInTx
    { refl := fun _ ↦ .refl
      trans := fun _ _ _ h h' ↦ h.trans h'
      offers := fun _ _ ↦ .of_eq rfl
      guards := fun _ _ ↦ .of_eq rfl
      claim := fun _ _ _ _ h _ ↦ bookingsKept_claimRow h } h

theorem bookingsKept_claimSolo {driverId : DriverId} {r : Option Ride}
    (h : Rides.claimSolo t db rideId driverId = .ok (db', r)) : BookingsKept db db' := by
  obtain rfl | ⟨ride, db₁, db₂, u, -, -, h₁, h₂, rfl⟩ := Rides.claimSolo_eq_ok h
  · exact .refl
  have hguard : db₁.rides = db.rides := by
    rcases acquire_eq_ok h₁ with ⟨-, rfl⟩ | ⟨-, -, rfl⟩ <;> rfl
  have hclaim : BookingsKept db₁ db₂ := bookingsKept_claimSoloRow h₂
  exact (BookingsKept.of_eq hguard).trans (hclaim.trans (.of_eq rfl))

theorem bookingsKept_markNoDriver {generation : Option ℕ} :
    BookingsKept db (Rides.markNoDriver t db rideId generation).1 := by
  rcases Rides.markNoDriver_cases t db rideId generation with h | ⟨_, _, -, -, h⟩ <;> rw [h]
  · exact .refl
  · exact .update (fun _ ↦ rfl) (fun _ ↦ rfl) fun _ ↦ rfl

theorem bookingsKept_rearmScheduledRide {expectedGeneration : Option ℕ} :
    BookingsKept db (Scheduled.rearmScheduledRide t db rideId expectedGeneration).1 := by
  rcases Scheduled.rearmScheduledRide_cases t db rideId expectedGeneration with
    h | ⟨r, -, -, -, h⟩
  · rw [h]
    exact .refl
  · rw [h]
    exact .update (fun _ ↦ rfl) (fun _ ↦ rfl) fun _ ↦ rfl

theorem bookingsKept_transition {dateNow : Time} {driverId : DriverId} {source target : RideStatus} :
    BookingsKept db (Rides.transition db dateNow rideId driverId source target).1 := by
  have hadv : ∀ r, (Rides.advance dateNow target r).booking = r.booking := by
    intro r
    cases target <;> rfl
  rcases Rides.transition_cases db dateNow rideId driverId source target with
    h | ⟨_, -, -, -, ⟨-, h⟩ | ⟨-, h⟩⟩ <;> rw [h]
  · exact .refl
  · exact .update (fun _ ↦ rfl) (by simp) hadv
  · exact .update (fun _ ↦ rfl) (by simp) hadv

theorem bookingsKept_cancel {dateNow : Time} {params : Rides.CancelRide} :
    BookingsKept db (Rides.cancel t db dateNow params).1 := by
  rcases Rides.cancel_cases t db dateNow params with h | ⟨current, _, _, -, -, rfl, h⟩ <;> rw [h]
  · exact .refl
  · cases current.driverId <;> exact .update (fun _ ↦ rfl) (fun _ ↦ rfl) fun _ ↦ rfl

/-- The step is not the create of a ride. -/
def Step.NotCreate : Step → Prop
  | .createRide _ _ => False
  | _ => True

variable {D : Type u} [LinearOrder D] (dist : Point → Point → D)

theorem bookingsKept_exec {e : Step} (he : e.NotCreate) : BookingsKept db (exec dist db e) := by
  cases e with
  | createRide t params => exact he.elim
  | createOffer t newId locked p =>
      exact Tx.commit_of (fun _ _ h ↦ .of_kept (ridesKept_createOffer h)) .refl
  | acceptInTx t accounts offerId driverId trip =>
      exact Tx.commit_of (fun _ _ h ↦ bookingsKept_acceptInTx h) .refl
  | decline t offerId driverId => exact .of_kept ridesKept_decline
  | expireLapsed t locked => exact .of_eq rfl
  | claimSolo t rideId driverId => exact Tx.commit_of (fun _ _ h ↦ bookingsKept_claimSolo h) .refl
  | transition dateNow rideId driverId event => exact bookingsKept_transition
  | cancel t dateNow params => exact bookingsKept_cancel
  | markNoDriver t rideId generation => exact bookingsKept_markNoDriver
  | rearmScheduledRide t rideId expectedGeneration => exact bookingsKept_rearmScheduledRide
  | wakeScheduled rideId generation => exact .update (fun _ ↦ rfl) (fun _ ↦ rfl) fun _ ↦ rfl
  | openPool t p => exact Tx.commit_of (fun _ _ h ↦ .of_kept (ridesKept_openPool h)) .refl
  | joinPool t p => exact Tx.commit_of (fun _ _ h ↦ .of_kept (ridesKept_joinPool h)) .refl
  | closeIfOpen t poolId => exact Tx.commit_of (fun _ _ h ↦ .of_kept (ridesKept_closeIfOpen h)) .refl
  | hardFailPool t poolId generation => exact .of_kept ridesKept_hardFailPool
  | confirmStop t input => exact Tx.commit_of (fun _ _ h ↦ .of_kept (ridesKept_confirmStop h)) .refl

/-! ## The intent of a ride's creation -/

/-- The work intent a ride is created with: to dispatch it, or to wake it. -/
def Ride.creationKey (r : Ride) : DedupeKey where
  topic := if r.type = .scheduled then .rideWakeSchedule else .rideDispatchRequested
  aggregateId := r.id
  generation := 1

/-- The first generation's intent of some ride. -/
def OutboxRow.IsCreation (row : OutboxRow) : Prop :=
  (row.dedupeKey.topic = .rideDispatchRequested ∨ row.dedupeKey.topic = .rideWakeSchedule) ∧
    row.dedupeKey.generation = 1

/-- The ride has the intent of its creation and not the other kind; a ride that is not there has
none. -/
structure Enqueued (v : RideView) : Prop where
  absent : v.row = none → v.dispatch = ∅ ∧ v.wake = ∅
  normal : ∀ r, v.row = some r → r.type ≠ .scheduled → 1 ∈ v.dispatch ∧ 1 ∉ v.wake
  scheduled : ∀ r, v.row = some r → r.type = .scheduled → 1 ∈ v.wake ∧ 1 ∉ v.dispatch

namespace Enqueued

variable {wakes : ℕ → Prop} {v v' : RideView} {id : RideId}

theorem of_some {r : Ride} (hr : v.row = some r)
    (hn : r.type ≠ .scheduled → 1 ∈ v.dispatch ∧ 1 ∉ v.wake)
    (hs : r.type = .scheduled → 1 ∈ v.wake ∧ 1 ∉ v.dispatch) : Enqueued v where
  absent h := by rw [hr] at h; cases h
  normal r' h ht := by
    obtain rfl := Option.some.inj (hr.symm.trans h)
    exact hn ht
  scheduled r' h ht := by
    obtain rfl := Option.some.inj (hr.symm.trans h)
    exact hs ht

theorem step (h : Enqueued v) (hst : RideStep wakes v v') : Enqueued v' := by
  cases hst with
  | created r hrow hs ht hg =>
      obtain ⟨-, hw⟩ := h.absent hrow
      refine .of_some rfl (fun _ ↦ ⟨Set.mem_insert _ _, ?_⟩) fun ht' ↦ absurd ht' ht
      rw [hw]
      exact Set.notMem_empty _
  | booked r hrow hs ht hg =>
      obtain ⟨hd, -⟩ := h.absent hrow
      refine .of_some rfl (fun ht' ↦ absurd ht ht') fun _ ↦ ⟨Set.mem_insert _ _, ?_⟩
      rw [hd]
      exact Set.notMem_empty _
  | woken r g hrow hs ht hg hw =>
      exact .of_some rfl (fun ht' ↦ absurd ht ht') fun _ ↦ h.scheduled r hrow ht
  | rearmed r hrow hr =>
      -- A window after the first has a generation of its own.
      obtain ⟨hw, hd⟩ := h.scheduled r hrow hr.type
      refine .of_some rfl (fun ht' ↦ absurd hr.type ht') fun _ ↦ ⟨hw, ?_⟩
      rintro (he | hin)
      · have hwoken := hr.woken
        omega
      · exact hd hin
  | moved r r' hrow hm =>
      exact .of_some rfl (fun ht ↦ h.normal r hrow (hm.type ▸ ht))
        fun ht ↦ h.scheduled r hrow (hm.type ▸ ht)

/-- The one intent of a ride's creation. -/
theorem existsUnique (h : Enqueued (db.rideView id)) {a : Ride} (ha : db.rides.get id = some a) :
    ∃ row ∈ db.outbox, row.dedupeKey = a.creationKey ∧
      ∀ row' ∈ db.outbox, row'.IsCreation → row'.dedupeKey.aggregateId = id → row' = row := by
  have hid : a.id = id := Table.key_of_get ha
  -- The row of the key, and no row of the other topic.
  have hsolve : ∀ topic other : OutboxTopic, a.creationKey.topic = topic →
      (db.outbox.get ⟨topic, id, 1⟩).isSome → ¬ (db.outbox.get ⟨other, id, 1⟩).isSome →
      (∀ row : OutboxRow, row.IsCreation →
        row.dedupeKey.topic = topic ∨ row.dedupeKey.topic = other) →
      ∃ row ∈ db.outbox, row.dedupeKey = a.creationKey ∧
        ∀ row' ∈ db.outbox, row'.IsCreation → row'.dedupeKey.aggregateId = id → row' = row := by
    intro topic other ht hsome hnone hor
    obtain ⟨row, hrow⟩ := Option.isSome_iff_exists.mp hsome
    have hkey : row.dedupeKey = a.creationKey := by
      rw [Table.key_of_get hrow, ← ht, ← hid]
      rfl
    refine ⟨row, Table.mem_of_get hrow, hkey, fun row' hrow' hc hagg ↦ ?_⟩
    have hkey' : row'.dedupeKey = ⟨row'.dedupeKey.topic, id, 1⟩ := by
      rw [← hagg, ← hc.2]
    rcases hor row' hc with h | h
    · refine Table.unique hrow' (Table.mem_of_get hrow) ?_
      rw [hkey', h, Table.key_of_get hrow]
    · refine absurd ?_ hnone
      rw [← h, ← hkey', Table.get_of_mem hrow']
      rfl
  by_cases ht : a.type = .scheduled
  · obtain ⟨hw, hd⟩ := h.scheduled a ha ht
    exact hsolve .rideWakeSchedule .rideDispatchRequested (by simp [Ride.creationKey, ht]) hw hd
      fun _ hc ↦ hc.1.symm
  · obtain ⟨hd, hw⟩ := h.normal a ha ht
    exact hsolve .rideDispatchRequested .rideWakeSchedule (by simp [Ride.creationKey, ht]) hd hw
      fun _ hc ↦ hc.1

/-- An intent of creation is a ride's. -/
theorem exists_ride (h : Enqueued (db.rideView id)) {row : OutboxRow} (hrow : row ∈ db.outbox)
    (hc : row.IsCreation) (hid : row.dedupeKey.aggregateId = id) : (db.rides.get id).isSome := by
  cases hr : db.rides.get id with
  | some r => rfl
  | none =>
      obtain ⟨hd, hw⟩ := h.absent hr
      have hkey : row.dedupeKey = ⟨row.dedupeKey.topic, id, row.dedupeKey.generation⟩ := by
        rw [← hid]
      have hin : ∀ topic, row.dedupeKey.topic = topic →
          (db.outbox.get ⟨topic, id, row.dedupeKey.generation⟩).isSome := by
        intro topic ht
        rw [← ht, ← hkey, Table.get_of_mem hrow]
        rfl
      rcases hc.1 with ht | ht
      · have hg : row.dedupeKey.generation ∈ (db.rideView id).dispatch := hin _ ht
        rw [hd] at hg
        exact hg.elim
      · have hg : row.dedupeKey.generation ∈ (db.rideView id).wake := hin _ ht
        rw [hw] at hg
        exact hg.elim

end Enqueued

end Rcab
