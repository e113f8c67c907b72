import Rcab.Dispatch.Types

/-!
# The offer repository

`offer.repository.ts`, one definition for each statement.  `SKIP LOCKED` makes two
of them depend on which rows other transactions hold at that instant; those rows
are the argument `locked`.
-/

namespace Rcab.Dispatch

/-- `state = 'offered'`. -/
def Live (o : DispatchOffer) : Prop := o.state = .offered

instance : DecidablePred Live := fun o ↦ inferInstanceAs (Decidable (o.state = .offered))

theorem live_iff {o : DispatchOffer} : Live o ↔ o.state = .offered := Iff.rfl

/-- `expires_at <= clock_timestamp()`. -/
def Lapsed (clock : Time) (o : DispatchOffer) : Prop := o.expiresAt ≤ clock

instance {clock : Time} : DecidablePred (Lapsed clock) :=
  fun o ↦ inferInstanceAs (Decidable (o.expiresAt ≤ clock))

/-- `SET state = …, resolved_at = clock_timestamp()`. -/
def resolve (clock : Time) (target : DispatchOfferState) (o : DispatchOffer) : DispatchOffer :=
  { o with state := target, resolvedAt := some clock }

@[simp] theorem resolve_id (clock : Time) (target : DispatchOfferState) (o : DispatchOffer) :
    (resolve clock target o).id = o.id := rfl

/-- `UPDATE dispatch_offer SET state = target, resolved_at = clock_timestamp()
WHERE state = 'offered' AND p`. -/
def resolveWhere (clock : Time) (db : Db) (target : DispatchOfferState) (p : DispatchOffer → Prop)
    [DecidablePred p] : Db :=
  { db with
    dispatchOffer := db.dispatchOffer.update (fun o ↦ Live o ∧ p o) (resolve clock target)
      (resolve_id clock target) }

/-- The trip can still be dispatched at this generation. -/
def Dispatchable (db : Db) (trip : TripRef) (generation : Nat) : Prop :=
  match trip with
  | .solo rideId => db.rides.Any fun r ↦
      r.id = rideId ∧ r.status = .requested ∧ r.driverId = none ∧ r.dispatchGeneration = generation
  | .shared poolId => db.sharedRides.Any fun s ↦
      s.rideId = poolId ∧ s.poolState.Claimable ∧ s.claimedByDriverId = none ∧
        s.dispatchGeneration = generation

instance {db : Db} {trip : TripRef} {generation : Nat} :
    Decidable (Dispatchable db trip generation) := by
  cases trip <;> unfold Dispatchable <;> infer_instance

structure CreateOffer where
  trip : TripRef
  driverId : DriverId
  generation : Nat
  waveNumber : Nat
  /-- Already rounded. -/
  ttlMs : Int
deriving DecidableEq, Repr

structure CreatedOffer where
  offerId : OfferId
  expiresAt : Time
deriving DecidableEq, Repr

/-- The row `INSERT INTO dispatch_offer` writes. -/
def CreateOffer.row (p : CreateOffer) (t : TxClock) (newId : OfferId) : DispatchOffer where
  id := newId
  trip := p.trip
  driverId := p.driverId
  dispatchGeneration := p.generation
  waveNumber := p.waveNumber
  offeredAt := t.now
  expiresAt := t.now + max 1 p.ttlMs

/-- A unique index of `dispatch_offer` already holds the new row's value, so
`ON CONFLICT DO NOTHING` skips it: the primary key, one live offer per driver, one
offer per trip, generation and driver. -/
def OfferConflict (db : Db) (o : DispatchOffer) : Prop :=
  db.dispatchOffer.Any fun a ↦
    a.id = o.id ∨ (Live a ∧ a.driverId = o.driverId) ∨
      (a.trip = o.trip ∧ a.dispatchGeneration = o.dispatchGeneration ∧ a.driverId = o.driverId)

instance {db : Db} {o : DispatchOffer} : Decidable (OfferConflict db o) :=
  inferInstanceAs (Decidable (db.dispatchOffer.Any _))

/-- Free the driver's slot of lapsed offers, skipping locked rows. -/
def expireLapsedOf (clock : Time) (db : Db) (driverId : DriverId) (locked : List OfferId) : Db :=
  resolveWhere clock db .expired fun o ↦ o.driverId = driverId ∧ Lapsed clock o ∧ o.id ∉ locked

/-- Offer one trip generation to one driver.  `none`: the trip is no longer
dispatchable at this generation, the driver holds a live offer, or was already
offered this trip generation. -/
def createOffer (t : TxClock) (db : Db) (newId : OfferId) (locked : List OfferId)
    (p : CreateOffer) : Tx (Option CreatedOffer) :=
  if ¬ Dispatchable db p.trip p.generation then .ok (db, none)
  else
    let db := expireLapsedOf t.clockTimestamp db p.driverId locked
    let o := p.row t newId
    if p.generation < 1 then .error (.constraint .offerGeneration)
    else if p.waveNumber < 1 then .error (.constraint .offerWave)
    else if OfferConflict db o then .ok (db, none)
    else .ok ({ db with dispatchOffer := db.dispatchOffer.insert o }, some ⟨newId, o.expiresAt⟩)

/-- The caller's own offer; another driver's is not found. -/
def findForDriver (db : Db) (offerId : OfferId) (driverId : DriverId) : Option DispatchOffer :=
  (db.dispatchOffer.get offerId).filter fun o ↦ o.driverId = driverId

def lockForUpdate (db : Db) (offerId : OfferId) : Option DispatchOffer :=
  db.dispatchOffer.get offerId

/-- Another offer of the same trip and generation is already accepted. -/
def AcceptConflict (db : Db) (o : DispatchOffer) : Prop :=
  db.dispatchOffer.Any fun a ↦
    a.id ≠ o.id ∧ a.state = .accepted ∧ a.trip = o.trip ∧
      a.dispatchGeneration = o.dispatchGeneration

instance {db : Db} {o : DispatchOffer} : Decidable (AcceptConflict db o) :=
  inferInstanceAs (Decidable (db.dispatchOffer.Any _))

/-- The one-accepted-offer index of a trip's table. -/
def acceptConstraint : TripRef → Constraint
  | .solo _ => .offerSoloAlreadyAccepted
  | .shared _ => .offerSharedAlreadyAccepted

/-- Resolve a still-`offered` row; false: it was not live. -/
def resolveLive (t : TxClock) (db : Db) (offerId : OfferId) (target : DispatchOfferState) : Tx Bool :=
  match db.dispatchOffer.get offerId with
  | none => .ok (db, false)
  | some o =>
      if ¬ Live o then .ok (db, false)
      else if target = .accepted ∧ AcceptConflict db o then
        .error (.constraint (acceptConstraint o.trip))
      else .ok (resolveWhere t.clockTimestamp db target fun a ↦ a.id = offerId, true)

def markAccepted (t : TxClock) (db : Db) (offerId : OfferId) : Tx Unit :=
  match resolveLive t db offerId .accepted with
  | .error e => .error e
  | .ok (db, true) => .ok (db, ())
  | .ok (_, false) => .error (.thrown s!"dispatch_offer {offerId} is not live; cannot accept")

/-- One guarded update: only the offer's own driver, only while it is live. -/
def decline (t : TxClock) (db : Db) (offerId : OfferId) (driverId : DriverId) :
    Db × DeclineOfferResult :=
  match findForDriver db offerId driverId with
  | none => (db, .notFound)
  | some o =>
      if Live o then
        (resolveWhere t.clockTimestamp db .declined fun a ↦ a.id = offerId ∧ a.driverId = driverId,
          .declined)
      else (db, .notLive)

/-- Only offers are written. -/
theorem createOffer_eq {t : TxClock} {db db' : Db} {newId : OfferId} {locked : List OfferId}
    {p : CreateOffer} {r : Option CreatedOffer}
    (h : createOffer t db newId locked p = .ok (db', r)) :
    db' = { db with dispatchOffer := db'.dispatchOffer } := by
  unfold createOffer at h
  split at h
  · obtain ⟨rfl, -⟩ := Tx.ok_inj h
    rfl
  dsimp only at h
  split_ifs at h <;> obtain ⟨rfl, -⟩ := Tx.ok_inj h <;> rfl

theorem decline_eq (t : TxClock) (db : Db) (offerId : OfferId) (driverId : DriverId) :
    (decline t db offerId driverId).1 =
      { db with dispatchOffer := (decline t db offerId driverId).1.dispatchOffer } := by
  unfold decline
  split
  · rfl
  · split_ifs <;> rfl

/-- Revoke every live offer of the trip, all generations, except the winner's. -/
def revokeLiveForTrip (t : TxClock) (db : Db) (trip : TripRef) (except : Option OfferId := none) :
    Db × List RevokedOffer :=
  (resolveWhere t.clockTimestamp db .revoked fun o ↦ o.trip = trip ∧ some o.id ≠ except,
    (db.dispatchOffer.filter fun o ↦ Live o ∧ o.trip = trip ∧ some o.id ≠ except).map
      fun o ↦ ⟨o.id, o.driverId⟩)

/-- The sweeper: mark lapsed live offers expired, skipping locked rows. -/
def expireLapsed (t : TxClock) (db : Db) (locked : List OfferId) : Db × Nat :=
  (resolveWhere t.clockTimestamp db .expired fun o ↦ Lapsed t.clockTimestamp o ∧ o.id ∉ locked,
    (db.dispatchOffer.filter fun o ↦
      Live o ∧ Lapsed t.clockTimestamp o ∧ o.id ∉ locked).length)

end Rcab.Dispatch
