import Rcab.Dispatch.Start
import Rcab.DriverApp.Offer
import Rcab.Realtime.Parties
import Rcab.Trips.Accepts

/-!
# The solo offer, between the server and the driver's app

The server commits its transactions, offers rides to a driver, accepts the offers this driver's app
responded to and tells what became of them; the network brings each message late, again or never, in
any order; the app may be restarted.  The app is taken to a ride only when that ride was committed
to its driver, and a ride is committed to the driver only after a tap on Accept (`offer_won`).
-/

universe u

namespace Rcab.DriverApp

open Dispatch (Accounts AcceptOfferResult CreateOffer assignedOutcome rejectedOutcome findForDriver
  offerTtlMs)
open Realtime (driverAssignment)

/-! ## The messages -/

/-- `SoloRideOfferPayload`, as the app reads it. -/
def soloRideOffer (ride : Ride) (created : Dispatch.CreatedOffer) (waveNumber : ℕ) :
    SoloRideOffer where
  offerId := created.offerId
  rideId := ride.id
  ttlMs := offerTtlMs
  pickup := ride.origin
  dropoff := ride.dest
  fareCents := ride.fareCents
  waveNumber

/-- What `acceptOffer` tells the driver after its transaction, and the ack; the assignment is the
one read then. -/
def acceptMessages (db : Db) (driverId : DriverId) (offerId : OfferId) (trip : Option TripRef)
    (result : AcceptOfferResult) : List OfferMessage :=
  .rideOfferOutcome (.fromAck offerId result) ::
    match result with
    | .ok trip generation _ =>
        [.rideOfferAccepted offerId trip.id,
          .rideOfferOutcome (.fromPayload (assignedOutcome db driverId offerId trip generation))]
    -- A lost lock race leaves the offer live: the ack says retry.
    | .failed .conflict => []
    | .failed reason =>
        [.rideOfferRevoked offerId (if reason = .tripTaken then "taken" else "unavailable"),
          .rideOfferOutcome (.fromPayload (rejectedOutcome offerId trip reason))]

/-- The ack of the gateway when nothing answered. -/
def unavailableAck (offerId : OfferId) : OfferOutcome :=
  ⟨offerId, outcomeForAcceptFailure "unavailable", none, none, none, some "unavailable", none⟩

/-- Any other notice of a loss, a decline or a revocation. -/
def OfferMessage.Refuses : OfferMessage → Prop
  | .rideOfferRevoked _ _ => True
  | .rideOfferOutcome x => x.kind ≠ .assigned
  | _ => False

/-! ## The system -/

/-- An accept that ended, about which the driver was not told yet. -/
structure Answer where
  offerId : OfferId
  trip : Option TripRef
  result : AcceptOfferResult
deriving DecidableEq, Repr

structure Desk where
  db : Db
  /-- The trips of the offers that are being accepted. -/
  seen : List (OfferId × TripRef)
  owed : List Answer
  /-- What the driver's connections were sent. -/
  sent : List OfferMessage
  app : OfferController
  /-- What the app did to the outside, in all its lives. -/
  effects : List Effect

inductive DeskEvent where
  /-- A transaction that is no claim of this driver. -/
  | commit (e : Step)
  /-- A wave offers the driver a ride. -/
  | offerSolo (t : TxClock) (newId : OfferId) (locked : List OfferId) (ride : Ride)
      (generation waveNumber : ℕ)
  /-- `acceptOffer` looks for the offer. -/
  | look (offerId : OfferId)
  | acceptInTx (t : TxClock) (accounts : Accounts) (offerId : OfferId) (trip : TripRef)
  /-- The bounded retry is exhausted. -/
  | conflict (offerId : OfferId) (trip : TripRef)
  | tell (a : Answer)
  | unavailable (offerId : OfferId)
  | refuse (m : OfferMessage)
  /-- `driver:assignment`, on a connection or for a `driver:sync`. -/
  | snapshot
  | deliver (m : OfferMessage)
  | tick
  | accept
  | decline
  | reset
  | restart

/-- The claims of the others. -/
def RideCalls.others (driverId : DriverId) : RideCalls where
  creates _ := True
  cancels _ := True
  claims _ d := d ≠ driverId

variable (driverId : DriverId)

def Desk.Allowed (w : Desk) : DeskEvent → Prop
  | .commit e => e.Derived w.db ∧ e.Calls (RideCalls.others driverId)
  | .look offerId | .unavailable offerId => .sendOfferResponse offerId true ∈ w.effects
  | .acceptInTx _ _ offerId trip | .conflict offerId trip => (offerId, trip) ∈ w.seen
  | .tell a => a ∈ w.owed
  | .refuse m => m.Refuses
  | .deliver m => m ∈ w.sent
  | .offerSolo _ _ _ _ _ _ | .snapshot | .tick | .accept | .decline | .reset | .restart => True

namespace Desk

/-- The app hears of something. -/
def hear (w : Desk) (i : OfferInput) : Desk :=
  { w with app := (w.app.apply i).1, effects := w.effects ++ (w.app.apply i).2 }

def send (w : Desk) (ms : List OfferMessage) : Desk := { w with sent := w.sent ++ ms }

section Exec

variable {D : Type u} [LinearOrder D] (dist : Point → Point → D)

def next (w : Desk) : DeskEvent → Desk
  | .commit e => { w with db := exec dist w.db e }
  | .offerSolo t newId locked ride generation waveNumber =>
      let p : CreateOffer := ⟨.solo ride.id, driverId, generation, waveNumber, offerTtlMs⟩
      match Dispatch.createOffer t w.db newId locked p with
      | .ok (db, some created) =>
          { w with db }.send [.rideOffer (soloRideOffer ride created waveNumber)]
      | .ok (db, none) => { w with db }
      | .error _ => w
  | .look offerId =>
      match findForDriver w.db offerId driverId with
      | none => { w with owed := ⟨offerId, none, .failed .offerNotFound⟩ :: w.owed }
      | some o => { w with seen := (offerId, o.trip) :: w.seen }
  | .acceptInTx t accounts offerId trip =>
      match Dispatch.acceptInTx t w.db accounts offerId driverId trip with
      | .ok (db, out) => { w with db, owed := ⟨offerId, some trip, out.result⟩ :: w.owed }
      | .error _ => w
  | .conflict offerId trip => { w with owed := ⟨offerId, some trip, .failed .conflict⟩ :: w.owed }
  | .tell a =>
      { w with owed := w.owed.erase a }.send
        (acceptMessages w.db driverId a.offerId a.trip a.result)
  | .unavailable offerId => w.send [.rideOfferOutcome (unavailableAck offerId)]
  | .refuse m => w.send [m]
  | .snapshot => w.send [.driverAssignment ((driverAssignment w.db driverId).map .fromView)]
  | .deliver m => w.hear (.receive m)
  | .tick => w.hear .tick
  | .accept => w.hear .accept
  | .decline => w.hear .decline
  | .reset => w.hear .reset
  | .restart => { w with app := {} }

def step (w : Desk) (e : DeskEvent) (w' : Desk) : Prop :=
  w.Allowed driverId e ∧ w.next driverId dist e = w'

end Exec

/-- Nothing happened yet. -/
structure Initial (w : Desk) : Prop where
  noTrips : w.db.NoTrips
  noPools : w.db.NoPools
  seen : w.seen = []
  owed : w.owed = []
  sent : w.sent = []
  app : w.app = {}
  effects : w.effects = []

end Desk

/-! ## What is true of what is said -/

section Sound

variable {driverId : DriverId} {db db' : Db} {offerId : OfferId} {trip trip' : TripRef}

/-- The offer is the driver's, for that trip. -/
def OfferOf (db : Db) (driverId : DriverId) (offerId : OfferId) (trip : TripRef) : Prop :=
  ∃ o, db.dispatchOffer.get offerId = some o ∧ o.driverId = driverId ∧ o.trip = trip

theorem OfferOf.unique (h : OfferOf db driverId offerId trip)
    (h' : OfferOf db driverId offerId trip') : trip = trip' := by
  obtain ⟨o, ho, -, rfl⟩ := h
  obtain ⟨o', ho', -, rfl⟩ := h'
  rw [Option.some.inj (ho.symm.trans ho')]

theorem offerOf_iff : OfferOf db driverId offerId trip ↔
    ∃ v, (market db).offer offerId = some v ∧ v.job = trip ∧ v.worker = driverId := by
  constructor
  · rintro ⟨o, ho, rfl, rfl⟩
    exact ⟨o.view, market_offer_eq_some.mpr ⟨o, Table.mem_of_get ho, Table.key_of_get ho, rfl⟩,
      rfl, rfl⟩
  · rintro ⟨v, hv, rfl, rfl⟩
    obtain ⟨o, ho, rfl, rfl⟩ := market_offer_eq_some.mp hv
    exact ⟨o, Table.get_of_mem ho, rfl, rfl⟩

section Exec

variable {D : Type u} [LinearOrder D] {dist : Point → Point → D}

theorem OfferOf.exec (hi : TripsInv db) (e : Step) (h : OfferOf db driverId offerId trip) :
    OfferOf (Rcab.exec dist db e) driverId offerId trip := by
  obtain ⟨v, hv, rfl, rfl⟩ := offerOf_iff.mp h
  obtain ⟨v', hv', hsame⟩ :=
    Market.State.offer_steps hv (sim_exec dist hi.exclusive hi.openUnclaimed e).steps
  exact offerOf_iff.mpr ⟨v', hv', hsame.job, hsame.worker⟩

end Exec

/-- A new offer is the driver's it was made to. -/
theorem offerOf_createOffer {t : TxClock} {newId : OfferId} {locked : List OfferId}
    {p : CreateOffer} {created : Dispatch.CreatedOffer}
    (h : Dispatch.createOffer t db newId locked p = .ok (db', some created)) :
    OfferOf db' p.driverId created.offerId p.trip := by
  unfold Dispatch.createOffer at h
  split at h
  · obtain ⟨-, h⟩ := Tx.ok_inj h
    cases h
  dsimp only at h
  split_ifs at h with hg hw hc
  · obtain ⟨-, h⟩ := Tx.ok_inj h
    cases h
  · obtain ⟨rfl, hr⟩ := Tx.ok_inj h
    obtain rfl := Option.some.inj hr
    have hnone : (Dispatch.expireLapsedOf t.clockTimestamp db p.driverId locked).dispatchOffer.get
        (p.row t newId).id = none :=
      Table.get_eq_none.mpr fun o ho hid ↦ hc ⟨o, ho, Or.inl hid⟩
    refine ⟨p.row t newId, ?_, rfl, rfl⟩
    show ((Dispatch.expireLapsedOf t.clockTimestamp db p.driverId locked).dispatchOffer.insert
      (p.row t newId)).get newId = _
    exact (Table.get_insert hnone).trans (if_pos rfl)

/-- What an accept answers with is bound to the driver. -/
theorem assigned_of_acceptInTx {t : TxClock} {accounts : Accounts} {generation : ℕ} {replay : Bool}
    {revoked : List Dispatch.RevokedOffer} (hi : TripsInv db')
    (h : Dispatch.acceptInTx t db accounts offerId driverId trip =
      .ok (db', ⟨.ok trip' generation replay, revoked⟩)) :
    trip' = trip ∧ Assigned db' driverId trip := by
  obtain ⟨b, hb, rfl⟩ := guard_of_ok h
  obtain ⟨g, hg, hd, rfl⟩ := market_guard_eq_some.mp hb
  refine ⟨?_, assigned_of_guard hi (hd ▸ Table.get_of_mem hg)⟩
  have hcases := acceptInTx_eq_ok h
  generalize hout : (⟨.ok trip' generation replay, revoked⟩ : Dispatch.AcceptOutcome) = out at hcases
  cases hcases with
  | refused reason => cases hout
  | replayed o ho hd ha => cases hout; rfl
  | resolved o ho hd hl target ht reason => cases hout
  | bound o db' revoked ho hd hl hp hg hm hu => cases hout; rfl

/-- The trip is the driver's, by that offer. -/
def WonBy (db : Db) (driverId : DriverId) (offerId : OfferId) (trip : TripRef) : Prop :=
  OfferOf db driverId offerId trip ∧ Assigned db driverId trip

namespace OfferMessage

/-- What the message says was committed. -/
def Sound (db : Db) (driverId : DriverId) : OfferMessage → Prop
  | .rideOffer offer => OfferOf db driverId offer.offerId (.solo offer.rideId)
  | .rideOfferAccepted offerId id => ∃ trip, trip.id = id ∧ WonBy db driverId offerId trip
  | .rideOfferRevoked _ _ => True
  | .rideOfferOutcome x => x.kind = .assigned →
      ∃ trip, x.tripId = some trip.id ∧ WonBy db driverId x.offerId trip
  | .driverAssignment none => True
  | .driverAssignment (some a) => a.isSolo →
      Assigned db driverId (.solo a.tripId) ∧
        ∀ offerId, a.offerId = some offerId → OfferOf db driverId offerId (.solo a.tripId)

theorem Sound.mono {m : OfferMessage} (h : m.Sound db driverId)
    (ho : ∀ {offerId trip}, OfferOf db driverId offerId trip → OfferOf db' driverId offerId trip)
    (ha : ∀ {trip}, Assigned db driverId trip → Assigned db' driverId trip) :
    m.Sound db' driverId := by
  cases m with
  | rideOffer offer => exact ho h
  | rideOfferAccepted offerId id =>
    obtain ⟨trip, hid, hoffer, hassigned⟩ := h
    exact ⟨trip, hid, ho hoffer, ha hassigned⟩
  | rideOfferRevoked _ _ => trivial
  | rideOfferOutcome x =>
    intro hk
    obtain ⟨trip, hid, hoffer, hassigned⟩ := h hk
    exact ⟨trip, hid, ho hoffer, ha hassigned⟩
  | driverAssignment a =>
    cases a with
    | none => trivial
    | some a => exact fun hs ↦ ⟨ha (h hs).1, fun offerId hoffer ↦ ho ((h hs).2 offerId hoffer)⟩

theorem sound_of_refuses {m : OfferMessage} (h : m.Refuses) : m.Sound db driverId := by
  cases m with
  | rideOfferRevoked _ _ => trivial
  | rideOfferOutcome x => exact fun hk ↦ absurd hk h
  | _ => exact h.elim

end OfferMessage

/-- The app goes to rides of the driver only, and answers the driver's offers only. -/
def Effect.Sound (db : Db) (driverId : DriverId) : Effect → Prop
  | .navigate (.ride rideId) => Assigned db driverId (.solo rideId)
  | .sendOfferResponse offerId _ => ∃ rideId, OfferOf db driverId offerId (.solo rideId)
  | _ => True

theorem Effect.Sound.mono {x : Effect} (h : x.Sound db driverId)
    (ho : ∀ {offerId trip}, OfferOf db driverId offerId trip → OfferOf db' driverId offerId trip)
    (ha : ∀ {trip}, Assigned db driverId trip → Assigned db' driverId trip) :
    x.Sound db' driverId := by
  cases x with
  | navigate location =>
    cases location with
    | ride rideId => exact ha (show Assigned db driverId (.solo rideId) from h)
    | _ => trivial
  | sendOfferResponse offerId accept =>
    obtain ⟨rideId, h⟩ := h
    exact ⟨rideId, ho h⟩
  | requestAssignmentSnapshot => trivial

/-- What is shown is the driver's offer, and accepted when its ride is the driver's. -/
structure OfferState.Sound (db : Db) (driverId : DriverId) (s : OfferState) : Prop where
  live : ∀ offer, s.offer = some offer → OfferOf db driverId offer.offerId (.solo offer.rideId)
  won : s.phase = .accepted → ∃ offer, s.offer = some offer ∧ s.rideId = some offer.rideId ∧
    Assigned db driverId (.solo offer.rideId)

/-- The state the app is left in, and what it does to the outside. -/
def SoundTurn (db : Db) (driverId : DriverId) (x : OfferController × List Effect) : Prop :=
  x.1.state.Sound db driverId ∧ ∀ y ∈ x.2, y.Sound db driverId

namespace OfferState.Sound

variable {s : OfferState}

theorem empty : OfferState.empty.Sound db driverId := ⟨fun _ h ↦ (by cases h), fun h ↦ (by cases h)⟩

/-- The shown offer is left, and nothing is won. -/
theorem of_kept {s' : OfferState} (h : s.Sound db driverId) (ho : s'.offer = s.offer)
    (hp : s'.phase = .accepted → s.phase = .accepted ∧ s'.rideId = s.rideId) :
    s'.Sound db driverId where
  live offer hoffer := h.live offer (ho ▸ hoffer)
  won ha := by
    obtain ⟨ha', hr⟩ := hp ha
    rw [ho, hr]
    exact h.won ha'

end OfferState.Sound

namespace OfferController

variable {c : OfferController}

theorem sound_same (h : c.state.Sound db driverId) : SoundTurn db driverId (c, []) :=
  ⟨h, fun _ hx ↦ (by cases hx)⟩

theorem sound_onAccepted (h : c.state.Sound db driverId) {id : Uuid}
    (hw : c.state.Live offerId → ∃ trip, trip.id = id ∧ WonBy db driverId offerId trip) :
    SoundTurn db driverId (c.onAccepted offerId id) := by
  by_cases hlive : c.state.Live offerId
  · obtain ⟨offer, hoffer, rfl⟩ := hlive
    obtain ⟨trip, rfl, hof, ha⟩ := hw ⟨offer, hoffer, rfl⟩
    obtain rfl := hof.unique (h.live offer hoffer)
    rw [onAccepted_eq hoffer]
    split_ifs with hp
    · exact sound_same h
    · refine ⟨⟨h.live, fun _ ↦ ⟨offer, hoffer, rfl, ha⟩⟩, fun y hy ↦ ?_⟩
      rw [List.mem_singleton.mp hy]
      exact ha
  · unfold onAccepted OfferState.applyAccepted
    rw [if_pos hlive]
    exact sound_same h

theorem sound_onRevoked (h : c.state.Sound db driverId) (reason : Option String) :
    SoundTurn db driverId (c.onRevoked offerId reason) := by
  by_cases hlive : c.state.Live offerId
  · obtain ⟨offer, hoffer, rfl⟩ := hlive
    rw [onRevoked_eq hoffer]
    split_ifs with hp
    · exact sound_same h
    · refine ⟨h.of_kept rfl fun hp ↦ (by cases hp), fun y hy ↦ ?_⟩
      rw [List.mem_singleton.mp hy]
      trivial
  · unfold onRevoked OfferState.applyRevoked
    rw [if_pos hlive]
    exact sound_same h

theorem sound_applyRetry (h : c.state.Sound db driverId) :
    (c.state.applyRetry offerId).Sound db driverId := by
  unfold OfferState.applyRetry
  by_cases hlive : c.state.Live offerId
  · rw [if_neg (not_not.mpr hlive)]
    by_cases hp : c.state.phase = .claiming
    · rw [if_neg (not_not.mpr hp)]
      exact h.of_kept rfl fun hp ↦ (by cases hp)
    · rw [if_pos hp]
      exact h
  · rw [if_pos hlive]
    exact h

theorem sound_onOutcome (h : c.state.Sound db driverId) {x : OfferOutcome}
    (hx : (OfferMessage.rideOfferOutcome x).Sound db driverId) :
    SoundTurn db driverId (c.onOutcome x) := by
  unfold onOutcome
  by_cases hshared : x.isShared
  · rw [if_pos hshared]
    exact sound_same h
  rw [if_neg hshared]
  cases hk : x.kind with
  | assigned =>
    obtain ⟨trip, hid, hwon⟩ := hx hk
    dsimp only
    rw [hid]
    exact sound_onAccepted h fun _ ↦ ⟨trip, rfl, hwon⟩
  | retry => exact ⟨sound_applyRetry h, fun y hy ↦ (by cases hy)⟩
  | declined => exact sound_same h
  | unknown =>
    dsimp only
    split_ifs with hp
    · refine ⟨h, fun y hy ↦ ?_⟩
      rw [List.mem_singleton.mp hy]
      trivial
    · exact sound_same h
  | lost | expired | revoked | rejected => exact sound_onRevoked h _

theorem sound_route (h : c.state.Sound db driverId) {rideId : RideId}
    (ha : Assigned db driverId (.solo rideId)) : SoundTurn db driverId (c.route rideId) := by
  unfold route
  split_ifs
  · exact sound_same h
  · refine ⟨h, fun y hy ↦ ?_⟩
    rw [List.mem_singleton.mp hy]
    exact ha

theorem sound_onAssignment (h : c.state.Sound db driverId) {a : Option DriverAssignment}
    (ha : (OfferMessage.driverAssignment a).Sound db driverId) :
    SoundTurn db driverId (c.onAssignment a) := by
  cases a with
  | none =>
    unfold onAssignment
    dsimp only
    split
    · split_ifs
      · exact sound_onRevoked (c := { c with routedRideId := none, awaitingVerdict := false }) h _
      · exact sound_same (c := { c with routedRideId := none }) h
    · exact sound_same (c := { c with routedRideId := none }) h
  | some a =>
    unfold onAssignment
    dsimp only
    by_cases hsolo : a.isSolo
    · obtain ⟨hassigned, hoffer⟩ := ha hsolo
      rw [if_neg (not_not.mpr hsolo)]
      cases ho : a.offerId with
      | none => exact sound_route (c := { c with awaitingVerdict := false }) h hassigned
      | some offerId =>
        dsimp only
        split_ifs
        · exact sound_onAccepted (c := { c with awaitingVerdict := false }) h fun _ ↦
            ⟨_, rfl, hoffer offerId ho, hassigned⟩
        · exact sound_route (c := { c with awaitingVerdict := false }) h hassigned
    · rw [if_pos hsolo]
      exact sound_same h

theorem sound_receive (h : c.state.Sound db driverId) {m : OfferMessage}
    (hm : m.Sound db driverId) : SoundTurn db driverId (c.receive m) := by
  cases m with
  | rideOffer offer =>
    refine ⟨⟨fun offer' ho ↦ ?_, fun hp ↦ (by cases hp)⟩, fun y hy ↦ ?_⟩
    · obtain rfl := Option.some.inj ho
      exact hm
    · rw [List.mem_singleton.mp hy]
      trivial
  | rideOfferAccepted offerId id => exact sound_onAccepted h fun _ ↦ hm
  | rideOfferRevoked offerId reason => exact sound_onRevoked h reason
  | rideOfferOutcome x => exact sound_onOutcome h hm
  | driverAssignment a => exact sound_onAssignment h hm

theorem sound_onTick (h : c.state.Sound db driverId) : SoundTurn db driverId c.onTick := by
  have htick : c.state.tick.Sound db driverId := by
    unfold OfferState.tick
    dsimp only
    split_ifs with hp hs
    · exact h
    · exact h.of_kept rfl fun ha ↦ (by cases ha)
    · exact h.of_kept rfl fun ha ↦ ⟨ha, rfl⟩
  unfold onTick
  dsimp only
  by_cases ht : c.ticker = false
  · rw [if_pos ht]
    exact sound_same h
  rw [if_neg ht]
  split_ifs
  · refine ⟨htick, fun y hy ↦ ?_⟩
    rw [List.mem_singleton.mp hy]
    trivial
  · exact sound_same (c := { c with state := c.state.tick }) htick

theorem sound_accept (h : c.state.Sound db driverId) : SoundTurn db driverId c.accept := by
  unfold accept
  cases ho : c.state.offer with
  | none => exact sound_same h
  | some offer =>
    dsimp only
    split_ifs with hp
    · exact sound_same h
    · refine ⟨h.of_kept rfl fun ha ↦ (by cases ha), fun y hy ↦ ?_⟩
      rw [List.mem_singleton.mp hy]
      exact ⟨offer.rideId, h.live offer ho⟩

theorem sound_decline (h : c.state.Sound db driverId) : SoundTurn db driverId c.decline := by
  unfold decline
  cases ho : c.state.offer with
  | none => exact sound_same h
  | some offer =>
    refine ⟨.empty, fun y hy ↦ ?_⟩
    dsimp only at hy
    split_ifs at hy
    · rw [List.mem_singleton.mp hy]
      exact ⟨offer.rideId, h.live offer ho⟩
    · cases hy

/-- **One input**: what the app shows, where it goes and what it answers stay sound. -/
theorem sound_apply (h : c.state.Sound db driverId) {i : OfferInput}
    (hi : ∀ m, i = .receive m → m.Sound db driverId) : SoundTurn db driverId (c.apply i) := by
  cases i with
  | receive m => exact sound_receive h (hi m rfl)
  | tick => exact sound_onTick h
  | accept => exact sound_accept h
  | decline => exact sound_decline h
  | reset => exact ⟨.empty, fun y hy ↦ (by cases hy)⟩

end OfferController

end Sound

/-! ## The invariant of the desk -/

/-- What holds of the system at any time. -/
structure DeskInv (driverId : DriverId) (w : Desk) : Prop where
  trips : TripsInv w.db
  pools : PoolsInv w.db
  owned : Market.Owned (market w.db)
  seen : ∀ x ∈ w.seen, OfferOf w.db driverId x.1 x.2 ∧ .sendOfferResponse x.1 true ∈ w.effects
  owed : ∀ a ∈ w.owed, ∀ trip generation replay, a.result = .ok trip generation replay →
    WonBy w.db driverId a.offerId trip
  sent : ∀ m ∈ w.sent, m.Sound w.db driverId
  app : w.app.state.Sound w.db driverId
  effects : ∀ x ∈ w.effects, x.Sound w.db driverId
  /-- Only a tap on Accept gets a ride. -/
  asked : ∀ rideId, Assigned w.db driverId (.solo rideId) →
    ∃ offerId, .sendOfferResponse offerId true ∈ w.effects ∧
      OfferOf w.db driverId offerId (.solo rideId)

namespace DeskInv

variable {driverId : DriverId} {w w' : Desk}

theorem of_initial (h : w.Initial) : DeskInv driverId w where
  trips := .of_noTrips h.noTrips
  pools := .of_noPools h.noPools
  owned := .of_empty fun d ↦ market_guard_eq_none.mpr
    (Table.get_eq_none.mpr fun a ha ↦ absurd ha (h.noTrips.driverActiveAssignment a))
  seen x hx := by
    rw [h.seen] at hx
    cases hx
  owed a ha := by
    rw [h.owed] at ha
    cases ha
  sent m hm := by
    rw [h.sent] at hm
    cases hm
  app := by
    rw [h.app]
    exact .empty
  effects x hx := by
    rw [h.effects] at hx
    cases hx
  asked rideId := by
    rintro ⟨r, hr, -⟩
    exact absurd (Table.mem_of_get hr) (h.noTrips.rides r)

/-- More is sent. -/
theorem send (h : DeskInv driverId w) {ms : List OfferMessage}
    (hms : ∀ m ∈ ms, m.Sound w.db driverId) : DeskInv driverId (w.send ms) :=
  { h with sent := fun m hm ↦ (List.mem_append.mp hm).elim (h.sent m) (hms m) }

/-- The app hears of something. -/
theorem hear (h : DeskInv driverId w) {i : OfferInput}
    (hi : ∀ m, i = .receive m → m.Sound w.db driverId) : DeskInv driverId (w.hear i) := by
  obtain ⟨happ, heff⟩ := OfferController.sound_apply h.app hi
  exact { h with
    app := happ
    effects := fun x hx ↦ (List.mem_append.mp hx).elim (h.effects x) (heff x)
    seen := fun x hx ↦ ⟨(h.seen x hx).1, List.mem_append_left _ (h.seen x hx).2⟩
    asked := fun rideId ha ↦
      let ⟨offerId, hmem, hof⟩ := h.asked rideId ha
      ⟨offerId, List.mem_append_left _ hmem, hof⟩ }

section Exec

variable {D : Type u} [LinearOrder D] {dist : Point → Point → D}

/-- A transaction in which the driver claims nothing but a trip of an own offer. -/
theorem exec (h : DeskInv driverId w) {e : Step} (claims : TripRef → DriverId → Prop)
    (hd : e.Derived w.db) (hc : e.Calls ⟨fun _ ↦ True, fun _ ↦ True, claims⟩)
    (hclaims : ∀ rideId, claims (.solo rideId) driverId →
      ∃ offerId, .sendOfferResponse offerId true ∈ w.effects ∧
        OfferOf w.db driverId offerId (.solo rideId)) :
    DeskInv driverId { w with db := Rcab.exec dist w.db e } := by
  have ho : ∀ {offerId trip}, OfferOf w.db driverId offerId trip →
      OfferOf (Rcab.exec dist w.db e) driverId offerId trip := fun hof ↦ hof.exec h.trips e
  have ha : ∀ {trip}, Assigned w.db driverId trip →
      Assigned (Rcab.exec dist w.db e) driverId trip := fun h' ↦ assigned_exec h.pools e h'
  refine ⟨h.trips.step rfl, h.pools.step rfl, ?_, ?_, ?_, ?_, ?_, ?_, ?_⟩
  · exact h.owned.steps (sim_exec dist h.trips.exclusive h.trips.openUnclaimed e).steps
      (Step.not_foreign hd)
  · exact fun x hx ↦ ⟨ho (h.seen x hx).1, (h.seen x hx).2⟩
  · intro a hmem trip generation replay hr
    obtain ⟨hof, has⟩ := h.owed a hmem trip generation replay hr
    exact ⟨ho hof, ha has⟩
  · exact fun m hm ↦ (h.sent m hm).mono ho ha
  · refine ⟨fun offer hoffer ↦ ho (h.app.live offer hoffer), fun hp ↦ ?_⟩
    obtain ⟨offer, hoffer, hr, has⟩ := h.app.won hp
    exact ⟨offer, hoffer, hr, ha has⟩
  · exact fun x hx ↦ (h.effects x hx).mono ho ha
  · rintro rideId ⟨r', hr', hdriver⟩
    have hold : ∃ offerId, .sendOfferResponse offerId true ∈ w.effects ∧
        OfferOf w.db driverId offerId (.solo rideId) := by
      rcases (rideRows_exec dist hc).driver hr' hdriver with hold | hnew
      · exact h.asked rideId hold
      · exact hclaims rideId hnew
    obtain ⟨offerId, hmem, hof⟩ := hold
    exact ⟨offerId, hmem, ho hof⟩

theorem offerSolo (h : DeskInv driverId w) (t : TxClock) (newId : OfferId) (locked : List OfferId)
    (ride : Ride) (generation waveNumber : ℕ) :
    DeskInv driverId (w.next driverId dist (.offerSolo t newId locked ride generation waveNumber)) := by
  have hexec : DeskInv driverId { w with
      db := Rcab.exec dist w.db (.createOffer t newId locked
        ⟨.solo ride.id, driverId, generation, waveNumber, Dispatch.offerTtlMs⟩) } :=
    h.exec (fun _ _ ↦ False) trivial trivial fun _ hf ↦ hf.elim
  unfold Desk.next
  dsimp only
  cases hr : Dispatch.createOffer t w.db newId locked
      ⟨.solo ride.id, driverId, generation, waveNumber, Dispatch.offerTtlMs⟩ with
  | error e => exact h
  | ok r =>
    obtain ⟨db, created⟩ := r
    have hdb : Rcab.exec dist w.db (.createOffer t newId locked
        ⟨.solo ride.id, driverId, generation, waveNumber, Dispatch.offerTtlMs⟩) = db := by
      show (Dispatch.createOffer t w.db newId locked _).commit w.db = db
      rw [hr]
      rfl
    rw [hdb] at hexec
    cases created with
    | none => exact hexec
    | some created =>
      refine hexec.send fun m hm ↦ ?_
      rw [List.mem_singleton.mp hm]
      exact offerOf_createOffer hr

/-- The trip of an accept is the driver's, and so is what was claimed before. -/
theorem acceptInTx (h : DeskInv driverId w) {offerId : OfferId} {trip : TripRef}
    (hseen : (offerId, trip) ∈ w.seen) (t : TxClock) (accounts : Accounts) :
    DeskInv driverId (w.next driverId dist (.acceptInTx t accounts offerId trip)) := by
  obtain ⟨hof, hasked⟩ := h.seen _ hseen
  have hd : (Step.acceptInTx t accounts offerId driverId trip).Derived w.db := by
    intro o ho
    obtain ⟨hget, hdriver⟩ := Option.filter_eq_some_iff.mp ho
    exact OfferOf.unique ⟨o, hget, of_decide_eq_true hdriver, rfl⟩ hof
  have hexec : DeskInv driverId
      { w with db := Rcab.exec dist w.db (.acceptInTx t accounts offerId driverId trip) } :=
    h.exec (fun trip' _ ↦ trip' = trip) hd rfl fun rideId hr ↦
      ⟨offerId, hasked, hr ▸ hof⟩
  unfold Desk.next
  dsimp only
  cases hr : Dispatch.acceptInTx t w.db accounts offerId driverId trip with
  | error e => exact h
  | ok r =>
    obtain ⟨db, result, revoked⟩ := r
    have hdb : Rcab.exec dist w.db (.acceptInTx t accounts offerId driverId trip) = db := by
      show (Dispatch.acceptInTx t w.db accounts offerId driverId trip).commit w.db = db
      rw [hr]
      rfl
    rw [hdb] at hexec
    refine { hexec with owed := fun a hmem trip' generation replay hres ↦ ?_ }
    rcases List.mem_cons.mp hmem with rfl | hmem
    · obtain rfl : result = .ok trip' generation replay := hres
      obtain ⟨rfl, hassigned⟩ := assigned_of_acceptInTx hexec.trips hr
      exact ⟨(hexec.seen _ hseen).1, hassigned⟩
    · exact hexec.owed a hmem trip' generation replay hres

/-- What is told of an accept is true. -/
theorem tell (h : DeskInv driverId w) {a : Answer} (ha : a ∈ w.owed) :
    DeskInv driverId (w.next driverId dist (.tell a)) := by
  have hleft : DeskInv driverId { w with owed := w.owed.erase a } :=
    { h with owed := fun b hb ↦ h.owed b (List.mem_of_mem_erase hb) }
  refine hleft.send fun m hm ↦ ?_
  show m.Sound w.db driverId
  have href : ∀ {x : OfferOutcome}, x.kind ≠ .assigned →
      (OfferMessage.rideOfferOutcome x).Sound w.db driverId :=
    fun hk ↦ OfferMessage.sound_of_refuses hk
  have hfail : ∀ reason : Dispatch.AcceptOfferFailure,
      outcomeForAcceptFailure reason.text ≠ .assigned ∧
        OfferOutcome.kindOf (Realtime.outcomeForAcceptFailure reason.text) ≠ .assigned := by
    intro reason
    cases reason <;> decide
  unfold acceptMessages at hm
  cases hres : a.result with
  | ok trip generation replay =>
    have hwon := h.owed a ha trip generation replay hres
    rw [hres] at hm
    simp only [List.mem_cons, List.not_mem_nil, or_false] at hm
    rcases hm with rfl | rfl | rfl
    · exact fun _ ↦ ⟨trip, rfl, hwon⟩
    · exact ⟨trip, rfl, hwon⟩
    · exact fun _ ↦ ⟨trip, rfl, hwon⟩
  | failed reason =>
    rw [hres] at hm
    rcases List.mem_cons.mp hm with rfl | hm
    · exact href (hfail reason).1
    split at hm
    · rename_i hok
      cases hok
    · cases hm
    · rename_i reason' _ hreason
      simp only [List.mem_cons, List.not_mem_nil, or_false] at hm
      rcases hm with rfl | rfl
      · trivial
      · exact href (hfail reason').2

/-- A snapshot tells the driver's guard. -/
theorem snapshot (h : DeskInv driverId w) :
    (OfferMessage.driverAssignment ((driverAssignment w.db driverId).map .fromView)).Sound w.db
      driverId := by
  cases hview : driverAssignment w.db driverId with
  | none => trivial
  | some view =>
    intro hsolo
    unfold driverAssignment at hview
    split at hview
    · cases hview
    rename_i g hg
    have hassigned := assigned_of_guard h.trips hg
    split at hview
    · rename_i rideId htrip
      obtain ⟨r, hr, rfl⟩ := Option.map_eq_some_iff.mp hview
      obtain rfl := Table.key_of_get hr
      rw [htrip] at hassigned
      refine ⟨hassigned, fun offerId hoffer ↦ ?_⟩
      have hguard : (market w.db).guard driverId = some g.view :=
        market_guard_eq_some.mpr ⟨g, Table.mem_of_get hg, Table.key_of_get hg, rfl⟩
      obtain ⟨v, hv, hjob, hworker⟩ := h.owned driverId g.view offerId hguard hoffer
      exact offerOf_iff.mpr ⟨v, hv, hjob.trans htrip, hworker⟩
    · obtain ⟨s, -, rfl⟩ := Option.map_eq_some_iff.mp hview
      cases hsolo

/-- **One event.** -/
theorem next (h : DeskInv driverId w) {e : DeskEvent} (ha : w.Allowed driverId e) :
    DeskInv driverId (w.next driverId dist e) := by
  cases e with
  | commit e => exact h.exec _ ha.1 ha.2 fun rideId hne ↦ absurd rfl hne
  | offerSolo t newId locked ride generation waveNumber =>
    exact h.offerSolo t newId locked ride generation waveNumber
  | look offerId =>
    unfold Desk.next
    dsimp only
    cases ho : findForDriver w.db offerId driverId with
    | none =>
      refine { h with owed := fun a hmem trip generation replay hres ↦ ?_ }
      rcases List.mem_cons.mp hmem with rfl | hmem
      · cases hres
      · exact h.owed a hmem trip generation replay hres
    | some o =>
      obtain ⟨hget, hdriver⟩ := Option.filter_eq_some_iff.mp ho
      refine { h with seen := fun x hmem ↦ ?_ }
      rcases List.mem_cons.mp hmem with rfl | hmem
      · exact ⟨⟨o, hget, of_decide_eq_true hdriver, rfl⟩, ha⟩
      · exact h.seen x hmem
  | acceptInTx t accounts offerId trip => exact h.acceptInTx ha t accounts
  | conflict offerId trip =>
    refine { h with owed := fun a hmem trip generation replay hres ↦ ?_ }
    rcases List.mem_cons.mp hmem with rfl | hmem
    · cases hres
    · exact h.owed a hmem trip generation replay hres
  | tell a => exact h.tell ha
  | unavailable offerId =>
    refine h.send fun m hm ↦ ?_
    rw [List.mem_singleton.mp hm]
    exact OfferMessage.sound_of_refuses fun hk ↦ (by cases hk)
  | refuse m =>
    refine h.send fun m' hm ↦ ?_
    rw [List.mem_singleton.mp hm]
    exact OfferMessage.sound_of_refuses ha
  | snapshot =>
    refine h.send fun m hm ↦ ?_
    rw [List.mem_singleton.mp hm]
    exact h.snapshot
  | deliver m =>
    refine h.hear fun m' hm ↦ ?_
    obtain rfl := OfferInput.receive.inj hm
    exact h.sent _ ha
  | tick | accept | decline | reset => exact h.hear fun m hm ↦ (by cases hm)
  | restart => exact { h with app := .empty }

theorem step (h : DeskInv driverId w) {e : DeskEvent} (hst : Desk.step driverId dist w e w') :
    DeskInv driverId w' := by
  obtain ⟨ha, rfl⟩ := hst
  exact h.next ha

end Exec

end DeskInv

/-- In every run, whatever is lost, repeated or overtaken, and however often the app starts anew:
the app goes to a ride, and shows an offer as accepted, only when the ride was committed to its
driver, and then it shows the ride of that offer; and a ride becomes the driver's only after the app
accepted an offer of it to the driver. -/
theorem offer_won {driverId : DriverId} {w₀ w : Desk} {D : Type u} [LinearOrder D]
    {dist : Point → Point → D} {tr : List (Desk × DeskEvent)} (h₀ : w₀.Initial)
    (hr : Run (Desk.step driverId dist) w₀ tr w) :
    (∀ rideId, .navigate (.ride rideId) ∈ w.effects → Assigned w.db driverId (.solo rideId)) ∧
      (w.app.state.phase = .accepted → ∃ offer, w.app.state.offer = some offer ∧
        w.app.state.rideId = some offer.rideId ∧ Assigned w.db driverId (.solo offer.rideId)) ∧
      ∀ rideId, Assigned w.db driverId (.solo rideId) →
        ∃ offerId, .sendOfferResponse offerId true ∈ w.effects ∧
          OfferOf w.db driverId offerId (.solo rideId) := by
  have hinv : DeskInv driverId w := hr.invariant (fun _ _ _ h hst ↦ h.step hst) (.of_initial h₀)
  exact ⟨fun rideId hn ↦ hinv.effects _ hn, hinv.app.won, hinv.asked⟩

/-! A ride is offered, accepted and won; the answer is heard twice. -/

def sampleDesk : Desk := ⟨.empty, [], [], [], {}, []⟩

def sampleOfferedRide : SoloRideOffer :=
  soloRideOffer sampleRide.row ⟨20, 12005⟩ 1

def sampleDeskEvents : List DeskEvent :=
  [.commit (.createRide ⟨0, 0⟩ sampleRide), .offerSolo ⟨5, 5⟩ 20 [] sampleRide.row 1 1,
    .deliver (.rideOffer sampleOfferedRide), .accept, .look 20,
    .acceptInTx ⟨6, 6⟩ sampleAccounts 20 (.solo 1),
    .tell ⟨20, some (.solo 1), .ok (.solo 1) 1 false⟩,
    .deliver (.rideOfferAccepted 20 1), .deliver (.rideOfferAccepted 20 1)]

/-- What the events lead to. -/
def sampleWonDesk : Desk :=
  sampleDeskEvents.foldl (Desk.next 7 (D := ℕ) fun _ _ ↦ 0) sampleDesk

theorem sampleWonDesk_won : Assigned sampleWonDesk.db 7 (.solo 1) := by
  have hok : Enabled (Desk.Allowed 7) (Desk.next 7 (D := ℕ) fun _ _ ↦ 0) sampleDesk
      sampleDeskEvents :=
    ⟨⟨trivial, trivial⟩, trivial, List.mem_singleton_self _, trivial,
      (by decide : Effect.sendOfferResponse 20 true ∈
        [Effect.navigate (.offer 20), .sendOfferResponse 20 true]),
      List.mem_singleton_self _, List.mem_singleton_self _,
      List.mem_cons_of_mem _ (List.mem_cons_of_mem _ List.mem_cons_self),
      List.mem_cons_of_mem _ (List.mem_cons_of_mem _ List.mem_cons_self), trivial⟩
  have h₀ : sampleDesk.Initial :=
    ⟨Db.empty_noTrips, ⟨Table.notMem_empty, Table.notMem_empty, Table.notMem_empty⟩, rfl, rfl, rfl,
      rfl, rfl⟩
  have hrun : Run (Desk.step 7 (D := ℕ) fun _ _ ↦ 0) sampleDesk _ sampleWonDesk :=
    Run.of_enabled _ (fun _ _ h ↦ ⟨h, rfl⟩) sampleDeskEvents hok
  exact (offer_won h₀ hrun).1 1 (by decide)

end Rcab.DriverApp
