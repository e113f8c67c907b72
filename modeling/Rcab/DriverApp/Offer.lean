import Rcab.DriverApp.SharedRide

/-!
# The driver app's solo offer

`offer_models.dart`, `offer_provider.dart` and `offer_controller.dart`: one offer rings at a time,
and everything the server says of it is heard by one controller.

    idle → ringing ⇄ claiming → accepted

or `revoked`, or `expired`; a win that comes late still counts.
-/

namespace Rcab.DriverApp

inductive OfferPhase where
  | idle | ringing | claiming | accepted | revoked | expired
deriving DecidableEq, Repr

structure SoloRideOffer where
  offerId : OfferId
  rideId : RideId
  ttlMs : Int
  pickup : Point
  dropoff : Point
  fareCents : Int
  waveNumber : ℕ
deriving DecidableEq, Repr

structure OfferState where
  phase : OfferPhase := .idle
  offer : Option SoloRideOffer := none
  secondsLeft : Int := 0
  /-- Set once the offer is won. -/
  rideId : Option Uuid := none
  revokeReason : Option String := none
deriving DecidableEq, Repr

/-! ## The notifier -/

namespace OfferState

def empty : OfferState := {}

def applyOffer (offer : SoloRideOffer) : OfferState where
  phase := .ringing
  offer := some offer
  -- Rounded up.
  secondsLeft := -((-offer.ttlMs) / 1000)

variable (s : OfferState)

/-- The offer that is shown has this id. -/
def Live (offerId : OfferId) : Prop := ∃ offer ∈ s.offer, offer.offerId = offerId

instance {s : OfferState} {offerId : OfferId} : Decidable (s.Live offerId) :=
  inferInstanceAs (Decidable (∃ offer ∈ s.offer, _))

/-- One countdown step. -/
def tick : OfferState :=
  if s.phase ≠ .ringing then s
  else
    let next := s.secondsLeft - 1
    if next ≤ 0 then { s with phase := .expired, secondsLeft := 0 }
    else { s with secondsLeft := next }

/-- `ride_offer_accepted`; whether it was taken up. -/
def applyAccepted (offerId : OfferId) (rideId : Uuid) : OfferState × Bool :=
  if ¬ s.Live offerId then (s, false)
  else if s.phase = .accepted then (s, false)
  else ({ s with phase := .accepted, rideId := some rideId }, true)

/-- `ride_offer_revoked`: a loss never undoes a win, and is applied once. -/
def applyRevoked (offerId : OfferId) (reason : Option String) : OfferState × Bool :=
  if ¬ s.Live offerId then (s, false)
  else if s.phase = .revoked ∨ s.phase = .accepted then (s, false)
  else ({ s with phase := .revoked, revokeReason := reason <|> s.revokeReason }, true)

/-- The server could not decide: the driver may tap Accept again. -/
def applyRetry (offerId : OfferId) : OfferState :=
  if ¬ s.Live offerId then s
  else if s.phase ≠ .claiming then s
  else { s with phase := .ringing }

end OfferState

/-! ## The controller -/

inductive Location where
  | offer (offerId : OfferId)
  | ride (rideId : Uuid)
  | home
deriving DecidableEq, Repr

/-- What the app does to the outside. -/
inductive Effect where
  | navigate (location : Location)
  | sendOfferResponse (offerId : OfferId) (accept : Bool)
  | requestAssignmentSnapshot
deriving DecidableEq, Repr

/-- What the server sends. -/
inductive OfferMessage where
  | rideOffer (offer : SoloRideOffer)
  | rideOfferAccepted (offerId : OfferId) (rideId : Uuid)
  | rideOfferRevoked (offerId : OfferId) (reason : Option String)
  /-- The event, or the ack of a response in its shape. -/
  | rideOfferOutcome (outcome : OfferOutcome)
  | driverAssignment (assignment : Option DriverAssignment)
deriving DecidableEq, Repr

structure OfferController where
  state : OfferState := .empty
  /-- The last solo trip it routed to. -/
  routedRideId : Option Uuid := none
  /-- An accept was answered with `unavailable`: the next snapshot decides. -/
  awaitingVerdict : Bool := false
  /-- Whether the countdown runs. -/
  ticker : Bool := false
deriving DecidableEq, Repr

def DriverAssignment.isSolo (a : DriverAssignment) : Prop := a.tripKind = .solo

instance {a : DriverAssignment} : Decidable a.isSolo :=
  inferInstanceAs (Decidable (_ = TripKind.solo))

def OfferOutcome.isShared (o : OfferOutcome) : Prop := o.tripKind = some .shared

instance {o : OfferOutcome} : Decidable o.isShared :=
  inferInstanceAs (Decidable (_ = some TripKind.shared))

def OfferOutcomeKind.name : OfferOutcomeKind → String
  | .assigned => "assigned"
  | .lost => "lost"
  | .expired => "expired"
  | .revoked => "revoked"
  | .rejected => "rejected"
  | .retry => "retry"
  | .declined => "declined"
  | .unknown => "unknown"

namespace OfferController

variable (c : OfferController)

def onRideOffer (offer : SoloRideOffer) : OfferController × List Effect :=
  ({ c with state := .applyOffer offer, ticker := true }, [.navigate (.offer offer.offerId)])

def onAccepted (offerId : OfferId) (rideId : Uuid) : OfferController × List Effect :=
  match c.state.applyAccepted offerId rideId with
  | (state, true) =>
      ({ c with state, ticker := false, routedRideId := some rideId }, [.navigate (.ride rideId)])
  | (_, false) => (c, [])

def onRevoked (offerId : OfferId) (reason : Option String) : OfferController × List Effect :=
  match c.state.applyRevoked offerId reason with
  | (state, true) => ({ c with state, ticker := false }, [.navigate .home])
  | (_, false) => (c, [])

def onOutcome (o : OfferOutcome) : OfferController × List Effect :=
  if o.isShared then (c, [])
  else
    match o.kind with
    | .assigned =>
        match o.tripId with
        | some rideId => c.onAccepted o.offerId rideId
        | none => (c, [])
    | .retry => ({ c with state := c.state.applyRetry o.offerId }, [])
    | .declined => (c, [])
    | .unknown =>
        -- Undecided: keep claiming and ask the server.
        if c.state.phase = .claiming ∧ c.state.Live o.offerId then
          ({ c with awaitingVerdict := true }, [.requestAssignmentSnapshot])
        else (c, [])
    | kind => c.onRevoked o.offerId (o.reason <|> some kind.name)

/-- A snapshot on every reconnect does not navigate again. -/
def route (tripId : Uuid) : OfferController × List Effect :=
  if c.routedRideId = some tripId then (c, [])
  else ({ c with routedRideId := some tripId }, [.navigate (.ride tripId)])

def onAssignment : Option DriverAssignment → OfferController × List Effect
  | none =>
      let c := { c with routedRideId := none }
      match c.state.offer with
      | some offer =>
          if c.awaitingVerdict ∧ c.state.phase = .claiming then
            -- No committed assignment: the undecided accept did not win.
            { c with awaitingVerdict := false }.onRevoked offer.offerId (some "unavailable")
          else (c, [])
      | none => (c, [])
  | some a =>
      if ¬ a.isSolo then (c, [])
      else
        let c := { c with awaitingVerdict := false }
        match a.offerId with
        | some offerId =>
            if c.state.Live offerId then c.onAccepted offerId a.tripId
            else c.route a.tripId
        | none => c.route a.tripId

def receive : OfferMessage → OfferController × List Effect
  | .rideOffer offer => c.onRideOffer offer
  | .rideOfferAccepted offerId rideId => c.onAccepted offerId rideId
  | .rideOfferRevoked offerId reason => c.onRevoked offerId reason
  | .rideOfferOutcome outcome => c.onOutcome outcome
  | .driverAssignment a => c.onAssignment a

/-- The timer's callback. -/
def onTick : OfferController × List Effect :=
  if c.ticker = false then (c, [])
  else
    let c := { c with state := c.state.tick }
    if c.state.phase = .expired then ({ c with ticker := false }, [.navigate .home]) else (c, [])

/-- The driver taps Accept. -/
def accept : OfferController × List Effect :=
  match c.state.offer with
  | some offer =>
      if c.state.phase ≠ .ringing then (c, [])
      else
        ({ c with state := { c.state with phase := .claiming } },
          [.sendOfferResponse offer.offerId true])
  | none => (c, [])

/-- The driver taps Decline. -/
def decline : OfferController × List Effect :=
  match c.state.offer with
  | some offer =>
      ({ c with state := .empty },
        if c.state.phase = .ringing ∨ c.state.phase = .claiming then
          [.sendOfferResponse offer.offerId false]
        else [])
  | none => (c, [])

end OfferController

/-- What happens to the controller. -/
inductive OfferInput where
  | receive (m : OfferMessage)
  | tick
  | accept
  | decline
  | reset
deriving DecidableEq, Repr

def OfferController.apply (c : OfferController) : OfferInput → OfferController × List Effect
  | .receive m => c.receive m
  | .tick => c.onTick
  | .accept => c.accept
  | .decline => c.decline
  | .reset => ({ c with state := .empty }, [])

/-! ## What becomes of an offer -/

/-- The message is about the offer, and has its ride. -/
def OfferMessage.About (o : SoloRideOffer) : OfferMessage → Prop
  | .rideOffer _ => False
  | .rideOfferAccepted offerId rideId => offerId = o.offerId ∧ rideId = o.rideId
  | .rideOfferRevoked offerId _ => offerId = o.offerId
  | .rideOfferOutcome x =>
      x.offerId = o.offerId ∧ ¬ x.isShared ∧ (x.kind = .assigned → x.tripId = some o.rideId)
  | .driverAssignment none => True
  | .driverAssignment (some a) => a.isSolo ∧ a.offerId = some o.offerId ∧ a.tripId = o.rideId

/-- It tells that the driver has the trip. -/
def OfferMessage.Wins : OfferMessage → Prop
  | .rideOffer _ | .rideOfferRevoked _ _ => False
  | .rideOfferAccepted _ _ => True
  | .rideOfferOutcome x => x.kind = .assigned
  | .driverAssignment a => a.isSome

namespace OfferInput

/-- The offer goes on being asked: no other one rings, and the driver does not dismiss it. -/
def About (o : SoloRideOffer) : OfferInput → Prop
  | .receive m => m.About o
  | .tick | .accept => True
  | .decline | .reset => False

def Wins : OfferInput → Prop
  | .receive m => m.Wins
  | _ => False

def isRetry : OfferInput → Bool
  | .receive (.rideOfferOutcome x) => x.kind = .retry
  | _ => false

end OfferInput

def Effect.isAccept : Effect → Bool
  | .sendOfferResponse _ accept => accept
  | _ => false

/-- One input, with what it does to the outside. -/
def heard (w : OfferController × List Effect) (i : OfferInput) (w' : OfferController × List Effect) :
    Prop :=
  ((w.1.apply i).1, w.2 ++ (w.1.apply i).2) = w'

section About

variable {o : SoloRideOffer} {c : OfferController} {i : OfferInput}

theorem OfferState.live_of_offer {s : OfferState} (h : s.offer = some o) : s.Live o.offerId :=
  ⟨o, h, rfl⟩

namespace OfferController

/-- The offer in question is the live one. -/
theorem onAccepted_eq (h : c.state.offer = some o) (rideId : Uuid) :
    c.onAccepted o.offerId rideId =
      if c.state.phase = .accepted then (c, [])
      else ({ c with
          state := { c.state with phase := .accepted, rideId := some rideId }
          ticker := false
          routedRideId := some rideId }, [.navigate (.ride rideId)]) := by
  unfold onAccepted OfferState.applyAccepted
  rw [if_neg (not_not.mpr (OfferState.live_of_offer h))]
  split_ifs <;> rfl

theorem onRevoked_eq (h : c.state.offer = some o) (reason : Option String) :
    c.onRevoked o.offerId reason =
      if c.state.phase = .revoked ∨ c.state.phase = .accepted then (c, [])
      else ({ c with
          state :=
            { c.state with phase := .revoked, revokeReason := reason <|> c.state.revokeReason }
          ticker := false }, [.navigate .home]) := by
  unfold onRevoked OfferState.applyRevoked
  rw [if_neg (not_not.mpr (OfferState.live_of_offer h))]
  split_ifs <;> rfl

end OfferController

/-- What an input about the live offer can do: settle it, or leave it unsettled. -/
inductive Turn (o : SoloRideOffer) (s : OfferState) (i : OfferInput) : OfferState → List Effect → Prop
  /-- A win is taken up. -/
  | won (hw : i.Wins) (hp : s.phase ≠ .accepted) :
      Turn o s i { s with phase := .accepted, rideId := some o.rideId } [.navigate (.ride o.rideId)]
  /-- Once won, nothing changes any more. -/
  | settled (hp : s.phase = .accepted) : Turn o s i s []
  /-- A loss, or the end of the countdown. -/
  | lost {s' : OfferState} (hw : ¬ i.Wins) (hp : s.phase ≠ .accepted) (hs : s'.offer = s.offer)
      (hp' : s'.phase = .revoked ∨ s'.phase = .expired) : Turn o s i s' [.navigate .home]
  /-- The countdown goes on. -/
  | counted (hw : ¬ i.Wins) (hp : s.phase ≠ .accepted) {secondsLeft : Int} :
      Turn o s i { s with secondsLeft } []
  | tapped (hw : ¬ i.Wins) (hp : s.phase = .ringing) :
      Turn o s i { s with phase := .claiming } [.sendOfferResponse o.offerId true]
  | retried (hw : ¬ i.Wins) (hr : i.isRetry) (hp : s.phase = .claiming) :
      Turn o s i { s with phase := .ringing } []
  | asked (hw : ¬ i.Wins) (hp : s.phase = .claiming) : Turn o s i s [.requestAssignmentSnapshot]

namespace Turn

variable {s s' : OfferState} {es : List Effect}

/-- Nothing happens. -/
theorem same (hw : i.Wins → s.phase = .accepted) : Turn o s i s [] := by
  by_cases hp : s.phase = .accepted
  · exact .settled hp
  · exact .counted (fun h ↦ hp (hw h)) hp

theorem of_accepted (hi : i.Wins) (h : c.state.offer = some o) :
    Turn o c.state i (c.onAccepted o.offerId o.rideId).1.state
      (c.onAccepted o.offerId o.rideId).2 := by
  rw [OfferController.onAccepted_eq h]
  split_ifs with hp
  · exact .settled hp
  · exact .won hi hp

theorem of_revoked (hi : ¬ i.Wins) (h : c.state.offer = some o) (reason : Option String) :
    Turn o c.state i (c.onRevoked o.offerId reason).1.state (c.onRevoked o.offerId reason).2 := by
  rw [OfferController.onRevoked_eq h]
  split_ifs with hp
  · exact .same fun hw ↦ absurd hw hi
  · exact .lost hi (fun ha ↦ hp (Or.inr ha)) rfl (Or.inl rfl)

theorem of_outcome {x : OfferOutcome} (h : c.state.offer = some o)
    (hx : (OfferMessage.rideOfferOutcome x).About o) :
    Turn o c.state (.receive (.rideOfferOutcome x)) (c.onOutcome x).1.state (c.onOutcome x).2 := by
  obtain ⟨hid, hshared, htrip⟩ := hx
  have hlive : c.state.Live x.offerId := hid ▸ OfferState.live_of_offer h
  unfold OfferController.onOutcome
  rw [if_neg hshared]
  cases hk : x.kind with
  | assigned =>
    dsimp only
    rw [htrip hk, hid]
    exact .of_accepted hk h
  | retry =>
    have hw : ¬ (OfferInput.receive (.rideOfferOutcome x)).Wins := fun hw ↦ (by
      cases hk.symm.trans hw)
    dsimp only
    unfold OfferState.applyRetry
    rw [if_neg (not_not.mpr hlive)]
    split_ifs with hp
    · exact .same fun h ↦ absurd h hw
    · exact .retried hw (decide_eq_true hk) (not_not.mp hp)
  | declined => exact .same fun hw ↦ (by cases hk.symm.trans hw)
  | unknown =>
    have hw : ¬ (OfferInput.receive (.rideOfferOutcome x)).Wins := fun hw ↦ (by
      cases hk.symm.trans hw)
    dsimp only
    split_ifs with hp
    · exact .asked hw hp.1
    · exact .same fun h ↦ absurd h hw
  | lost | expired | revoked | rejected =>
    dsimp only
    rw [hid]
    exact .of_revoked (fun hw ↦ (by cases hk.symm.trans hw)) h _

theorem of_assignment {a : Option DriverAssignment} (h : c.state.offer = some o)
    (ha : (OfferMessage.driverAssignment a).About o) :
    Turn o c.state (.receive (.driverAssignment a)) (c.onAssignment a).1.state
      (c.onAssignment a).2 := by
  cases a with
  | none =>
    unfold OfferController.onAssignment
    dsimp only
    rw [h]
    dsimp only
    split_ifs with hp
    · have hw : ¬ (OfferInput.receive (.driverAssignment none)).Wins := fun hw ↦ (by cases hw)
      exact .of_revoked
        (c := { c with routedRideId := none, awaitingVerdict := false }) hw h _
    · exact .same fun hw ↦ (by cases hw)
  | some a =>
    obtain ⟨hsolo, hoffer, htrip⟩ := ha
    unfold OfferController.onAssignment
    dsimp only
    rw [if_neg (not_not.mpr hsolo), hoffer, htrip]
    dsimp only
    rw [if_pos (OfferState.live_of_offer h)]
    exact .of_accepted (c := { c with awaitingVerdict := false }) rfl h

theorem of_tick (c : OfferController) : Turn o c.state .tick c.onTick.1.state c.onTick.2 := by
  have hw : ¬ OfferInput.tick.Wins := fun hw ↦ hw
  have htick : c.state.tick = c.state ∨ c.state.phase = .ringing ∧
      (c.state.tick = { c.state with phase := .expired, secondsLeft := 0 } ∨
        c.state.tick = { c.state with secondsLeft := c.state.secondsLeft - 1 }) := by
    unfold OfferState.tick
    dsimp only
    split_ifs with hp
    · exact Or.inl rfl
    · exact Or.inr ⟨not_not.mp hp, Or.inl rfl⟩
    · exact Or.inr ⟨not_not.mp hp, Or.inr rfl⟩
  unfold OfferController.onTick
  dsimp only
  by_cases ht : c.ticker = false
  · rw [if_pos ht]
    exact .same fun h ↦ absurd h hw
  rw [if_neg ht]
  by_cases he : c.state.tick.phase = .expired
  · rw [if_pos he]
    have hoffer : c.state.tick.offer = c.state.offer := by
      rcases htick with hs | ⟨-, hs | hs⟩ <;> rw [hs]
    have hp : c.state.phase ≠ .accepted := by
      intro ha
      rcases htick with hs | ⟨hp, -⟩
      · rw [hs, ha] at he
        cases he
      · rw [ha] at hp
        cases hp
    exact .lost hw hp hoffer (Or.inr he)
  · rw [if_neg he]
    dsimp only
    rcases htick with hs | ⟨hp, hs | hs⟩
    · rw [hs]
      exact .same fun h ↦ absurd h hw
    · exact absurd (congrArg OfferState.phase hs) he
    · rw [hs]
      exact .counted hw (by simp [hp])

theorem of_accept (h : c.state.offer = some o) :
    Turn o c.state .accept c.accept.1.state c.accept.2 := by
  have hw : ¬ OfferInput.accept.Wins := fun hw ↦ hw
  unfold OfferController.accept
  rw [h]
  dsimp only
  split_ifs with hp
  · exact .same fun h ↦ absurd h hw
  · exact .tapped hw (not_not.mp hp)

end Turn

/-- What every input about the live offer does. -/
theorem OfferController.turn (h : c.state.offer = some o) (hi : i.About o) :
    Turn o c.state i (c.apply i).1.state (c.apply i).2 := by
  cases i with
  | receive m =>
    cases m with
    | rideOffer offer => exact hi.elim
    | rideOfferAccepted offerId rideId =>
      obtain ⟨rfl, rfl⟩ := hi
      exact .of_accepted trivial h
    | rideOfferRevoked offerId reason =>
      obtain rfl : offerId = o.offerId := hi
      have hw : ¬ (OfferInput.receive (.rideOfferRevoked o.offerId reason)).Wins := fun hw ↦ hw
      exact .of_revoked hw h reason
    | rideOfferOutcome x => exact .of_outcome h hi
    | driverAssignment a => exact .of_assignment h hi
  | tick => exact .of_tick c
  | accept => exact .of_accept h
  | decline => exact hi.elim
  | reset => exact hi.elim

/-! ## The verdict -/

/-- The offer as it stands after the inputs of a run, and what they did to the outside. -/
structure Standing (o : SoloRideOffer) (tr : List ((OfferController × List Effect) × OfferInput))
    (s : OfferState) (es : List Effect) : Prop where
  offer : s.offer = some o
  won : s.phase = .accepted ↔ ∃ x ∈ tr, x.2.Wins
  rideId : s.phase = .accepted → s.rideId = some o.rideId
  once : es.count (.navigate (.ride o.rideId)) = if s.phase = .accepted then 1 else 0
  nowhere : ∀ rideId, .navigate (.ride rideId) ∈ es → rideId = o.rideId
  asked : es.countP Effect.isAccept + (if s.phase = .ringing then 1 else 0) ≤
    1 + tr.countP fun x ↦ x.2.isRetry

/-- A turn without a win. -/
theorem Standing.goes_on {tr : List ((OfferController × List Effect) × OfferInput)}
    {s s' : OfferState} {es es' : List Effect} {w : OfferController × List Effect}
    (h : Standing o tr s es) (hw : ¬ i.Wins) (hp : s.phase ≠ .accepted) (hp' : s'.phase ≠ .accepted)
    (hs : s'.offer = s.offer) (hes : ∀ rideId, .navigate (.ride rideId) ∉ es')
    (hask : es'.countP Effect.isAccept + (if s'.phase = .ringing then 1 else 0) ≤
      (if s.phase = .ringing then 1 else 0) + i.isRetry.toNat) :
    Standing o (tr ++ [(w, i)]) s' (es ++ es') where
  offer := hs.trans h.offer
  won := by
    refine ⟨fun ha ↦ absurd ha hp', fun ⟨x, hx, hwin⟩ ↦ absurd ?_ hp⟩
    rcases List.mem_append.mp hx with hx | hx
    · exact h.won.mpr ⟨x, hx, hwin⟩
    · rw [List.mem_singleton.mp hx] at hwin
      exact absurd hwin hw
  rideId ha := absurd ha hp'
  once := by
    rw [List.count_append, h.once, if_neg hp, if_neg hp', List.count_eq_zero_of_not_mem (hes _)]
  nowhere rideId hr := (List.mem_append.mp hr).elim (h.nowhere rideId) fun hr ↦ absurd hr (hes _)
  asked := by
    have hold := h.asked
    rw [List.countP_append, List.countP_append, List.countP_singleton]
    cases hr : i.isRetry <;> simp only [hr, Bool.toNat_false, Bool.toNat_true, if_true,
      Bool.false_eq_true, if_false] at hask ⊢ <;> omega

theorem Standing.turn {tr : List ((OfferController × List Effect) × OfferInput)}
    {s s' : OfferState} {es es' : List Effect} {w : OfferController × List Effect}
    (h : Standing o tr s es) (ht : Turn o s i s' es') :
    Standing o (tr ++ [(w, i)]) s' (es ++ es') := by
  cases ht with
  | won hw hp =>
    refine ⟨h.offer, ⟨fun _ ↦ ⟨_, List.mem_append_right _ (List.mem_singleton_self _), hw⟩,
      fun _ ↦ rfl⟩, fun _ ↦ rfl, ?_, ?_, ?_⟩
    · rw [List.count_append, h.once, if_neg hp, if_pos rfl]
      simp
    · intro rideId hr
      rcases List.mem_append.mp hr with hr | hr
      · exact h.nowhere rideId hr
      · simpa using hr
    · have hold := h.asked
      rw [List.countP_append, List.countP_append]
      simp only [reduceCtorEq, if_false, List.countP_singleton, Effect.isAccept, Bool.false_eq_true]
      omega
  | settled hp =>
    rw [List.append_nil]
    refine ⟨h.offer, ⟨fun _ ↦ ?_, fun _ ↦ hp⟩, h.rideId, h.once, h.nowhere, ?_⟩
    · obtain ⟨x, hx, hwin⟩ := h.won.mp hp
      exact ⟨x, List.mem_append_left _ hx, hwin⟩
    · have hold := h.asked
      rw [List.countP_append]
      omega
  | lost hw hp hs hp' =>
    refine h.goes_on hw hp ?_ hs (by simp) ?_
    · rcases hp' with hp' | hp' <;> simp [hp']
    · rcases hp' with hp' | hp' <;> simp [hp', Effect.isAccept]
  | counted hw hp => exact h.goes_on hw hp hp rfl (by simp) (by simp)
  | tapped hw hp =>
    exact h.goes_on hw (by simp [hp]) (fun h ↦ (by cases h)) rfl (by simp)
      (by simp [hp, Effect.isAccept])
  | retried hw hr hp =>
    exact h.goes_on hw (by simp [hp]) (fun h ↦ (by cases h)) rfl (by simp) (by simp [hr, hp])
  | asked hw hp =>
    exact h.goes_on hw (by simp [hp]) (by simp [hp]) rfl (by simp) (by simp [hp, Effect.isAccept])

/-- Whatever the order in which the server's messages about an offer come, however often each does,
and whatever countdown steps and taps come between them: the offer ends up accepted just when one of
them said so, the app is taken to its ride once then and never otherwise, and it accepts the offer
once, and once more for each retry. -/
theorem offer_settles {o : SoloRideOffer} {c c' : OfferController} {es : List Effect}
    {tr : List ((OfferController × List Effect) × OfferInput)}
    (hr : Run (only heard fun _ i ↦ i.About o) (c.onRideOffer o) tr (c', es)) :
    Standing o tr c'.state es := by
  refine hr.invariant_trace (I := fun tr w ↦ Standing o tr w.1.state w.2) ?_ ?_
  · rintro tr w i w' h ⟨hst, hi⟩
    obtain rfl := hst
    exact h.turn (w.1.turn h.offer hi)
  · exact ⟨rfl, by simp [OfferController.onRideOffer, OfferState.applyOffer],
      fun h ↦ (by cases h), by simp [OfferController.onRideOffer, OfferState.applyOffer],
      by simp [OfferController.onRideOffer],
      by simp [OfferController.onRideOffer, OfferState.applyOffer, Effect.isAccept]⟩

end About

/-! A win that comes after a loss, and before another one. -/

def sampleSoloOffer : SoloRideOffer := ⟨3, 5, 12000, ⟨0, 0⟩, ⟨0, 1⟩, 900, 1⟩

def sampleHeard : List OfferInput :=
  [.tick, .accept, .receive (.rideOfferRevoked 3 (some "unavailable")),
    .receive (.rideOfferAccepted 3 5), .receive (.rideOfferRevoked 3 none), .tick]

/-- What `heard` leads to. -/
def hearNext (w : OfferController × List Effect) (i : OfferInput) :
    OfferController × List Effect :=
  ((w.1.apply i).1, w.2 ++ (w.1.apply i).2)

theorem sampleHeard_settles : Standing sampleSoloOffer
    (traceOf hearNext (OfferController.onRideOffer {} sampleSoloOffer) sampleHeard)
    (sampleHeard.foldl hearNext (OfferController.onRideOffer {} sampleSoloOffer)).1.state
    (sampleHeard.foldl hearNext (OfferController.onRideOffer {} sampleSoloOffer)).2 := by
  have hok : Enabled (fun _ i ↦ OfferInput.About sampleSoloOffer i) hearNext
      (OfferController.onRideOffer {} sampleSoloOffer) sampleHeard :=
    ⟨trivial, trivial, rfl, ⟨rfl, rfl⟩, rfl, trivial, trivial⟩
  exact offer_settles (Run.of_enabled _ (fun _ _ h ↦ ⟨rfl, h⟩) sampleHeard hok)

end Rcab.DriverApp
