import Rcab.Rides.Controller

/-!
# What a ride's row records

However the transactions of the trips follow each other, a row tells a possible life of a ride:
the instants it carries are those of the statuses it went through, and a ride that was called off
says by whom and why (`Ride.Consistent`).  Nothing once written is rewritten (`Ride.Later`).

The cancellations are the ones the controller makes.
-/

universe u

namespace Rcab

open Rides

/-! ## The instants of a status -/

/-- How many of the instants a ride of a status has behind it.  No transaction makes a ride
`dispatching`. -/
def RideStatus.Reached : RideStatus → ℕ → Prop
  | .requested, k | .noDriver, k => k = 0
  | .dispatching, _ => False
  | .accepted, k => k = 1
  | .enRoute, k => k = 2
  | .arrived, k | .noShow, k => k = 3
  | .inProgress, k => k = 4
  | .completed, k => k = 5
  | .cancelled, k => k ≤ 4

/-- The instants behind a ride when an event can happen. -/
def Rides.RideEvent.index : RideEvent → ℕ
  | .startEnRoute => 1
  | .markArrived => 2
  | .startRide => 3
  | .endRide => 4

theorem Rides.RideEvent.reached_source (event : RideEvent) :
    (transitions event).source.Reached event.index := by
  cases event <;> rfl

theorem Rides.RideEvent.reached_target (event : RideEvent) :
    (transitions event).target.Reached (event.index + 1) := by
  cases event <;> rfl

/-- The first `k` of the five instants are written. -/
structure Ride.Stamped (r : Ride) (k : ℕ) : Prop where
  acceptedAt : r.acceptedAt.isSome ↔ 1 ≤ k
  enRouteAt : r.enRouteAt.isSome ↔ 2 ≤ k
  arrivedAt : r.arrivedAt.isSome ↔ 3 ≤ k
  startedAt : r.startedAt.isSome ↔ 4 ≤ k
  completedAt : r.completedAt.isSome ↔ 5 ≤ k

/-- Why there is no trip. -/
inductive Ride.CalledOff (noShowWaitMs : Time) (r : Ride) : Prop
  /-- The passenger cancelled before the start. -/
  | client (hs : r.status = .cancelled) (hby : r.cancelledBy = some .client)
      (hstart : r.startedAt = none)
  /-- The driver cancelled, and said why. -/
  | driver (reason : String) (hs : r.status = .cancelled) (hby : r.cancelledBy = some .driver)
      (hd : r.driverId.isSome) (hreason : r.cancelReason = some reason) (hne : reason ≠ "")
  /-- The passenger did not show up while the driver waited. -/
  | noShow (arrived reported : Time) (hs : r.status = .noShow)
      (hby : r.cancelledBy = some .driver) (hd : r.driverId.isSome)
      (hreason : r.cancelReason = some "no_show") (ha : r.arrivedAt = some arrived)
      (hc : r.cancelledAt = some reported) (hw : noShowWaitMs ≤ reported - arrived)

/-- The row of a possible life of a ride. -/
structure Ride.Consistent (noShowWaitMs : Time) (r : Ride) : Prop where
  stamped : ∃ k, r.status.Reached k ∧ r.Stamped k
  driver : r.driverId.isSome ↔ r.acceptedAt.isSome
  calledOff : r.cancelledAt.isSome → r.CalledOff noShowWaitMs
  on : r.cancelledAt = none → r.status ≠ .cancelled ∧ r.status ≠ .noShow ∧
    r.cancelledBy = none ∧ r.cancelReason = none

/-- What a later row of the ride keeps. -/
structure Ride.Later (r r' : Ride) : Prop where
  booking : r'.booking = r.booking
  route : r'.origin = r.origin ∧ r'.dest = r.dest
  fareCents : r'.fareCents = r.fareCents
  scheduledFor : r'.scheduledFor = r.scheduledFor
  driverId : r.driverId.isSome → r'.driverId = r.driverId
  acceptedAt : r.acceptedAt.isSome → r'.acceptedAt = r.acceptedAt
  enRouteAt : r.enRouteAt.isSome → r'.enRouteAt = r.enRouteAt
  arrivedAt : r.arrivedAt.isSome → r'.arrivedAt = r.arrivedAt
  startedAt : r.startedAt.isSome → r'.startedAt = r.startedAt
  completedAt : r.completedAt.isSome → r' = r
  cancelledAt : r.cancelledAt.isSome → r' = r
  noDriver : r.status = .noDriver → r' = r

namespace Ride

variable {w : Time} {r r' r'' : Ride} {k : ℕ}

/-! ## The changes keep the row consistent -/

/-- How far the ride got can be read off its status, unless it was cancelled. -/
theorem Consistent.stamped_of_status (h : r.Consistent w) (hs : r.status.Reached k)
    (hne : r.status ≠ .cancelled) : r.Stamped k := by
  obtain ⟨j, hj, hst⟩ := h.stamped
  have hjk : j = k := by
    cases hstatus : r.status <;> simp_all [RideStatus.Reached]
  exact hjk ▸ hst

/-- A ride whose status does not say so has not been called off. -/
theorem Consistent.cancelledAt_eq_none (h : r.Consistent w) (hc : r.status ≠ .cancelled)
    (hn : r.status ≠ .noShow) : r.cancelledAt = none := by
  by_contra hne
  rcases h.calledOff (Option.isSome_iff_ne_none.mpr hne) with ⟨hs⟩ | ⟨_, hs⟩ | ⟨_, _, hs⟩
  · exact hc hs
  · exact hc hs
  · exact hn hs

theorem Consistent.row (params : CreateRide) : params.row.Consistent w where
  stamped := ⟨0, rfl, by constructor <;> simp [CreateRide.row]⟩
  driver := by simp [CreateRide.row]
  calledOff h := by simp [CreateRide.row] at h
  on _ := ⟨nofun, nofun, rfl, rfl⟩

/-- A ride that goes on after the change. -/
theorem Consistent.goes_on (h : r.Consistent w) (hc : r.cancelledAt = none)
    (hby : r'.cancelledBy = r.cancelledBy) (hreason : r'.cancelReason = r.cancelReason)
    (hat : r'.cancelledAt = r.cancelledAt) (hne : r'.status ≠ .cancelled ∧ r'.status ≠ .noShow)
    (hst : r'.status.Reached k) (hk : r'.Stamped k)
    (hd : r'.driverId.isSome ↔ r'.acceptedAt.isSome) : r'.Consistent w where
  stamped := ⟨k, hst, hk⟩
  driver := hd
  calledOff hsome := by
    rw [hat, hc] at hsome
    cases hsome
  on _ := ⟨hne.1, hne.2, hby.trans (h.on hc).2.2.1, hreason.trans (h.on hc).2.2.2⟩

theorem Consistent.claimed {driverId : DriverId} {now : Time} {g : ℕ} (h : r.Consistent w)
    (hs : r.status = .requested) :
    ({ r with
        status := .accepted
        driverId := some driverId
        acceptedAt := some now
        dispatchGeneration := g } : Ride).Consistent w := by
  obtain ⟨ha, he, hr, hst, hc⟩ := h.stamped_of_status (k := 0) (by rw [hs]; rfl) (by simp [hs])
  exact h.goes_on (h.cancelledAt_eq_none (by simp [hs]) (by simp [hs])) rfl rfl rfl (by simp) rfl
    ⟨by simp, by simpa using he, by simpa using hr, by simpa using hst, by simpa using hc⟩ (by simp)

theorem Stamped.advance {event : RideEvent} {dateNow : Time} (h : r.Stamped event.index) :
    (advance dateNow (transitions event).target r).Stamped (event.index + 1) := by
  obtain ⟨ha, he, hr, hst, hc⟩ := h
  cases event <;> constructor <;> simp_all [RideEvent.index, transitions, Rides.advance]

theorem Consistent.advanced {event : RideEvent} {dateNow : Time} (h : r.Consistent w)
    (hs : r.status = (transitions event).source) :
    (advance dateNow (transitions event).target r).Consistent w := by
  have hne : r.status ≠ .cancelled ∧ r.status ≠ .noShow := by
    cases event <;> simp [hs, transitions]
  have hk : r.Stamped event.index := h.stamped_of_status (hs ▸ event.reached_source) hne.1
  have hkept : ∀ target, (advance dateNow target r).cancelledAt = r.cancelledAt ∧
      (advance dateNow target r).cancelledBy = r.cancelledBy ∧
      (advance dateNow target r).cancelReason = r.cancelReason ∧
      (advance dateNow target r).acceptedAt = r.acceptedAt := by
    intro target
    cases target <;> exact ⟨rfl, rfl, rfl, rfl⟩
  obtain ⟨hat, hby, hreason, hacc⟩ := hkept (transitions event).target
  refine h.goes_on (h.cancelledAt_eq_none hne.1 hne.2) hby hreason hat ?_ ?_ hk.advance ?_
  · cases event <;> simp [transitions]
  · rw [advance_status]
    exact event.reached_target
  · rw [advance_driverId, hacc]
    exact h.driver

/-- A no-show is reported of a driver that waited, a cancellation of a ride the actor can cancel. -/
theorem cancelTarget_eq_ok {params : CancelRide} {dateNow : Time} {target : RideStatus}
    (h : cancelTarget params dateNow r = .ok target) :
    (params.isNoShow ∧ target = .noShow ∧ r.status = .arrived ∧
      ∃ arrived, r.arrivedAt = some arrived ∧ params.noShowWaitMs ≤ dateNow - arrived) ∨
    (¬ params.isNoShow ∧ target = .cancelled ∧ Cancellable params.actor r.status) := by
  unfold cancelTarget at h
  split_ifs at h with hn hs hcan
  · cases harrived : r.arrivedAt with
    | none => simp [harrived] at h
    | some arrived =>
      rw [harrived] at h
      dsimp only at h
      split_ifs at h with hw
      exact Or.inl ⟨hn, (Except.ok.inj h).symm, not_not.mp hs, arrived, rfl, Int.not_lt.mp hw⟩
  · exact Or.inr ⟨hn, (Except.ok.inj h).symm, hcan⟩

/-- A ride someone can cancel has not been completed, and one its passenger can cancel not been
started. -/
theorem Consistent.stamped_of_cancellable {actor : Actor} (h : r.Consistent w)
    (hcan : Cancellable actor r.status) :
    ∃ k, k ≤ 4 ∧ (actor = .client → k ≤ 3) ∧ r.Stamped k := by
  obtain ⟨k, hk, hst⟩ := h.stamped
  refine ⟨k, ?_, fun ha ↦ ?_, hst⟩
  · cases hs : r.status <;> simp_all [Cancellable, RideStatus.Reached]
  · cases hs : r.status <;> simp_all [Cancellable, RideStatus.Reached]

/-- Whoever calls a ride off, the row says why. -/
theorem Consistent.cancelled {params : CancelRide} {dateNow : Time} {target : RideStatus}
    (h : r.Consistent w) (hc : (controllerCalls w).cancels params) (howns : Owns params r)
    (ht : cancelTarget params dateNow r = .ok target) :
    ({ r with
        status := target
        cancelledAt := some dateNow
        cancelledBy := some params.actor
        cancelReason := params.reason } : Ride).Consistent w := by
  have hbound : params.actor = .driver → r.driverId.isSome := by
    intro ha
    unfold Owns at howns
    rw [ha] at howns
    rw [show r.driverId = some params.actorId from howns]
    rfl
  rcases cancelTarget_eq_ok ht with ⟨hn, rfl, hs, arrived, harrived, hw⟩ | ⟨hn, rfl, hcan⟩
  · obtain ⟨hactor, hreason⟩ := controllerCalls_noShow hc hn
    have hk := h.stamped_of_status (k := 3) (by rw [hs]; rfl) (by simp [hs])
    refine ⟨⟨3, rfl, ⟨hk.1, hk.2, hk.3, hk.4, hk.5⟩⟩, h.driver, fun _ ↦ ?_, nofun⟩
    rw [controllerCalls_waits hc] at hw
    exact .noShow arrived dateNow rfl (congrArg some hactor) (hbound hactor) hreason harrived rfl hw
  · obtain ⟨k, hk, hclient, hst⟩ := h.stamped_of_cancellable hcan
    refine ⟨⟨k, hk, ⟨hst.1, hst.2, hst.3, hst.4, hst.5⟩⟩, h.driver, fun _ ↦ ?_, nofun⟩
    cases hactor : params.actor with
    | client =>
      have hstart : ¬ r.startedAt.isSome := fun hsome ↦
        absurd (hst.startedAt.mp hsome) (Nat.not_le.mpr (Nat.lt_succ_of_le (hclient hactor)))
      exact .client rfl rfl (Option.not_isSome_iff_eq_none.mp hstart)
    | driver =>
      obtain ⟨reason, hreason, hne⟩ := controllerCalls_reason hc hactor
      exact .driver reason rfl rfl (hbound hactor) hreason hne

theorem Consistent.changes (h : r.Consistent w) (hch : r.Changes (controllerCalls w) r') :
    r'.Consistent w := by
  cases hch with
  | claimed driverId now g _ hs hd => exact h.claimed hs
  | advanced event dateNow driverId hd hs => exact h.advanced hs
  | cancelled params dateNow target hc howns ht => exact h.cancelled hc howns ht
  | noDriver hs hd =>
    have hk := h.stamped_of_status (k := 0) (by rw [hs]; rfl) (by simp [hs])
    exact h.goes_on (h.cancelledAt_eq_none (by simp [hs]) (by simp [hs])) rfl rfl rfl
      ⟨nofun, nofun⟩ rfl ⟨hk.1, hk.2, hk.3, hk.4, hk.5⟩ h.driver
  | window g ht hs =>
    have hk := h.stamped_of_status (k := 0) (by rw [hs]; rfl) (by simp [hs])
    exact h.goes_on (h.cancelledAt_eq_none (by simp [hs]) (by simp [hs])) rfl rfl rfl
      (by simp [hs]) (by simp [hs, RideStatus.Reached]) ⟨hk.1, hk.2, hk.3, hk.4, hk.5⟩ h.driver

/-! ## The changes rewrite nothing -/

theorem Later.refl : r.Later r :=
  ⟨rfl, ⟨rfl, rfl⟩, rfl, rfl, fun _ ↦ rfl, fun _ ↦ rfl, fun _ ↦ rfl, fun _ ↦ rfl, fun _ ↦ rfl,
    fun _ ↦ rfl, fun _ ↦ rfl, fun _ ↦ rfl⟩

/-- A ride that changes has not come to an end. -/
theorem Changes.status {c : RideCalls} (h : r.Changes c r') :
    r.status ≠ .completed ∧ r.status ≠ .cancelled ∧ r.status ≠ .noShow ∧ r.status ≠ .noDriver := by
  cases h with
  | claimed _ _ _ _ hs | noDriver hs | window _ _ hs => simp [hs]
  | advanced event _ _ _ hs => cases event <;> simp [hs, transitions]
  | cancelled params dateNow target _ _ ht =>
    rcases cancelTarget_eq_ok ht with ⟨-, -, hs, -⟩ | ⟨-, -, hcan⟩
    · simp [hs]
    · cases hs : r.status <;> simp_all [Cancellable]

theorem Consistent.completed (h : r.Consistent w) (hc : r.completedAt.isSome) :
    r.status = .completed := by
  obtain ⟨k, hk, hst⟩ := h.stamped
  have hfive := hst.completedAt.mp hc
  cases hs : r.status <;> simp_all [RideStatus.Reached]
  omega

theorem Consistent.ended (h : r.Consistent w) (hc : r.cancelledAt.isSome) :
    r.status = .cancelled ∨ r.status = .noShow := by
  rcases h.calledOff hc with ⟨hs⟩ | ⟨_, hs⟩ | ⟨_, _, hs⟩
  · exact Or.inl hs
  · exact Or.inl hs
  · exact Or.inr hs

/-- A change of a ride that has not come to an end. -/
theorem Later.of_open (h : r.Consistent w)
    (hopen : r.status ≠ .completed ∧ r.status ≠ .cancelled ∧ r.status ≠ .noShow ∧
      r.status ≠ .noDriver)
    (hbook : r'.booking = r.booking ∧ (r'.origin = r.origin ∧ r'.dest = r.dest) ∧
      r'.fareCents = r.fareCents ∧ r'.scheduledFor = r.scheduledFor)
    (hd : r.driverId.isSome → r'.driverId = r.driverId)
    (ha : r.acceptedAt.isSome → r'.acceptedAt = r.acceptedAt)
    (he : r.enRouteAt.isSome → r'.enRouteAt = r.enRouteAt)
    (har : r.arrivedAt.isSome → r'.arrivedAt = r.arrivedAt)
    (hst : r.startedAt.isSome → r'.startedAt = r.startedAt) : r.Later r' where
  booking := hbook.1
  route := hbook.2.1
  fareCents := hbook.2.2.1
  scheduledFor := hbook.2.2.2
  driverId := hd
  acceptedAt := ha
  enRouteAt := he
  arrivedAt := har
  startedAt := hst
  completedAt hc := absurd (h.completed hc) hopen.1
  cancelledAt hc := ((h.ended hc).elim hopen.2.1 hopen.2.2.1).elim
  noDriver hs := absurd hs hopen.2.2.2

theorem Later.of_changes {c : RideCalls} (h : r.Consistent w) (hch : r.Changes c r') :
    r.Later r' := by
  have hopen := hch.status
  cases hch with
  | claimed driverId now g _ hs hd =>
    have hk := h.stamped_of_status (k := 0) (by rw [hs]; rfl) hopen.2.1
    refine .of_open h hopen ⟨rfl, ⟨rfl, rfl⟩, rfl, rfl⟩ (fun hsome ↦ ?_) (fun hsome ↦ ?_)
      (fun _ ↦ rfl) (fun _ ↦ rfl) fun _ ↦ rfl
    · rw [hd] at hsome
      cases hsome
    · exact absurd (hk.acceptedAt.mp hsome) (by decide)
  | advanced event dateNow driverId hd hs =>
    have hk : r.Stamped event.index := h.stamped_of_status (hs ▸ event.reached_source) hopen.2.1
    cases event with
    | startEnRoute =>
      exact .of_open h hopen ⟨rfl, ⟨rfl, rfl⟩, rfl, rfl⟩ (fun _ ↦ rfl) (fun _ ↦ rfl)
        (fun hsome ↦ absurd (hk.enRouteAt.mp hsome) (by decide)) (fun _ ↦ rfl) fun _ ↦ rfl
    | markArrived =>
      exact .of_open h hopen ⟨rfl, ⟨rfl, rfl⟩, rfl, rfl⟩ (fun _ ↦ rfl) (fun _ ↦ rfl)
        (fun _ ↦ rfl) (fun hsome ↦ absurd (hk.arrivedAt.mp hsome) (by decide)) fun _ ↦ rfl
    | startRide =>
      exact .of_open h hopen ⟨rfl, ⟨rfl, rfl⟩, rfl, rfl⟩ (fun _ ↦ rfl) (fun _ ↦ rfl)
        (fun _ ↦ rfl) (fun _ ↦ rfl) fun hsome ↦ absurd (hk.startedAt.mp hsome) (by decide)
    | endRide =>
      exact .of_open h hopen ⟨rfl, ⟨rfl, rfl⟩, rfl, rfl⟩ (fun _ ↦ rfl) (fun _ ↦ rfl)
        (fun _ ↦ rfl) (fun _ ↦ rfl) fun _ ↦ rfl
  | cancelled params dateNow target hc howns ht =>
    exact .of_open h hopen ⟨rfl, ⟨rfl, rfl⟩, rfl, rfl⟩ (fun _ ↦ rfl) (fun _ ↦ rfl)
      (fun _ ↦ rfl) (fun _ ↦ rfl) fun _ ↦ rfl
  | noDriver hs hd =>
    exact .of_open h hopen ⟨rfl, ⟨rfl, rfl⟩, rfl, rfl⟩ (fun _ ↦ rfl) (fun _ ↦ rfl)
      (fun _ ↦ rfl) (fun _ ↦ rfl) fun _ ↦ rfl
  | window g ht hs =>
    exact .of_open h hopen ⟨rfl, ⟨rfl, rfl⟩, rfl, rfl⟩ (fun _ ↦ rfl) (fun _ ↦ rfl)
      (fun _ ↦ rfl) (fun _ ↦ rfl) fun _ ↦ rfl

theorem Later.trans_isSome {α : Type} {a b c : Option α} (h : a.isSome → b = a)
    (h' : b.isSome → c = b) (hs : a.isSome) : c = a :=
  (h' (h hs ▸ hs)).trans (h hs)

theorem Later.trans (h : r.Later r') (h' : r'.Later r'') : r.Later r'' where
  booking := h'.booking.trans h.booking
  route := ⟨h'.route.1.trans h.route.1, h'.route.2.trans h.route.2⟩
  fareCents := h'.fareCents.trans h.fareCents
  scheduledFor := h'.scheduledFor.trans h.scheduledFor
  driverId := trans_isSome h.driverId h'.driverId
  acceptedAt := trans_isSome h.acceptedAt h'.acceptedAt
  enRouteAt := trans_isSome h.enRouteAt h'.enRouteAt
  arrivedAt := trans_isSome h.arrivedAt h'.arrivedAt
  startedAt := trans_isSome h.startedAt h'.startedAt
  completedAt hc := by
    obtain rfl := h.completedAt hc
    exact h'.completedAt hc
  cancelledAt hc := by
    obtain rfl := h.cancelledAt hc
    exact h'.cancelledAt hc
  noDriver hs := by
    obtain rfl := h.noDriver hs
    exact h'.noDriver hs

end Ride

/-! ## The system -/

section System

variable {D : Type u} [LinearOrder D] (dist : Point → Point → D) (noShowWaitMs : Time)

/-- The trips, with cancellations as the controller makes them. -/
def controlledStep : Db → Step → Db → Prop :=
  only (step dist) fun _ e ↦ e.Calls (controllerCalls noShowWaitMs)

variable {dist noShowWaitMs} {db₀ db db' : Db} {rideId : RideId} {r : Ride}

theorem rideRows_of_reachable (h : Reachable (controlledStep dist noShowWaitMs) db db') :
    RideRows (controllerCalls noShowWaitMs) db db' := by
  refine h.invariant (fun s e t ih hst ↦ ?_) .refl
  obtain ⟨rfl, hcalls⟩ := hst
  exact ih.trans (rideRows_exec dist hcalls)

/-- A completed ride stays as it is. -/
theorem completed_kept (hi : ∀ r ∈ db.rides, r.Consistent noShowWaitMs)
    (h : RideRows (controllerCalls noShowWaitMs) db db') (hr : db.rides.get rideId = some r)
    (hs : r.status = .completed) : db'.rides.get rideId = some r := by
  have hcons := hi r (Table.mem_of_get hr)
  have hk : r.Stamped 5 := hcons.stamped_of_status (by rw [hs]; rfl) (by simp [hs])
  obtain ⟨r', hr', hrel⟩ := h.related
    (R := fun r r' ↦ r.Consistent noShowWaitMs → r'.Consistent noShowWaitMs ∧ r.Later r')
    (fun _ h ↦ ⟨h, .refl⟩)
    (fun _ _ _ h h' hc ↦ ⟨(h' (h hc).1).1, (h hc).2.trans (h' (h hc).1).2⟩)
    (fun _ _ hch hc ↦ ⟨hc.changes hch, .of_changes hc hch⟩) hr
  rw [hr', (hrel hcons).2.completedAt (hk.completedAt.mpr le_rfl)]

/-- **In every reachable state every ride's row tells a possible life of it.** -/
theorem ride_consistent (h₀ : db₀.NoTrips)
    (h : Reachable (controlledStep dist noShowWaitMs) db₀ db) :
    ∀ r ∈ db.rides, r.Consistent noShowWaitMs :=
  (rideRows_of_reachable h).forall_mem (fun params _ ↦ .row params)
    (fun _ _ hch h ↦ h.changes hch) fun r hr ↦ absurd hr (h₀.rides r)

/-- **A ride is never deleted, and nothing its row has recorded is rewritten.** -/
theorem ride_later (h₀ : db₀.NoTrips)
    (h : Reachable (controlledStep dist noShowWaitMs) db₀ db)
    (h' : Reachable (controlledStep dist noShowWaitMs) db db') (hr : db.rides.get rideId = some r) :
    ∃ r', db'.rides.get rideId = some r' ∧ r.Later r' := by
  have hcons : r.Consistent noShowWaitMs :=
    (rideRows_of_reachable h).forall_mem (fun params _ ↦ .row params)
      (fun _ _ hch h ↦ h.changes hch) (fun r hr ↦ absurd hr (h₀.rides r)) r (Table.mem_of_get hr)
  obtain ⟨r', hr', hrel⟩ := (rideRows_of_reachable h').related
    (R := fun r r' ↦ r.Consistent noShowWaitMs → r'.Consistent noShowWaitMs ∧ r.Later r')
    (fun _ h ↦ ⟨h, .refl⟩)
    (fun _ _ _ h h' hc ↦ ⟨(h' (h hc).1).1, (h hc).2.trans (h' (h hc).1).2⟩)
    (fun _ _ hch hc ↦ ⟨hc.changes hch, .of_changes hc hch⟩) hr
  exact ⟨r', hr', (hrel hcons).2⟩

end System

/-- A ride whose passenger does not show up. -/
def sampleMissed : CreateRide where
  newId := 1
  passengerId := 10
  origin := ⟨0, 0⟩
  dest := ⟨1, 1⟩
  fareCents := 900
  idempotencyKey := "k"

/-- Driver 7 takes it and is there at 100. -/
def sampleWaiting : Db :=
  [Step.createRide ⟨0, 0⟩ sampleMissed, .claimSolo ⟨5, 5⟩ 1 7,
    .transition 50 1 7 .startEnRoute, .transition 100 1 7 .markArrived].foldl
      (exec (D := ℕ) fun _ _ ↦ 0) .empty

def sampleReport : CancelRide := ⟨1, .driver, 7, true, some "no_show", defaultNoShowWaitMs⟩

theorem cancels_sampleReport : (controllerCalls defaultNoShowWaitMs).cancels sampleReport :=
  ⟨⟨7, .driver, .phone⟩, 1, { markNoShow := true }, rfl⟩

/-- The report, five minutes later. -/
def sampleNoShow : Db :=
  exec (D := ℕ) (fun _ _ ↦ 0) sampleWaiting (.cancel ⟨300100, 300100⟩ 300100 sampleReport)

theorem reachable_sampleWaiting :
    Reachable (controlledStep (D := ℕ) (fun _ _ ↦ 0) defaultNoShowWaitMs) .empty sampleWaiting :=
  (((Reachable.refl.tail (e := .createRide ⟨0, 0⟩ sampleMissed) ⟨rfl, trivial⟩).tail
    (e := .claimSolo ⟨5, 5⟩ 1 7) ⟨rfl, trivial⟩).tail
    (e := .transition 50 1 7 .startEnRoute) ⟨rfl, trivial⟩).tail
    (e := .transition 100 1 7 .markArrived) ⟨rfl, trivial⟩

theorem sampleNoShow_consistent :
    ∃ r ∈ sampleNoShow.rides, r.status = .noShow ∧ r.Consistent defaultNoShowWaitMs := by
  have h : sampleNoShow.rides.Any fun r ↦ r.status = .noShow := by decide
  obtain ⟨r, hr, hs⟩ := h
  exact ⟨r, hr, hs, ride_consistent (D := ℕ) Db.empty_noTrips (reachable_sampleWaiting.tail
    (e := .cancel ⟨300100, 300100⟩ 300100 sampleReport) ⟨rfl, cancels_sampleReport⟩) r hr⟩

theorem sampleNoShow_later :
    ∃ r r', sampleWaiting.rides.get 1 = some r ∧ sampleNoShow.rides.get 1 = some r' ∧ r.Later r' := by
  have h : (sampleWaiting.rides.get 1).isSome := by decide
  obtain ⟨r, hr⟩ := Option.isSome_iff_exists.mp h
  obtain ⟨r', hr', hlater⟩ := ride_later (D := ℕ) Db.empty_noTrips reachable_sampleWaiting
    (Reachable.refl.tail (e := .cancel ⟨300100, 300100⟩ 300100 sampleReport)
      ⟨rfl, cancels_sampleReport⟩) hr
  exact ⟨r, r', hr, hr', hlater⟩

end Rcab
