import Rcab.Trips.RefineRides
import Rcab.Trips.RefinePools

/-!
# Runs of the trips are runs of the market

`sim_exec` puts the transactions together: any step of the system is market steps, and
irregular only where the step itself is (`Step.lax`).  The invariants of the market are
then invariants of every run of the system.
-/

universe u

namespace Rcab

open Market (Lax)

/-- How irregular a step is: a wake other than the first may move a window under its live
offers, an accept for another trip than the offer's binds a trip the offer does not name. -/
def Step.lax (db : Db) : Step → Lax
  | .acceptInTx _ _ offerId driverId trip => acceptLax db offerId driverId trip
  | .wakeScheduled _ generation => wakeLax generation
  | _ => Lax.none

/-- The only wake the outbox ever publishes is the one for generation 1. -/
def Step.FirstWake (_ : Db) : Step → Prop
  | .wakeScheduled _ generation => generation = 1
  | _ => True

/-- The trip an accept runs with is read from the caller's offer, as `acceptOffer` does. -/
def Step.Derived (db : Db) : Step → Prop
  | .acceptInTx _ _ offerId driverId trip =>
      ∀ o, Dispatch.findForDriver db offerId driverId = some o → o.trip = trip
  | _ => True

/-- Accepting an offer is a derived accept, or nothing at all. -/
theorem acceptOffer_derived {D : Type u} [LinearOrder D] (dist : Point → Point → D) (t : TxClock)
    (db : Db) (accounts : Dispatch.Accounts) (offerId : OfferId) (driverId : DriverId) :
    (Dispatch.acceptOffer t db accounts offerId driverId).commit db = db ∨ ∃ trip,
      Step.Derived db (.acceptInTx t accounts offerId driverId trip) ∧
        (Dispatch.acceptOffer t db accounts offerId driverId).commit db =
          exec dist db (.acceptInTx t accounts offerId driverId trip) := by
  unfold Dispatch.acceptOffer
  cases hseen : Dispatch.findForDriver db offerId driverId with
  | none => exact Or.inl rfl
  | some seen =>
      refine Or.inr ⟨seen.trip, fun o ho ↦ ?_, rfl⟩
      rw [Option.some.inj (hseen.symm.trans ho)]

theorem Step.not_shift {db : Db} {e : Step} (h : e.FirstWake db) : ¬ (e.lax db).shift := by
  cases e with
  | wakeScheduled rideId generation => exact fun hne ↦ hne h
  | acceptInTx t accounts offerId driverId trip => exact fun hf ↦ hf
  | _ => exact fun hf ↦ hf

theorem Step.not_foreign {db : Db} {e : Step} (h : e.Derived db) : ¬ (e.lax db).foreign := by
  cases e with
  | acceptInTx t accounts offerId driverId trip => exact fun ⟨o, ho, hne⟩ ↦ hne (h o ho)
  | wakeScheduled rideId generation => exact fun hf ↦ hf
  | _ => exact fun hf ↦ hf

section System

variable {D : Type u} [LinearOrder D] {dist : Point → Point → D}
variable {db db' db₀ : Db} {e : Step} {tr : List (Db × Step)}

variable (dist) in
/-- **Simulation**: every step of the system is within the market. -/
theorem sim_exec (he : Market.Exclusive (market db)) (hu : OpenUnclaimed db) (e : Step) :
    Sim (e.lax db) db (exec dist db e) := by
  cases e with
  | createRide t params => exact Tx.commit_of (fun _ _ h ↦ sim_create h) .refl
  | createOffer t newId locked p => exact Tx.commit_of (fun _ _ h ↦ sim_createOffer h) .refl
  | acceptInTx t accounts offerId driverId trip =>
      exact Tx.commit_of (fun _ _ h ↦ sim_acceptInTx h) .refl
  | decline t offerId driverId => exact sim_decline
  | expireLapsed t locked => exact sim_expireLapsed
  | claimSolo t rideId driverId => exact Tx.commit_of (fun _ _ h ↦ sim_claimSolo h) .refl
  | transition dateNow rideId driverId event => exact sim_transition event he
  | cancel t dateNow params => exact sim_cancel he
  | markNoDriver t rideId generation => exact sim_markNoDriver
  | rearmScheduledRide t rideId expectedGeneration => exact sim_rearmScheduledRide
  | wakeScheduled rideId generation => exact sim_wakeScheduled
  | openPool t p => exact Tx.commit_of (fun _ _ h ↦ sim_openPool h) .refl
  | joinPool t p => exact Tx.commit_of (fun _ _ h ↦ sim_joinPool h hu) .refl
  | closeIfOpen t poolId => exact Tx.commit_of (fun _ _ h ↦ sim_closeIfOpen h hu) .refl
  | hardFailPool t poolId generation => exact sim_hardFailPool
  | confirmStop t input => exact Tx.commit_of (fun _ _ h ↦ sim_confirmStop h he) .refl

/-- What every reachable database satisfies. -/
structure TripsInv (db : Db) : Prop where
  exclusive : Market.Exclusive (market db)
  openUnclaimed : OpenUnclaimed db

namespace TripsInv

theorem of_noTrips (h : db.NoTrips) : TripsInv db where
  exclusive := by
    refine .of_closed (fun trip ↦ ?_) fun d ↦ ?_
    · cases trip with
      | solo rideId =>
          have : db.rides.get rideId = none :=
            Table.get_eq_none.mpr fun r hr ↦ absurd hr (h.rides r)
          simp [Db.phase, this]
      | shared poolId =>
          have : db.sharedRides.get poolId = none :=
            Table.get_eq_none.mpr fun s hs ↦ absurd hs (h.sharedRides s)
          simp [Db.phase, this]
    · rw [market_guard_eq_none, Table.get_eq_none]
      exact fun a ha ↦ absurd ha (h.driverActiveAssignment a)
  openUnclaimed s hs := absurd hs (h.sharedRides s)

theorem step (h : TripsInv db) (hst : step dist db e db') : TripsInv db' := by
  obtain rfl := hst
  have hsim := sim_exec dist h.exclusive h.openUnclaimed e
  exact ⟨hsim.exclusive h.exclusive, hsim.openUnclaimed h.openUnclaimed⟩

theorem run (h : TripsInv db₀) (hr : Run (Rcab.step dist) db₀ tr db) : TripsInv db :=
  hr.invariant (fun _ _ _ hi hst ↦ hi.step hst) h

end TripsInv

theorem market_offer_of_noTrips (h : db.NoTrips) (o : OfferId) : (market db).offer o = none := by
  cases hv : (market db).offer o with
  | none => rfl
  | some v =>
      obtain ⟨r, hr, -⟩ := market_offer_eq_some.mp hv
      exact absurd hr (h.dispatchOffer r)

/-- Without stale wakes, the live offers are those of the current windows. -/
theorem fresh_of_run (h₀ : db₀.NoTrips) (hr : Run (only (step dist) Step.FirstWake) db₀ tr db) :
    TripsInv db ∧ Market.Fresh (market db) := by
  refine hr.invariant (I := fun db ↦ TripsInv db ∧ Market.Fresh (market db)) ?_
    ⟨.of_noTrips h₀, .of_empty (market_offer_of_noTrips h₀)⟩
  rintro s e t ⟨hi, hf⟩ ⟨hst, he⟩
  refine ⟨hi.step hst, ?_⟩
  obtain rfl := hst
  exact hf.steps (sim_exec dist hi.exclusive hi.openUnclaimed e).steps (Step.not_shift he)

/-- With trips derived from the offers, a trip has at most one accepted offer. -/
theorem single_of_run (h₀ : db₀.NoTrips) (hr : Run (only (step dist) Step.Derived) db₀ tr db) :
    TripsInv db ∧ Market.Single (market db) := by
  refine hr.invariant (I := fun db ↦ TripsInv db ∧ Market.Single (market db)) ?_
    ⟨.of_noTrips h₀, .of_empty (market_offer_of_noTrips h₀)⟩
  rintro s e t ⟨hi, hs⟩ ⟨hst, he⟩
  refine ⟨hi.step hst, ?_⟩
  obtain rfl := hst
  exact hs.steps (sim_exec dist hi.exclusive hi.openUnclaimed e).steps (Step.not_foreign he)

/-- A guard's offer was accepted, and generations count from 1. -/
theorem named_of_run (h₀ : db₀.NoTrips) (hr : Run (step dist) db₀ tr db) :
    Market.Named (market db) := by
  have : TripsInv db ∧ Market.Named (market db) := by
    refine hr.invariant (I := fun db ↦ TripsInv db ∧ Market.Named (market db)) ?_
      ⟨.of_noTrips h₀, .of_empty (fun d ↦ ?_) (market_offer_of_noTrips h₀)⟩
    · rintro s e t ⟨hi, hn⟩ hst
      refine ⟨hi.step hst, ?_⟩
      obtain rfl := hst
      exact hn.steps (sim_exec dist hi.exclusive hi.openUnclaimed e).steps
    · rw [market_guard_eq_none, Table.get_eq_none]
      exact fun a ha ↦ absurd ha (h₀.driverActiveAssignment a)
  exact this.2

/-- An accepted offer stays so for the rest of a run. -/
theorem accepted_of_run {o : OfferId} {v : Market.Offer TripRef DriverId} (hi : TripsInv db₀)
    (h : (market db₀).OfferIs o .accepted v) (hr : Run (step dist) db₀ tr db) :
    (market db).OfferIs o .accepted v := by
  have : TripsInv db ∧ (market db).OfferIs o .accepted v := by
    refine hr.invariant (I := fun db ↦ TripsInv db ∧ (market db).OfferIs o .accepted v) ?_ ⟨hi, h⟩
    rintro s e t ⟨hi, ho⟩ hst
    refine ⟨hi.step hst, ?_⟩
    obtain rfl := hst
    exact ho.steps (sim_exec dist hi.exclusive hi.openUnclaimed e).steps
  exact this.2

/-- An offer keeps its trip, its driver and its generation for the rest of a run. -/
theorem offer_of_run {o : OfferId} {v : Market.Offer TripRef DriverId} (hi : TripsInv db₀)
    (h : (market db₀).offer o = some v) (hr : Run (step dist) db₀ tr db) :
    ∃ v', (market db).offer o = some v' ∧ v.Same v' := by
  have : TripsInv db ∧ ∃ v', (market db).offer o = some v' ∧ v.Same v' := by
    refine hr.invariant (I := fun db ↦ TripsInv db ∧ ∃ v', (market db).offer o = some v' ∧
      v.Same v') ?_ ⟨hi, v, h, .refl⟩
    rintro s e t ⟨hi, v', hv', hsame⟩ hst
    refine ⟨hi.step hst, ?_⟩
    obtain rfl := hst
    obtain ⟨v'', hv'', hsame'⟩ :=
      Market.State.offer_steps hv' (sim_exec dist hi.exclusive hi.openUnclaimed e).steps
    exact ⟨v'', hv'', hsame.trans hsame'⟩
  exact this.2

/-- A trip that is held stays so under the same guard, until it is over. -/
theorem settled_of_run {d : DriverId} {b : Market.Binding TripRef OfferId} (hi : TripsInv db₀)
    (hr : Run (step dist) db₀ tr db) (h : (market db₀).Settled d b) : (market db).Settled d b := by
  have : TripsInv db ∧ (market db).Settled d b := by
    refine hr.invariant (I := fun db ↦ TripsInv db ∧ (market db).Settled d b) ?_ ⟨hi, h⟩
    rintro s e t ⟨hi, hs⟩ hst
    refine ⟨hi.step hst, ?_⟩
    obtain rfl := hst
    exact hs.steps (sim_exec dist hi.exclusive hi.openUnclaimed e).steps
  exact this.2

theorem over_of_run {trip : TripRef} (hi : TripsInv db₀) (hr : Run (step dist) db₀ tr db)
    (h : (market db₀).phase trip = .over) : (market db).phase trip = .over := by
  have : TripsInv db ∧ (market db).phase trip = .over := by
    refine hr.invariant (I := fun db ↦ TripsInv db ∧ (market db).phase trip = .over) ?_ ⟨hi, h⟩
    rintro s e t ⟨hi, hs⟩ hst
    refine ⟨hi.step hst, ?_⟩
    obtain rfl := hst
    exact Market.State.over_steps hs (sim_exec dist hi.exclusive hi.openUnclaimed e).steps
  exact this.2

/-- Between its claim and a state in which the driver still holds the trip, the guard stays. -/
theorem guard_between {d : DriverId} {b b' : Market.Binding TripRef OfferId}
    {tr' : List (Db × Step)} (hi : TripsInv db₀) (hr : Run (step dist) db₀ tr db)
    (hr' : Run (step dist) db tr' db') (h₀ : (market db₀).guard d = some b)
    (h : (market db').guard d = some b') (hjob : b'.job = b.job) :
    (market db).guard d = some b' := by
  have hi' := hi.run hr
  have hheld : (market db').phase b.job = .held d :=
    hjob ▸ (hi'.run hr').exclusive.held_of_guard d b' h
  have hset := settled_of_run hi hr (Or.inr ⟨hi.exclusive.held_of_guard d b h₀, h₀⟩)
  have hg : (market db).guard d = some b := by
    rcases hset with hover | ⟨-, hg⟩
    · cases (over_of_run hi' hr' hover).symm.trans hheld
    · exact hg
  rcases settled_of_run hi' hr' (Or.inr ⟨hi'.exclusive.held_of_guard d b hg, hg⟩) with hover | ⟨-, hg'⟩
  · cases hover.symm.trans hheld
  · obtain rfl := Option.some.inj (h.symm.trans hg')
    exact hg

end System

end Rcab
