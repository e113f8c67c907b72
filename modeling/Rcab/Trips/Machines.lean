import Rcab.Lib.Refinement
import Rcab.Pools.Membership
import Rcab.Rides.Simulation
import Rcab.Trips.Accepts

/-!
# Runs of the trips, seen from above

The rows go together through the transactions.  Seen from above, the drivers and the trips go
through steps of the market, each ride through steps of its own machine and each pool through steps
of its own, and nothing else happens to any of them (`trips_refine`).
-/

universe u

namespace Rcab

open Market (Lax)
open Relation (ReflTransGen)

/-! ## The regular market -/

section Market

variable {J W O : Type u} [DecidableEq J] [DecidableEq W] [DecidableEq O] {lax lax' : Lax}
  {s t : Market.State J W O}

/-- A step that is not irregular is one of the regular market. -/
theorem Market.Step.mono (hs : lax.shift → lax'.shift) (hf : lax.foreign → lax'.foreign)
    (h : Market.Step lax s t) : Market.Step lax' s t := by
  cases h with
  | settle p => exact .settle p
  | openWindow j g hj => exact .openWindow j g hj
  | wake j g₀ g hj hg => exact .wake j g₀ g hj (hg.imp_left hs)
  | reopen j g₀ g hj => exact .reopen j g₀ g hj
  | make o j w g hj hg ho hw hu => exact .make o j w g hj hg ho hw hu
  | assign j w g₀ g hj hw => exact .assign j w g₀ g hj hw
  | accept o v j ho hv hj hw => exact .accept o v j ho (hv.imp_left hf) hj hw
  | finish j w b hj hw hb => exact .finish j w b hj hw hb
  | close j g hj => exact .close j g hj
  | retire j hj => exact .retire j hj

end Market

/-! ## The three views -/

variable {D : Type u} [LinearOrder D]

/-- The accepts are for the trips of their offers, and the wakes for generation 1. -/
def Step.Regular (db : Db) (e : Step) : Prop :=
  e.Derived db ∧ e.FirstWake db

theorem Step.FirstWake.wakesIn {db : Db} {e : Step} (h : e.FirstWake db) : e.WakesIn (· = 1) := by
  cases e with
  | wakeScheduled rideId generation => exact h
  | _ => trivial

theorem market_refinement (dist : Point → Point → D) :
    Refinement (only (step dist) Step.Regular) TripsInv market (Market.Step Lax.none) where
  keeps hi hst := hi.step hst.1
  path := by
    rintro s e t hi ⟨rfl, hd, hw⟩
    have hpath := (sim_exec dist hi.exclusive hi.openUnclaimed e).steps
    exact hpath.lift id fun _ _ ↦ Market.Step.mono (Step.not_shift hw) (Step.not_foreign hd)

theorem ride_refinement (dist : Point → Point → D) (rideId : RideId) :
    Refinement (only (step dist) Step.Regular) (fun _ ↦ True) (Db.rideView · rideId)
      (RideStep (· = 1)) where
  keeps _ _ := trivial
  path := by
    rintro s e t - ⟨rfl, -, hw⟩
    exact (rideSim_exec dist e hw.wakesIn).steps rideId

theorem pool_refinement (dist : Point → Point → D) (poolId : PoolId) :
    Refinement (step dist) PoolsInv (Db.poolView · poolId) PoolStep where
  keeps := PoolsInv.step
  path := by
    rintro s e t hi rfl
    exact (poolSim_exec dist hi e).steps poolId

/-- What happened between the two databases, seen from above. -/
structure TripsPath (db db' : Db) : Prop where
  market : ReflTransGen (Market.Step Lax.none) (market db) (market db')
  rides : ∀ id, ReflTransGen (RideStep (· = 1)) (db.rideView id) (db'.rideView id)
  pools : ∀ id, ReflTransGen PoolStep (db.poolView id) (db'.poolView id)

/-- Every run from a database without trips, and the rest of it from any state it went through, is
a path of the market, of each ride's machine and of each pool's. -/
theorem trips_refine (dist : Point → Point → D) {db₀ db : Db} {tr : List (Db × Step)}
    (h₀ : db₀.NoTrips) (hp : db₀.NoPools) (hr : Run (only (step dist) Step.Regular) db₀ tr db) :
    TripsPath db₀ db ∧ ∀ x ∈ tr, TripsPath x.1 db := by
  have hm : TripsInv db₀ := .of_noTrips h₀
  have hi : PoolsInv db₀ := .of_noPools hp
  have pool := fun id ↦ (pool_refinement dist id).only Step.Regular
  constructor
  · exact ⟨(market_refinement dist).run hm hr, fun id ↦ (ride_refinement dist id).run trivial hr,
      fun id ↦ (pool id).run hi hr⟩
  · intro x hx
    exact ⟨(market_refinement dist).of_mem hm hr hx,
      fun id ↦ (ride_refinement dist id).of_mem trivial hr hx, fun id ↦ (pool id).of_mem hi hr hx⟩

/-- Driver 7 accepts the offer of a ride. -/
theorem sampleAccepted_path : TripsPath .empty sampleAccepted := by
  have htrip : (Dispatch.findForDriver sampleOffered 20 7).map DispatchOffer.trip =
      some (.solo 1) := by decide
  have hderived : Step.Derived sampleOffered
      (.acceptInTx ⟨6, 6⟩ sampleAccounts 20 7 (.solo 1)) := by
    intro o ho
    rw [ho] at htrip
    exact Option.some.inj htrip
  have hrun : Run (only (step (D := ℕ) fun _ _ ↦ 0) Step.Regular) .empty _ sampleAccepted :=
    ((Run.nil.snoc (e := .createRide ⟨0, 0⟩ sampleRide) ⟨rfl, trivial, trivial⟩).snoc
      (e := .createOffer ⟨5, 5⟩ 20 [] ⟨.solo 1, 7, 1, 1, 12000⟩) ⟨rfl, trivial, trivial⟩).snoc
        ⟨rfl, hderived, trivial⟩
  exact (trips_refine (D := ℕ) (fun _ _ ↦ 0) Db.empty_noTrips Db.empty_noPools hrun).1

end Rcab
