import Rcab.Dispatch.Types
import Mathlib.Data.List.Sort
import Mathlib.Data.Prod.Lex

/-!
# The itinerary of a pool

`itinerary.ts`.  Pickups are ordered by distance from the pool anchor; dropoffs
nearest-neighbour from the last pickup.  Ties are broken by passenger id.

The source measures with the haversine formula on doubles.  Here `dist` is any
function into a linear order: nothing the construction does depends on which.
-/

universe u

namespace Rcab.Matching

open Dispatch (OfferStop)

/-- A member as the pool's readers see it. -/
structure SharedRideMember where
  passengerId : PassengerId
  origin : Point
  dest : Point
  joinedAt : Time
deriving DecidableEq, Repr

structure ItineraryInput where
  origin : Point
  members : List SharedRideMember
deriving DecidableEq, Repr

def byPassengerId (a b : SharedRideMember) : Prop := a.passengerId ≤ b.passengerId

instance : DecidableRel byPassengerId := fun a b ↦
  inferInstanceAs (Decidable (a.passengerId ≤ b.passengerId))

section Order

variable {D : Type u} [LinearOrder D] (dist : Point → Point → D)

def sortPickupsByDistance (members : List SharedRideMember) (ref : Point) :
    List SharedRideMember :=
  members.insertionSort fun a b ↦
    toLex (dist ref a.origin, a.passengerId) ≤ toLex (dist ref b.origin, b.passengerId)

/-- One turn of the search for the nearest destination: `best` and `bestD` so far,
the latter `none` while it is still `Infinity`. -/
def closer (cur : Point) (acc : Nat × Option D) (p : SharedRideMember × Nat) : Nat × Option D :=
  let d := dist cur p.1.dest
  if acc.2.all (d < ·) then (p.2, some d) else acc

/-- The first index whose destination is nearest. -/
def nearest (cur : Point) (remaining : List SharedRideMember) : Nat :=
  (remaining.zipIdx.foldl (closer dist cur) (0, none)).1

/-- The greedy loop; `fuel` is the number of members left. -/
def nearestNeighbour : Nat → Point → List SharedRideMember → List SharedRideMember
  | 0, _, _ => []
  | fuel + 1, cur, remaining =>
      match remaining[nearest dist cur remaining]? with
      | none => []
      | some next =>
          next :: nearestNeighbour fuel next.dest (remaining.eraseIdx (nearest dist cur remaining))

def orderDropoffsNearestNeighbour (members : List SharedRideMember) (start : Point) :
    List SharedRideMember :=
  let remaining := members.insertionSort byPassengerId
  nearestNeighbour dist remaining.length start remaining

/-- A stop before its `sequenceIndex` is known. -/
def pickupStop (m : SharedRideMember) (seq : Nat) : OfferStop :=
  ⟨.pickup, m.origin, m.passengerId, seq⟩

def dropoffStop (m : SharedRideMember) (seq : Nat) : OfferStop :=
  ⟨.dropoff, m.dest, m.passengerId, seq⟩

def computeStops (pool : ItineraryInput) : List OfferStop :=
  let pickups := sortPickupsByDistance dist pool.members pool.origin
  let dropoffs := match pickups.getLast? with
    | some last => orderDropoffsNearestNeighbour dist pickups last.origin
    | none => []
  (pickups.map pickupStop ++ dropoffs.map dropoffStop).zipIdx.map fun p ↦ p.1 p.2

end Order

end Rcab.Matching
