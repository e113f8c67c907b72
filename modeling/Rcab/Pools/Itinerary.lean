import Rcab.Matching.PoolMembership
import Mathlib.Data.List.Perm.Basic

/-!
# What an itinerary is

`IsItinerary passengers stops` says what a pool's stops are for: each passenger is picked
up once and dropped once, every pickup before every dropoff, and the stops are numbered
from 0.  `computeStops` builds one from any list of members, whatever the distance.

A persisted stop keeps its plan (`RideStop.plan`) for ever; only its confirmation moves.
-/

universe u

namespace Rcab

open Dispatch (OfferStop)

/-- The stop as it was planned. -/
def RideStop.plan (s : RideStop) : OfferStop := ⟨s.type, s.point, s.passengerId, s.sequenceIndex⟩

@[simp] theorem Matching.stopRow_plan (poolId : PoolId) (s : OfferStop) :
    (stopRow poolId s).plan = s := rfl

/-- One pickup and one dropoff for each passenger, the pickups first, numbered from 0. -/
structure IsItinerary (passengers : List PassengerId) (stops : List OfferStop) : Prop where
  indexes : stops.map OfferStop.sequenceIndex = List.range (2 * passengers.length)
  parts : ∃ pickups dropoffs, stops = pickups ++ dropoffs ∧
    (∀ s ∈ pickups, s.type = .pickup) ∧ (∀ s ∈ dropoffs, s.type = .dropoff) ∧
    (pickups.map OfferStop.passengerId).Perm passengers ∧
    (dropoffs.map OfferStop.passengerId).Perm passengers

namespace IsItinerary

variable {passengers passengers' : List PassengerId} {stops : List OfferStop}

/-- The order of the passengers does not matter. -/
theorem perm (h : IsItinerary passengers stops) (hp : passengers.Perm passengers') :
    IsItinerary passengers' stops where
  indexes := hp.length_eq ▸ h.indexes
  parts := by
    obtain ⟨pickups, dropoffs, rfl, hps, hds, hpp, hdp⟩ := h.parts
    exact ⟨pickups, dropoffs, rfl, hps, hds, hpp.trans hp, hdp.trans hp⟩

theorem length (h : IsItinerary passengers stops) : stops.length = 2 * passengers.length := by
  have := congrArg List.length h.indexes
  simpa using this

/-- The stop at a position has that position as its index. -/
theorem sequenceIndex (h : IsItinerary passengers stops) {i : ℕ} (hi : i < stops.length) :
    stops[i].sequenceIndex = i := by
  have := congrArg (·[i]?) h.indexes
  simp only [List.getElem?_map, List.getElem?_eq_getElem hi, Option.map_some] at this
  rw [List.getElem?_range (h.length ▸ hi), Option.some.injEq] at this
  exact this

/-- The first stop is a pickup, and not the only one. -/
theorem head (h : IsItinerary passengers stops) (hne : passengers ≠ []) :
    1 < stops.length ∧ ∀ hi : 0 < stops.length, stops[0].type = .pickup := by
  have hpos : 0 < passengers.length := List.length_pos_of_ne_nil hne
  refine ⟨by rw [h.length]; omega, fun hi ↦ ?_⟩
  obtain ⟨pickups, dropoffs, rfl, hps, -, hpp, -⟩ := h.parts
  have hlen : 0 < pickups.length := by
    rw [← List.length_map OfferStop.passengerId, hpp.length_eq]
    exact hpos
  rw [List.getElem_append_left hlen]
  exact hps _ (List.getElem_mem hlen)

/-- Each passenger has exactly one stop of each type, and nobody else has any. -/
theorem count (h : IsItinerary passengers stops) (p : PassengerId) (type : StopType) :
    stops.countP (fun s ↦ s.passengerId = p ∧ s.type = type) = passengers.count p := by
  obtain ⟨pickups, dropoffs, rfl, hps, hds, hpp, hdp⟩ := h.parts
  -- In a part of one type the other type does not count.
  have part : ∀ (l : List OfferStop) (ty : StopType), (∀ s ∈ l, s.type = ty) →
      (l.map OfferStop.passengerId).Perm passengers →
      l.countP (fun s ↦ s.passengerId = p ∧ s.type = type) =
        if ty = type then passengers.count p else 0 := by
    intro l ty hl hperm
    split_ifs with hty
    · rw [← hperm.count_eq p, List.count, List.countP_map]
      refine List.countP_congr fun s hs ↦ ?_
      simp [hl s hs, hty]
    · refine List.countP_eq_zero.mpr fun s hs ↦ ?_
      simp [hl s hs, hty]
  rw [List.countP_append, part pickups .pickup hps hpp, part dropoffs .dropoff hds hdp]
  cases type <;> simp

end IsItinerary

namespace Matching

/-- Members turned into stops, numbered from `k`. -/
def numbered (mk : SharedRideMember → ℕ → OfferStop) (k : ℕ) (members : List SharedRideMember) :
    List OfferStop :=
  (members.zipIdx k).map fun p ↦ mk p.1 p.2

section Numbered

variable {mk : SharedRideMember → ℕ → OfferStop} {k : ℕ} {members : List SharedRideMember}

theorem numbered_indexes (hmk : ∀ m i, (mk m i).sequenceIndex = i) :
    (numbered mk k members).map OfferStop.sequenceIndex = List.range' k members.length := by
  rw [numbered, List.map_map, ← List.zipIdx_map_snd k members]
  exact List.map_congr_left fun p _ ↦ hmk p.1 p.2

theorem numbered_passengers (hmk : ∀ m i, (mk m i).passengerId = m.passengerId) :
    (numbered mk k members).map OfferStop.passengerId =
      members.map SharedRideMember.passengerId := by
  conv_rhs => rw [← List.zipIdx_map_fst k members]
  rw [numbered, List.map_map, List.map_map]
  exact List.map_congr_left fun p _ ↦ hmk p.1 p.2

theorem type_of_mem_numbered {ty : StopType} (hmk : ∀ m i, (mk m i).type = ty) :
    ∀ s ∈ numbered mk k members, s.type = ty := by
  intro s hs
  obtain ⟨p, -, rfl⟩ := List.mem_map.mp hs
  exact hmk p.1 p.2

end Numbered

variable {D : Type u} [LinearOrder D] (dist : Point → Point → D)

/-- The nearest destination is one of the list's. -/
theorem nearest_lt (cur : Point) {remaining : List SharedRideMember} (h : remaining ≠ []) :
    nearest dist cur remaining < remaining.length := by
  have key : ∀ (l : List (SharedRideMember × ℕ)) (acc : ℕ × Option D),
      acc.1 < remaining.length → (∀ p ∈ l, p.2 < remaining.length) →
      (l.foldl (closer dist cur) acc).1 < remaining.length := by
    intro l
    induction l with
    | nil => intro acc hacc _; exact hacc
    | cons p l ih =>
        intro acc hacc hl
        refine ih _ ?_ fun q hq ↦ hl q (List.mem_cons_of_mem _ hq)
        unfold closer
        dsimp only
        split_ifs
        · exact hl p List.mem_cons_self
        · exact hacc
  refine key _ _ (List.length_pos_of_ne_nil h) fun p hp ↦ ?_
  simpa using List.snd_lt_of_mem_zipIdx hp

/-- The greedy loop visits every member once. -/
theorem nearestNeighbour_perm (fuel : ℕ) (cur : Point) (remaining : List SharedRideMember)
    (h : remaining.length = fuel) : (nearestNeighbour dist fuel cur remaining).Perm remaining := by
  induction fuel generalizing cur remaining with
  | zero =>
      rw [List.length_eq_zero_iff] at h
      subst h
      exact .refl _
  | succ fuel ih =>
      have hne : remaining ≠ [] := List.ne_nil_of_length_eq_add_one h
      have hlt := nearest_lt dist cur hne
      rw [nearestNeighbour, List.getElem?_eq_getElem hlt]
      refine ((ih _ _ ?_).cons _).trans (List.getElem_cons_eraseIdx_perm hlt)
      rw [List.length_eraseIdx_of_lt hlt, h, Nat.add_sub_cancel]

/-- The dropoffs are the pickups again, in another order. -/
theorem orderDropoffs_perm (pickups : List SharedRideMember) (start : Point) :
    (orderDropoffsNearestNeighbour dist pickups start).Perm pickups :=
  (nearestNeighbour_perm dist _ _ _ rfl).trans (List.perm_insertionSort _ _)

/-- The stops are the pickups, then the dropoffs, which follow on from the last pickup. -/
theorem computeStops_eq (pool : ItineraryInput) : ∃ dropoffs,
    dropoffs.Perm (sortPickupsByDistance dist pool.members pool.origin) ∧
      (∀ last ∈ (sortPickupsByDistance dist pool.members pool.origin).getLast?,
        dropoffs = orderDropoffsNearestNeighbour dist
          (sortPickupsByDistance dist pool.members pool.origin) last.origin) ∧
      computeStops dist pool =
        numbered pickupStop 0 (sortPickupsByDistance dist pool.members pool.origin) ++
          numbered dropoffStop pool.members.length dropoffs := by
  have hpick : (sortPickupsByDistance dist pool.members pool.origin).length =
      pool.members.length := List.length_insertionSort _ _
  have split : ∀ pickups dropoffs : List SharedRideMember,
      (pickups.map pickupStop ++ dropoffs.map dropoffStop).zipIdx.map (fun p ↦ p.1 p.2) =
        numbered pickupStop 0 pickups ++ numbered dropoffStop pickups.length dropoffs := by
    intro pickups dropoffs
    rw [List.zipIdx_append, List.map_append, List.zipIdx_map, List.zipIdx_map]
    simp [numbered, Function.comp_def]
  rw [← hpick]
  unfold computeStops
  dsimp only
  cases hl : (sortPickupsByDistance dist pool.members pool.origin).getLast? with
  | none =>
      refine ⟨[], ?_, fun _ h ↦ absurd h (Option.not_mem_none _), split _ []⟩
      rw [List.getLast?_eq_none_iff.mp hl]
  | some last =>
      refine ⟨_, orderDropoffs_perm dist _ _, fun last' h ↦ ?_, split _ _⟩
      rw [Option.some.inj h]

/-- `computeStops` builds an itinerary of the members. -/
theorem computeStops_isItinerary (pool : ItineraryInput) :
    IsItinerary (pool.members.map SharedRideMember.passengerId) (computeStops dist pool) := by
  obtain ⟨dropoffs, hdrop, -, heq⟩ := computeStops_eq dist pool
  have hpick : (sortPickupsByDistance dist pool.members pool.origin).Perm pool.members :=
    List.perm_insertionSort _ _
  have hperm := hpick.map SharedRideMember.passengerId
  constructor
  · rw [heq, List.map_append, numbered_indexes fun _ _ ↦ rfl, numbered_indexes fun _ _ ↦ rfl,
      hdrop.length_eq, List.length_map, hpick.length_eq, List.range_eq_range', Nat.two_mul,
      ← List.range'_append_1, Nat.zero_add]
  · refine ⟨_, _, heq, type_of_mem_numbered fun _ _ ↦ rfl, type_of_mem_numbered fun _ _ ↦ rfl,
      ?_, ?_⟩
    · rw [numbered_passengers fun _ _ ↦ rfl]
      exact hperm
    · rw [numbered_passengers fun _ _ ↦ rfl]
      exact (hdrop.map _).trans hperm

/-! ## The order of the members -/

/-- The member, whenever it joined. -/
def SharedRideMember.undated (m : SharedRideMember) : SharedRideMember := { m with joinedAt := 0 }

theorem insertionSort_undated {r : SharedRideMember → SharedRideMember → Prop} [DecidableRel r]
    (hr : ∀ a b, r a b ↔ r a.undated b.undated) (members : List SharedRideMember) :
    (members.map SharedRideMember.undated).insertionSort r =
      (members.insertionSort r).map SharedRideMember.undated :=
  (List.map_insertionSort r r SharedRideMember.undated members fun a _ b _ ↦ hr a b).symm

theorem nearest_undated (cur : Point) (remaining : List SharedRideMember) :
    nearest dist cur (remaining.map SharedRideMember.undated) = nearest dist cur remaining := by
  have hstep : ∀ acc (p : SharedRideMember × ℕ),
      closer dist cur acc (Prod.map SharedRideMember.undated id p) = closer dist cur acc p :=
    fun _ _ ↦ rfl
  unfold nearest
  rw [List.zipIdx_map, List.foldl_map]
  simp only [hstep]

theorem nearestNeighbour_undated (fuel : ℕ) (cur : Point) (remaining : List SharedRideMember) :
    nearestNeighbour dist fuel cur (remaining.map SharedRideMember.undated) =
      (nearestNeighbour dist fuel cur remaining).map SharedRideMember.undated := by
  induction fuel generalizing cur remaining with
  | zero => rfl
  | succ fuel ih =>
      rw [nearestNeighbour, nearestNeighbour, nearest_undated, List.getElem?_map]
      cases remaining[nearest dist cur remaining]? with
      | none => rfl
      | some next =>
          simp only [Option.map_some, List.map_cons]
          rw [← ih, ← List.eraseIdx_map]
          rfl

/-- When the members joined does not matter. -/
theorem computeStops_undated (origin : Point) (members : List SharedRideMember) :
    computeStops dist ⟨origin, members.map SharedRideMember.undated⟩ =
      computeStops dist ⟨origin, members⟩ := by
  have hpick : sortPickupsByDistance dist (members.map SharedRideMember.undated) origin =
      (sortPickupsByDistance dist members origin).map SharedRideMember.undated :=
    insertionSort_undated (fun _ _ ↦ Iff.rfl) members
  have hdrop : ∀ (pickups : List SharedRideMember) (start : Point),
      orderDropoffsNearestNeighbour dist (pickups.map SharedRideMember.undated) start =
        (orderDropoffsNearestNeighbour dist pickups start).map SharedRideMember.undated := by
    intro pickups start
    unfold orderDropoffsNearestNeighbour
    dsimp only
    rw [insertionSort_undated fun _ _ ↦ Iff.rfl, nearestNeighbour_undated, List.length_map]
  have hstop : ∀ pickups dropoffs : List SharedRideMember,
      (pickups.map SharedRideMember.undated).map pickupStop ++
        (dropoffs.map SharedRideMember.undated).map dropoffStop =
      pickups.map pickupStop ++ dropoffs.map dropoffStop := by
    intro pickups dropoffs
    rw [List.map_map, List.map_map]
    rfl
  unfold computeStops
  dsimp only
  rw [hpick, List.getLast?_map]
  cases (sortPickupsByDistance dist members origin).getLast? with
  | none =>
      exact congrArg (fun l ↦ l.zipIdx.map fun p ↦ p.1 p.2)
        (hstop (sortPickupsByDistance dist members origin) [])
  | some last =>
      simp only [Option.map_some]
      rw [hdrop, hstop]
      rfl

/-- Ties are broken by passenger, so the order of the members does not matter either. -/
theorem computeStops_perm (origin : Point) {members members' : List SharedRideMember}
    (h : members.Perm members') (hn : (members.map SharedRideMember.passengerId).Nodup) :
    computeStops dist ⟨origin, members⟩ = computeStops dist ⟨origin, members'⟩ := by
  have hpick : sortPickupsByDistance dist members origin =
      sortPickupsByDistance dist members' origin := by
    let r (a b : SharedRideMember) : Prop :=
      toLex (dist origin a.origin, a.passengerId) ≤ toLex (dist origin b.origin, b.passengerId)
    have : Std.Total r := ⟨fun a b ↦ le_total _ _⟩
    have : IsTrans SharedRideMember r := ⟨fun a b c hab hbc ↦ le_trans hab hbc⟩
    have hsort : ∀ l : List SharedRideMember, (l.insertionSort r).Pairwise r :=
      List.pairwise_insertionSort r
    refine List.Perm.eq_of_pairwise (fun a b ha hb hab hba ↦ ?_) (hsort _) (hsort _)
      (((List.perm_insertionSort r _).trans h).trans (List.perm_insertionSort r _).symm)
    have hkey := Prod.ext_iff.mp (toLex_inj.mp (le_antisymm hab hba))
    have ha' : a ∈ members := (List.mem_insertionSort r).mp ha
    have hb' : b ∈ members := h.mem_iff.mpr ((List.mem_insertionSort r).mp hb)
    exact List.inj_on_of_nodup_map hn ha' hb' hkey.2
  unfold computeStops
  dsimp only
  rw [hpick]

end Matching

end Rcab
