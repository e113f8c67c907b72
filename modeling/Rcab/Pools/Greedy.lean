import Mathlib.Data.List.Induction
import Rcab.Pools.Itinerary

/-!
# The route of a pool

What order `computeStops` visits the members in: the pickups from the pool's anchor outwards, then
each time the dropoff nearest to the last stop (`NearestFirst`), ties going to the smaller
passenger id.
-/

universe u

namespace Rcab.Matching

open Dispatch (OfferStop)

variable {D : Type u} [LinearOrder D] (dist : Point → Point → D)

/-- How a dropoff compares with the others that are left. -/
def dropoffKey (cur : Point) (m : SharedRideMember) : D ×ₗ PassengerId :=
  toLex (dist cur m.dest, m.passengerId)

/-- Each dropoff comes first, from the stop before it, among those still to be made. -/
def NearestFirst (cur : Point) : List SharedRideMember → Prop
  | [] => True
  | next :: rest =>
      (∀ m ∈ rest, dropoffKey dist cur next ≤ dropoffKey dist cur m) ∧ NearestFirst next.dest rest

/-! ## One turn of the loop -/

/-- The search stops at the first of the nearest: what it passed over before is farther, and what
comes after no nearer. -/
theorem foldl_closer (cur : Point) (members : List SharedRideMember) (hne : members ≠ []) :
    ∃ l₁ m l₂, members = l₁ ++ m :: l₂ ∧
      members.zipIdx.foldl (closer dist cur) (0, none) =
        (l₁.length, some (dist cur m.dest)) ∧
      (∀ a ∈ l₁, dist cur m.dest < dist cur a.dest) ∧
      ∀ b ∈ l₂, dist cur m.dest ≤ dist cur b.dest := by
  induction members using List.reverseRecOn with
  | nil => exact absurd rfl hne
  | append_singleton l a ih =>
      rw [List.zipIdx_append, List.foldl_append]
      by_cases hl : l = []
      · subst hl
        exact ⟨[], a, [], rfl, rfl, by simp, by simp⟩
      · obtain ⟨l₁, m, l₂, rfl, hfold, hlt, hle⟩ := ih hl
        rw [hfold]
        simp only [List.zipIdx_singleton, List.foldl_cons, List.foldl_nil, closer, Option.all_some,
          decide_eq_true_eq]
        by_cases hd : dist cur a.dest < dist cur m.dest
        · refine ⟨l₁ ++ m :: l₂, a, [], by simp, ?_, fun b hb ↦ ?_, by simp⟩
          · simp [hd]
          · rcases List.mem_append.mp hb with hb | hb
            · exact hd.trans (hlt b hb)
            · rcases List.mem_cons.mp hb with rfl | hb
              · exact hd
              · exact hd.trans_le (hle b hb)
        · refine ⟨l₁, m, l₂ ++ [a], by simp, by simp [hd], hlt, fun b hb ↦ ?_⟩
          rcases List.mem_append.mp hb with hb | hb
          · exact hle b hb
          · rw [List.mem_singleton.mp hb]
            exact not_lt.mp hd

/-- The one that is taken out, in front of the others, when the list is by passenger. -/
theorem nearest_split (cur : Point) {remaining : List SharedRideMember} (hne : remaining ≠ [])
    (hsorted : remaining.Pairwise byPassengerId) :
    ∃ next, remaining[nearest dist cur remaining]? = some next ∧
      ∀ m ∈ remaining.eraseIdx (nearest dist cur remaining),
        dropoffKey dist cur next ≤ dropoffKey dist cur m := by
  obtain ⟨l₁, next, l₂, rfl, hfold, hlt, hle⟩ := foldl_closer dist cur remaining hne
  have hnearest : nearest dist cur (l₁ ++ next :: l₂) = l₁.length := by rw [nearest, hfold]
  rw [hnearest]
  refine ⟨next, by simp, fun m hm ↦ ?_⟩
  rw [List.eraseIdx_append_of_length_le le_rfl, Nat.sub_self, List.eraseIdx_cons_zero,
    List.mem_append] at hm
  rcases hm with hm | hm
  · exact (Prod.Lex.toLex_lt_toLex.mpr (Or.inl (hlt m hm))).le
  · have hid : next.passengerId ≤ m.passengerId :=
      (List.pairwise_cons.mp (List.pairwise_append.mp hsorted).2.1).1 m hm
    rcases (hle m hm).lt_or_eq with hlt' | heq
    · exact (Prod.Lex.toLex_lt_toLex.mpr (Or.inl hlt')).le
    · exact Prod.Lex.toLex_le_toLex.mpr (Or.inr ⟨heq, hid⟩)

/-! ## The loop -/

theorem nearestNeighbour_nearestFirst (fuel : ℕ) (cur : Point) (remaining : List SharedRideMember)
    (hfuel : remaining.length = fuel) (hsorted : remaining.Pairwise byPassengerId) :
    NearestFirst dist cur (nearestNeighbour dist fuel cur remaining) := by
  induction fuel generalizing cur remaining with
  | zero => trivial
  | succ fuel ih =>
      have hne : remaining ≠ [] := List.ne_nil_of_length_eq_add_one hfuel
      have hlt := nearest_lt dist cur hne
      obtain ⟨next, hnext, hfirst⟩ := nearest_split dist cur hne hsorted
      have hlen : (remaining.eraseIdx (nearest dist cur remaining)).length = fuel := by
        rw [List.length_eraseIdx_of_lt hlt, hfuel, Nat.add_sub_cancel]
      rw [nearestNeighbour, hnext]
      refine ⟨fun m hm ↦ hfirst m ?_, ih _ _ hlen (hsorted.sublist (List.eraseIdx_sublist _ _))⟩
      exact (nearestNeighbour_perm dist fuel next.dest _ hlen).mem_iff.mp hm

/-- The loop ends after one turn for each member: more turns change nothing. -/
theorem nearestNeighbour_fuel (fuel : ℕ) (cur : Point) (remaining : List SharedRideMember)
    (h : remaining.length ≤ fuel) : nearestNeighbour dist fuel cur remaining =
      nearestNeighbour dist remaining.length cur remaining := by
  induction fuel generalizing cur remaining with
  | zero => rw [Nat.le_zero.mp h]
  | succ fuel ih =>
      cases hlen : remaining.length with
      | zero =>
          rw [List.length_eq_zero_iff] at hlen
          subst hlen
          rfl
      | succ n =>
          have hlt := nearest_lt dist cur (List.ne_nil_of_length_eq_add_one hlen)
          have herase : (remaining.eraseIdx (nearest dist cur remaining)).length = n := by
            rw [List.length_eraseIdx_of_lt hlt, hlen, Nat.add_sub_cancel]
          rw [nearestNeighbour, nearestNeighbour, List.getElem?_eq_getElem hlt]
          dsimp only
          rw [ih _ _ (by omega), herase]

theorem orderDropoffs_nearestFirst (members : List SharedRideMember) (start : Point) :
    NearestFirst dist start (orderDropoffsNearestNeighbour dist members start) := by
  have : Std.Total byPassengerId := ⟨fun a b ↦ le_total a.passengerId b.passengerId⟩
  have : IsTrans SharedRideMember byPassengerId := ⟨fun _ _ _ hab hbc ↦ le_trans hab hbc⟩
  exact nearestNeighbour_nearestFirst dist _ _ _ rfl (List.pairwise_insertionSort _ _)

/-! ## The pickups -/

/-- How a pickup compares with the others. -/
def pickupKey (origin : Point) (m : SharedRideMember) : D ×ₗ PassengerId :=
  toLex (dist origin m.origin, m.passengerId)

/-- No two passengers tie. -/
theorem sortPickups_sorted (origin : Point) {members : List SharedRideMember}
    (hn : (members.map SharedRideMember.passengerId).Nodup) :
    (sortPickupsByDistance dist members origin).Pairwise
      fun a b ↦ pickupKey dist origin a < pickupKey dist origin b := by
  let r (a b : SharedRideMember) : Prop := pickupKey dist origin a ≤ pickupKey dist origin b
  have : Std.Total r := ⟨fun a b ↦ le_total _ _⟩
  have : IsTrans SharedRideMember r := ⟨fun _ _ _ hab hbc ↦ le_trans hab hbc⟩
  have hsorted : (sortPickupsByDistance dist members origin).Pairwise r :=
    List.pairwise_insertionSort r members
  have hperm : (sortPickupsByDistance dist members origin).Perm members :=
    List.perm_insertionSort _ _
  have hnodup : (sortPickupsByDistance dist members origin).Pairwise
      fun a b ↦ a.passengerId ≠ b.passengerId :=
    List.pairwise_map.mp ((hperm.map _).nodup_iff.mpr hn)
  refine (hsorted.and hnodup).imp fun {a b} h ↦ lt_of_le_of_ne h.1 fun heq ↦ ?_
  exact h.2 (Prod.ext_iff.mp (toLex_inj.mp heq)).2

/-- **The stops of a pool**, for any distance.

There are two for each member, numbered in order, the pickups sorted by their distance from the
anchor and then the dropoffs, each the nearest one left; ties go to the smaller passenger id.  The
loop ends after one turn for each member, and the order the members come in does not matter. -/
theorem computeStops_route (origin : Point) {members : List SharedRideMember}
    (hn : (members.map SharedRideMember.passengerId).Nodup) :
    (∃ pickups dropoffs, pickups.Perm members ∧ dropoffs.Perm members ∧
      computeStops dist ⟨origin, members⟩ =
        numbered pickupStop 0 pickups ++ numbered dropoffStop members.length dropoffs ∧
      pickups.Pairwise (fun a b ↦ pickupKey dist origin a < pickupKey dist origin b) ∧
      ∀ last ∈ pickups.getLast?, NearestFirst dist last.origin dropoffs) ∧
    (computeStops dist ⟨origin, members⟩).map OfferStop.sequenceIndex =
      List.range (2 * members.length) ∧
    (∀ fuel cur remaining, remaining.length ≤ fuel → nearestNeighbour dist fuel cur remaining =
      nearestNeighbour dist remaining.length cur remaining) ∧
    ∀ members', members.Perm members' →
      computeStops dist ⟨origin, members'⟩ = computeStops dist ⟨origin, members⟩ := by
  refine ⟨?_, ?_, nearestNeighbour_fuel dist, fun _ h ↦ (computeStops_perm dist origin h hn).symm⟩
  · have hpick : (sortPickupsByDistance dist members origin).Perm members :=
      List.perm_insertionSort _ _
    obtain ⟨dropoffs, hdrop, horder, heq⟩ := computeStops_eq dist ⟨origin, members⟩
    refine ⟨_, dropoffs, hpick, hdrop.trans hpick, heq, sortPickups_sorted dist origin hn,
      fun last hlast ↦ ?_⟩
    rw [horder last hlast]
    exact orderDropoffs_nearestFirst dist _ _
  · have h := (computeStops_isItinerary dist ⟨origin, members⟩).indexes
    rwa [List.length_map] at h

/-- Two members at one place. -/
def sampleRiders : List SharedRideMember :=
  [⟨20, ⟨0, 0⟩, ⟨1, 1⟩, 0⟩, ⟨10, ⟨0, 0⟩, ⟨1, 1⟩, 0⟩]

/-- In either order. -/
theorem sampleRiders_route :
    computeStops (fun _ _ ↦ 0) ⟨⟨0, 0⟩, sampleRiders.reverse⟩ =
      computeStops (fun _ _ ↦ (0 : ℕ)) ⟨⟨0, 0⟩, sampleRiders⟩ := by
  have hn : (sampleRiders.map SharedRideMember.passengerId).Nodup := by decide
  exact (computeStops_route (fun _ _ ↦ 0) ⟨0, 0⟩ hn).2.2.2 _ (List.reverse_perm _).symm

end Rcab.Matching
