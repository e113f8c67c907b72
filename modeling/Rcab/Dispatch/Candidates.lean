import Mathlib.Data.List.Perm.Subperm
import Rcab.Dispatch.Start

/-!
# The candidates of a wave

`selectCandidates` asks the geo index for a limited number of the nearest members before it drops
those already offered and those not eligible.  The limit grows with the number of drivers already
offered, so these never crowd out the others.

`order` is what the index holds within the radius, nearest first.
-/

universe u

namespace Rcab.Dispatch

/-- At most the members of a set are dropped from the first of a list. -/
theorem min_le_length_filter_take {α : Type u} [DecidableEq α] {order : List α} (drop : List α)
    (hn : order.Nodup) (c : ℕ) : min c (order.filter (· ∉ drop)).length ≤
      ((order.take (c + drop.length)).filter (· ∉ drop)).length := by
  have hsplit : ((order.take (c + drop.length)).filter (· ∈ drop)).length +
      ((order.take (c + drop.length)).filter (· ∉ drop)).length =
        (order.take (c + drop.length)).length := by
    simpa using List.length_eq_length_filter_add (l := order.take (c + drop.length))
      (fun a ↦ decide (a ∈ drop)) |>.symm
  have hdrop : ((order.take (c + drop.length)).filter (· ∈ drop)).length ≤ drop.length := by
    refine (List.Nodup.subperm ?_ fun a ha ↦ ?_).length_le
    · exact (hn.sublist (List.take_sublist _ _)).filter _
    · simpa using (List.mem_filter.mp ha).2
  rw [List.length_take] at hsplit
  by_cases hlen : order.length ≤ c + drop.length
  · rw [List.take_of_length_le hlen]
    exact min_le_right _ _
  · omega

/-- Nothing is dropped from a list with no duplicates. -/
theorem eraseDups_of_nodup {α : Type u} [DecidableEq α] {l : List α} (hn : l.Nodup) :
    l.eraseDups = l := by
  induction l with
  | nil => rfl
  | cons a l ih =>
    obtain ⟨ha, hl⟩ := List.nodup_cons.mp hn
    have hkeep : l.filter (fun b ↦ !b == a) = l :=
      List.filter_eq_self.mpr fun b hb ↦ by simpa using fun h : b = a ↦ ha (h ▸ hb)
    rw [List.eraseDups_cons, hkeep, ih hl]

/-- What is first in a list is first in what it begins. -/
theorem take_eq_of_isPrefix {α : Type u} {l l' : List α} {n : ℕ} (h : l <+: l')
    (hn : n ≤ l.length) : l.take n = l'.take n := by
  obtain ⟨rest, rfl⟩ := h
  exact (List.take_append_of_le_length hn).symm

/-- Distinct members are distinct drivers. -/
theorem nodup_filterMap_uuid {members : List GeoMember} (hn : members.Nodup) :
    (members.filterMap GeoMember.uuid).Nodup := by
  refine hn.filterMap fun a b d ha hb ↦ ?_
  cases a with
  | driver => cases b with
    | driver => exact congrArg _ ((Option.some.inj ha).trans (Option.some.inj hb).symm)
    | other => cases hb
  | other => cases ha

/-- The drivers of the members are among these, in their order. -/
theorem map_driver_sublist (members : List GeoMember) :
    ((members.filterMap GeoMember.uuid).map GeoMember.driver).Sublist members := by
  induction members with
  | nil => exact List.Sublist.slnil
  | cons m members ih =>
    cases m with
    | driver => exact ih.cons_cons _
    | other => exact ih.cons _

theorem mem_filterMap_uuid {members : List GeoMember} {d : DriverId} :
    d ∈ members.filterMap GeoMember.uuid ↔ .driver d ∈ members := by
  rw [List.mem_filterMap]
  constructor
  · rintro ⟨m, hm, huuid⟩
    cases m with
    | driver id => rwa [← Option.some.inj huuid]
    | other => cases huuid
  · exact fun h ↦ ⟨_, h, rfl⟩

section Eligible

variable {clock : Time} {db : Db} {accounts : Accounts} {seatsNeeded : ℕ}
  {members members' : List GeoMember} {d : DriverId}

/-- No member is there twice, so `new Set` drops none. -/
theorem eligibleCandidates_eq (hn : members.Nodup) :
    eligibleCandidates clock db accounts members seatsNeeded =
      (members.filterMap GeoMember.uuid).filter fun d ↦
        Eligible clock db accounts seatsNeeded d := by
  rw [eligibleCandidates, eraseDups_of_nodup (nodup_filterMap_uuid hn)]

theorem mem_eligibleCandidates : d ∈ eligibleCandidates clock db accounts members seatsNeeded ↔
    .driver d ∈ members ∧ Eligible clock db accounts seatsNeeded d := by
  rw [eligibleCandidates, List.mem_filter, List.mem_eraseDups, mem_filterMap_uuid,
    decide_eq_true_iff]

/-- The nearest of the eligible are eligible among the nearest. -/
theorem eligibleCandidates_isPrefix (hn : members'.Nodup) (h : members <+: members') :
    eligibleCandidates clock db accounts members seatsNeeded <+:
      eligibleCandidates clock db accounts members' seatsNeeded := by
  rw [eligibleCandidates_eq hn, eligibleCandidates_eq (hn.sublist h.sublist)]
  exact (h.filterMap _).filter _

end Eligible

/-! ## The selection -/

section Select

variable {D : Type u} [LinearOrder D] (env : WaveEnv) (db : Db) (trip : TripRef) (generation : ℕ)
  (origin : Point) (seatsNeeded : ℕ)

/-- The members not yet offered the generation, nearest first. -/
def freshMembers (order : List GeoMember) : List GeoMember :=
  order.filter (· ∉ (offeredDriverIds db trip generation).eraseDups.map GeoMember.driver)

theorem driver_mem_freshMembers {order : List GeoMember} {d : DriverId} :
    .driver d ∈ freshMembers db trip generation order ↔
      .driver d ∈ order ∧ d ∉ offeredDriverIds db trip generation := by
  have hmap : .driver d ∈ (offeredDriverIds db trip generation).eraseDups.map GeoMember.driver ↔
      d ∈ offeredDriverIds db trip generation := by
    rw [List.mem_map_of_injective fun _ _ h ↦ GeoMember.driver.inj h, List.mem_eraseDups]
  rw [freshMembers, List.mem_filter, decide_eq_true_iff, hmap]

/-- What is fetched holds the first of the fresh members, as many as the headroom asks for. -/
theorem freshMembers_isPrefix {order : List GeoMember} (hn : order.Nodup) (c : ℕ) :
    (freshMembers db trip generation order).take c <+: freshMembers db trip generation
      (order.take (c + (offeredDriverIds db trip generation).eraseDups.length)) := by
  have hfetched := ((List.take_prefix (c + (offeredDriverIds db trip generation).eraseDups.length)
    order).filter (· ∉ (offeredDriverIds db trip generation).eraseDups.map GeoMember.driver))
  refine List.prefix_of_prefix_length_le (List.take_prefix _ _) hfetched ?_
  have hcount := min_le_length_filter_take
    ((offeredDriverIds db trip generation).eraseDups.map GeoMember.driver) hn c
  rw [List.length_map] at hcount
  rw [List.length_take]
  exact hcount

/-- **The selection of a wave's candidates.**

At most `k` drivers, none twice, each within the radius, eligible and not yet offered the
generation, nearest first.  They are the nearest there are if enough of the nearest fresh members
are eligible, or if there are no other fresh members. -/
theorem selectCandidates_nearest {radius : ℚ} {k : ℕ} {order : List GeoMember} (hk : 1 ≤ k)
    (distance : GeoMember → D) (hn : order.Nodup)
    (hsorted : order.Pairwise fun a b ↦ distance a ≤ distance b)
    (hgeo : ∀ c, 1 ≤ c → env.georadius origin radius c = order.take c) :
    let selected := selectCandidates env db trip generation origin k radius seatsNeeded
    let fresh := freshMembers db trip generation order
    let eligible := fun members ↦ eligibleCandidates env.clock db env.accounts members seatsNeeded
    selected.length ≤ k ∧ selected.Nodup ∧
    (∀ d ∈ selected, .driver d ∈ order ∧ d ∉ offeredDriverIds db trip generation ∧
      Eligible env.clock db env.accounts seatsNeeded d) ∧
    (selected.map GeoMember.driver).Pairwise (fun a b ↦ distance a ≤ distance b) ∧
    (k ≤ (eligible (fresh.take (candidateHeadroom * k))).length ∨
        fresh.length ≤ candidateHeadroom * k →
      selected = (eligible fresh).take k) := by
  intro selected fresh eligible
  let fetched := freshMembers db trip generation
    (order.take (candidateHeadroom * k + (offeredDriverIds db trip generation).eraseDups.length))
  have hselected : selected = (eligible fetched).take k := by
    have hpos : 1 ≤ k * candidateHeadroom :=
      Nat.mul_pos hk (by decide)
    simp only [selected, selectCandidates, eligible, fetched, freshMembers]
    rw [hgeo _ (hpos.trans (Nat.le_add_right _ _)), Nat.mul_comm k]
  have hfetched : fetched <+: fresh := (List.take_prefix _ _).filter _
  have hnfresh : fresh.Nodup := hn.filter _
  have hnfetched : fetched.Nodup := hnfresh.sublist hfetched.sublist
  have heligible : eligible fetched = (fetched.filterMap GeoMember.uuid).filter fun d ↦
      Eligible env.clock db env.accounts seatsNeeded d := eligibleCandidates_eq hnfetched
  have hsub : selected.Sublist (fetched.filterMap GeoMember.uuid) := by
    rw [hselected, heligible]
    exact (List.take_sublist _ _).trans List.filter_sublist
  refine ⟨?_, (nodup_filterMap_uuid hnfetched).sublist hsub, fun d hd ↦ ?_, ?_, fun hmany ↦ ?_⟩
  · rw [hselected]
    exact List.length_take_le _ _
  · rw [hselected] at hd
    obtain ⟨hmem, helig⟩ := mem_eligibleCandidates.mp (List.mem_of_mem_take hd)
    obtain ⟨horder, hoffered⟩ := (driver_mem_freshMembers db trip generation).mp
      (hfetched.subset hmem)
    exact ⟨horder, hoffered, helig⟩
  · have horder : (selected.map GeoMember.driver).Sublist order :=
      (((hsub.map _).trans (map_driver_sublist fetched)).trans hfetched.sublist).trans
        List.filter_sublist
    exact hsorted.sublist horder
  · have htake : fresh.take (candidateHeadroom * k) <+: fetched :=
      freshMembers_isPrefix db trip generation hn _
    rw [hselected]
    rcases hmany with hmany | hall
    · -- both begin with what is eligible of the nearest
      rw [← take_eq_of_isPrefix (eligibleCandidates_isPrefix hnfetched htake) hmany]
      exact take_eq_of_isPrefix
        (eligibleCandidates_isPrefix hnfresh (List.take_prefix _ _)) hmany
    · rw [List.take_of_length_le hall] at htake
      rw [hfetched.eq_of_length_le htake.length_le]

end Select

/-- Two drivers with a vehicle each. -/
def sampleAccounts : Accounts where
  users := [⟨1, .active, .driver, true⟩, ⟨2, .active, .driver, true⟩]
  vehicles := [⟨1, 4, true⟩, ⟨2, 4, true⟩]

def sampleOffer : DispatchOffer where
  id := 7
  trip := .solo 9
  driverId := 1
  dispatchGeneration := 1
  waveNumber := 1
  offeredAt := 0
  expiresAt := 12000

/-- The nearest of them was offered the ride. -/
def sampleOffered : Db :=
  { Db.empty with dispatchOffer := Table.empty.insert sampleOffer }

def sampleMembers : List GeoMember :=
  [.driver 1, .other "probe", .driver 2]

def sampleWave : WaveEnv where
  params := ⟨1, 1, 0, 0, 0, 0, ⟨1, 1, by decide, by decide⟩⟩
  accounts := sampleAccounts
  georadius _ _ c := sampleMembers.take c
  clock := 100
  call _ := ⟨⟨0, 0⟩, 0, []⟩

/-- The other driver is asked. -/
theorem sampleWave_nearest :
    selectCandidates sampleWave sampleOffered (.solo 9) 1 ⟨0, 0⟩ 1 0 1 = [2] := by
  have hgeo : ∀ c, 1 ≤ c → sampleWave.georadius ⟨0, 0⟩ 0 c = sampleMembers.take c :=
    fun _ _ ↦ rfl
  have h := selectCandidates_nearest sampleWave sampleOffered (.solo 9) 1 ⟨0, 0⟩ 1
    (Nat.le_refl 1) (fun _ ↦ (0 : ℕ)) (by decide) (by decide) hgeo
  exact (h.2.2.2.2 (.inr (by decide))).trans (by decide)

end Rcab.Dispatch
