import Mathlib.Tactic.Linarith
import Mathlib.Tactic.Ring
import Rcab.Outbox.Coverage

/-!
# When the passes restore all lost work

They do just when every trip that lost its work is one a pass can repair, and matches a query
that at most 500 rows match.  Then the first pass does it.  Otherwise some sequence of answers
passes over one such trip in every pass.
-/

namespace Rcab.Outbox

variable {cfg : Windows} {start : Time} {q : Query} {qs : List Query} {w w' : Store} {i : Due}

/-- The query reaches every row that lost its work. -/
def Reaches (w : Store) (q : Query) : Prop :=
  ∀ i ∈ w.rows q, i.Lost w.backend → (w.rows q).length ≤ maxPerPass ∧ i.Repairable

/-! ## What a pass reaches -/

/-- What a query reaches is restored. -/
theorem QueryStep.covered (h : QueryStep cfg start q w w') (hq : Reaches w q) :
    ∀ i ∈ w'.due start q, ¬ i.Lost w'.backend := by
  intro i hi hlost
  obtain ⟨⟨hiq, hin⟩, haged⟩ := Store.mem_due.mp hi
  have hreach : Same i.trip w w' → (w.rows q).length ≤ maxPerPass ∧ i.Repairable := fun hs ↦
    hq i (Due.mem_rows.mpr ⟨hiq, hs.symm.mem hin⟩) (hs.lost_iff.mp hlost)
  rcases h.trip_cases i.trip with ⟨hs, hpass⟩ | ⟨j, c, w₁, hj, hjq, ht, hc, hs, hs'⟩
  · refine hpass (hreach hs).1 i (Store.mem_due.mpr ⟨⟨hiq, hs.symm.mem hin⟩, ?_⟩) rfl
    exact haged.mono (Int.le_refl start) hs.updatedAt.symm
  rw [← ht] at hs
  rcases Due.served cfg c (hs.mem hj) with ⟨hj', hserved⟩ | ⟨hjs, hu, -⟩
  · obtain rfl : i = j := hin.unique (by rw [← ht] at hs'; exact hs'.mem hj') ht.symm
    by_cases hrep : i.Repairable
    · exact hserved hrep (hs'.lost_iff.mp hlost)
    · rw [Due.reconcile_of_not_repairable hrep] at hs'
      have hsame := (isolated_reconcile cfg fun _ ↦ c).trans _ _ _ _ hs hs'
      exact hrep (hreach hsame).2
  · -- The ride was touched after the pass began, so it is not due.
    have hupd : start ≤ w'.updatedAt i.trip := by rw [hs'.updatedAt, ← ht, hu]; exact hc
    have hgrace : start - graceMs < start := by
      have : (0 : Int) < graceMs := by decide
      exact Int.sub_lt_self start this
    have hlt : w'.updatedAt i.trip < start - graceMs := by
      rw [hjq, ← hiq] at hjs
      cases i with
      | soloDispatch r u => exact haged
      | unwokenScheduled r => cases hjs
      | openPool s u => cases hjs
      | closedPool s => cases hjs
    exact absurd (hupd.trans_lt (hlt.trans hgrace)) (lt_irrefl start)

/-- Another query's reach stays as it is. -/
theorem QueryStep.reaches {q' : Query} (h : QueryStep cfg start q w w') (hne : q' ≠ q)
    (hq : Reaches w q') : Reaches w' q' := by
  intro i hi hlost
  obtain ⟨hiq, hin⟩ := Due.mem_rows.mp hi
  have hs := h.same_of_ne hin (hiq ▸ hne)
  rw [h.length_rows q']
  exact hq i (Due.mem_rows.mpr ⟨hiq, hs.symm.mem hin⟩) (hs.lost_iff.mp hlost)

/-- The rows of another query keep their work. -/
theorem QueryStep.covered_of_ne {q' : Query} (h : QueryStep cfg start q w w') (hne : q' ≠ q)
    (hq : ∀ i ∈ w.due start q', ¬ i.Lost w.backend) :
    ∀ i ∈ w'.due start q', ¬ i.Lost w'.backend := by
  intro i hi hlost
  obtain ⟨⟨hiq, hin⟩, haged⟩ := Store.mem_due.mp hi
  have hs := h.same_of_ne hin (hiq ▸ hne)
  refine hq i (Store.mem_due.mpr ⟨⟨hiq, hs.symm.mem hin⟩, ?_⟩) (hs.lost_iff.mp hlost)
  exact haged.mono (Int.le_refl start) hs.updatedAt.symm

theorem QuerySteps.covered (hqs : qs.Nodup) (h : QuerySteps cfg start qs w w')
    (hreach : ∀ q ∈ qs, Reaches w q)
    (hdone : ∀ q, q ∉ qs → ∀ i ∈ w.due start q, ¬ i.Lost w.backend) : w'.AllCovered start := by
  induction qs generalizing w with
  | nil =>
      obtain rfl := h
      exact fun q ↦ hdone q List.not_mem_nil
  | cons q qs ih =>
      obtain ⟨w₁, h₁, h⟩ := h
      obtain ⟨hq, hqs⟩ := List.nodup_cons.mp hqs
      refine ih hqs h (fun q' hq' ↦ ?_) fun q' hq' ↦ ?_
      · have hne : q' ≠ q := fun heq ↦ hq (heq ▸ hq')
        exact h₁.reaches hne (hreach q' (List.mem_cons_of_mem q hq'))
      · by_cases heq : q' = q
        · subst heq
          exact h₁.covered (hreach q' List.mem_cons_self)
        · refine h₁.covered_of_ne heq (hdone q' fun hmem ↦ ?_)
          exact (List.mem_cons.mp hmem).elim heq hq'

/-- A pass restores all lost work that its queries reach. -/
theorem Pass.allCovered (h : Pass cfg start w w') (hreach : ∀ q, Reaches w q) :
    w'.AllCovered start := by
  refine QuerySteps.covered (by decide) h (fun q _ ↦ hreach q) fun q hq ↦ ?_
  cases q <;> exact absurd hq (by decide)

/-! ## What the passes may pass over -/

/-- A query may pass over a row it cannot repair, and above its limit any row. -/
theorem exists_queryStep (cfg : Windows) (start : Time) (q : Query) (hi : i.In w)
    (hskip : i.query = q → ¬ i.Repairable ∨
      maxPerPass < (w.rows q).length ∧ ∀ j ∈ w.rows q, w.Aged start j) :
    ∃ w', QueryStep cfg start q w w' ∧ Same i.trip w w' ∧
      ∀ trip, w'.updatedAt trip = w.updatedAt trip ∨ w'.updatedAt trip = start := by
  have henough : min maxPerPass (w.due start q).length ≤
      ((w.due start q).filter fun j ↦ j.trip ≠ i.trip ∨ ¬ j.Repairable).length := by
    by_cases hall : ∀ j ∈ w.due start q, j.trip ≠ i.trip ∨ ¬ j.Repairable
    · rw [List.filter_eq_self.mpr fun j hj ↦ decide_eq_true (hall j hj)]
      exact Nat.min_le_right _ _
    push Not at hall
    obtain ⟨j, hj, ht, hrep⟩ := hall
    obtain ⟨⟨hjq, hin⟩, -⟩ := Store.mem_due.mp hj
    obtain rfl := hin.unique hi ht
    obtain ⟨hlimit, haged⟩ := (hskip hjq).resolve_left (not_not.mpr hrep)
    have hdue : w.due start q = w.rows q :=
      List.filter_eq_self.mpr fun k hk ↦ decide_eq_true (haged k hk)
    rw [hdue]
    refine (Batch.length_filter_ne (w.nodup_trips q) hlimit j.trip).trans ?_
    refine (List.monotone_filter_right _ fun k hk ↦ ?_).length_le
    simpa using Or.inl (by simpa using hk)
  obtain ⟨picked, hbatch, hpicked⟩ := Batch.exists_of_filter _ henough
  let clock : TripRef → ReconcileClock := fun _ ↦ ⟨start, start, ⟨start, start⟩⟩
  refine ⟨_, ⟨start, picked, clock, Int.le_refl start, hbatch, fun _ _ ↦ Int.le_refl start, rfl⟩,
    ?_, ?_⟩
  · refine (isolated_reconcile cfg clock).foldl_same (fun j hj w ↦ ?_) w
    rcases hpicked j hj with ht | hrep
    · exact (isolated_reconcile cfg clock).off _ w j ht
    · show Same i.trip w (j.reconcile cfg (clock j.trip) w)
      rw [Due.reconcile_of_not_repairable hrep]
      exact (isolated_reconcile cfg clock).refl _ w
  · refine foldl_rel
      (R := fun w w' : Store ↦
        ∀ trip, w'.updatedAt trip = w.updatedAt trip ∨ w'.updatedAt trip = start)
      (fun _ _ ↦ Or.inl rfl) (fun _ _ _ h h' trip ↦ ?_) (fun j _ w trip ↦ ?_) w
    · rcases h' trip with h' | h'
      · exact (h trip).imp h'.trans h'.trans
      · exact Or.inr h'
    · cases j with
      | soloDispatch r u =>
          simp only [Due.reconcile]
          split_ifs
          · exact Or.inl rfl
          · by_cases ht : trip = .solo r.id
            · exact Or.inr (by rw [ht, Function.update_self])
            · exact Or.inl (Function.update_of_ne ht _ _)
      | unwokenScheduled r => exact Or.inl rfl
      | openPool s u => exact Or.inl rfl
      | closedPool s => exact Or.inl rfl

theorem exists_querySteps (cfg : Windows) (start : Time) (qs : List Query) (hqs : qs.Nodup)
    (hi : i.In w) (hskip : i.query ∈ qs → ¬ i.Repairable ∨
      maxPerPass < (w.rows i.query).length ∧ ∀ j ∈ w.rows i.query, w.Aged start j) :
    ∃ w', QuerySteps cfg start qs w w' ∧ Same i.trip w w' ∧
      ∀ trip, w'.updatedAt trip = w.updatedAt trip ∨ w'.updatedAt trip = start := by
  induction qs generalizing w with
  | nil =>
      exact ⟨w, rfl, (isolated_reconcile cfg fun _ ↦ ⟨start, start, ⟨start, start⟩⟩).refl _ w,
        fun _ ↦ Or.inl rfl⟩
  | cons q qs ih =>
      obtain ⟨hq, hqs⟩ := List.nodup_cons.mp hqs
      obtain ⟨w₁, h₁, hs₁, hu₁⟩ := exists_queryStep cfg start q hi fun hiq ↦ by
        subst hiq
        exact hskip List.mem_cons_self
      obtain ⟨w', h', hs', hu'⟩ := ih hqs (hs₁.mem hi) fun hmem ↦ by
        have hne : i.query ≠ q := fun heq ↦ hq (heq ▸ hmem)
        refine (hskip (List.mem_cons_of_mem q hmem)).imp id fun ⟨hlimit, haged⟩ ↦ ⟨?_, ?_⟩
        · rwa [h₁.length_rows]
        · intro j hj
          obtain ⟨hjq, hin⟩ := Due.mem_rows.mp hj
          have hs := h₁.same_of_ne hin (hjq ▸ hne)
          exact (haged j (Due.mem_rows.mpr ⟨hjq, hs.symm.mem hin⟩)).mono (Int.le_refl start)
            hs.updatedAt
      refine ⟨w', ⟨w₁, h₁, h'⟩, ?_, fun trip ↦ ?_⟩
      · exact (isolated_reconcile cfg fun _ ↦ ⟨start, start, ⟨start, start⟩⟩).trans _ _ _ _ hs₁ hs'
      · rcases hu' trip with hu | hu
        · exact (hu₁ trip).imp hu.trans hu.trans
        · exact Or.inr hu

theorem QuerySteps.length_rows (h : QuerySteps cfg start qs w w') (q : Query) :
    (w'.rows q).length = (w.rows q).length := by
  induction qs generalizing w with
  | nil => rw [show w' = w from h]
  | cons q' qs ih =>
      obtain ⟨w₁, h₁, h⟩ := h
      exact (ih h).trans (h₁.length_rows q)

theorem QuerySteps.exists_row (h : QuerySteps cfg start qs w w') (hi : i.In w') :
    ∃ j : Due, j.In w ∧ j.query = i.query ∧ j.trip = i.trip := by
  induction qs generalizing w with
  | nil => exact ⟨i, (show w' = w from h) ▸ hi, rfl, rfl⟩
  | cons q' qs ih =>
      obtain ⟨w₁, h₁, h⟩ := h
      obtain ⟨j, hj, hjq, ht⟩ := ih h
      obtain ⟨k, hk, hkq, ht'⟩ := h₁.exists_row hj
      exact ⟨k, hk, hkq.trans hjq, ht'.trans ht⟩

theorem Store.aged_of_lt {now : Time} (h : w.updatedAt i.trip < now - graceMs) : w.Aged now i := by
  cases i with
  | unwokenScheduled r => trivial
  | soloDispatch r u => exact h
  | openPool s u => exact h
  | closedPool s => exact h

/-- An instant by which all of them are past the grace period. -/
theorem exists_time_past (l : List Due) (f : Due → Time) :
    ∃ T : Time, ∀ j ∈ l, f j < T - graceMs := by
  induction l with
  | nil => exact ⟨0, fun j hj ↦ absurd hj List.not_mem_nil⟩
  | cons a l ih =>
      obtain ⟨T, hT⟩ := ih
      refine ⟨max T (f a + graceMs + 1), fun j hj ↦ ?_⟩
      rcases List.mem_cons.mp hj with rfl | hj
      · have := le_max_right T (f j + graceMs + 1)
        linarith
      · have := le_max_left T (f a + graceMs + 1)
        linarith [hT j hj]

/-- A row the passes do not reach may be passed over forever. -/
theorem lost_forever (cfg : Windows) {w₀ : Store} (hi : i.In w₀) (hlost : i.Lost w₀.backend)
    (hskip : ¬ ((w₀.rows i.query).length ≤ maxPerPass ∧ i.Repairable)) :
    ∃ start w, Passes cfg w₀ start w ∧ ∀ n, ¬ (w (n + 1)).AllCovered (start n) := by
  obtain ⟨T, hT⟩ := exists_time_past (w₀.rows .unwokenScheduled ++ w₀.rows .soloDispatch ++
    w₀.rows .openPools ++ w₀.rows .closedPools) fun j ↦ w₀.updatedAt j.trip
  let start : ℕ → Time := fun n ↦ T + n * reconcileEveryMs
  have hnext : ∀ n, start (n + 1) = start n + reconcileEveryMs := fun n ↦ by
    simp only [start]
    push_cast
    ring
  have hgrace : graceMs < reconcileEveryMs := by decide
  have hpos : 0 < reconcileEveryMs := by decide
  -- Between two passes every row is past the grace period, and this one has lost its work.
  let P : ℕ → Store → Prop := fun n w ↦ i.In w ∧ i.Lost w.backend ∧
    (w.rows i.query).length = (w₀.rows i.query).length ∧
      ∀ j : Due, j.In w → w.updatedAt j.trip < start n - graceMs
  have h₀ : P 0 w₀ := by
    refine ⟨hi, hlost, rfl, fun j hj ↦ ?_⟩
    have hmem : j ∈ w₀.rows j.query := Due.mem_rows.mpr ⟨rfl, hj⟩
    have hstart : start 0 = T := by simp [start]
    rw [hstart]
    refine hT j ?_
    simp only [List.mem_append]
    cases j with
    | unwokenScheduled r => exact Or.inl (Or.inl (Or.inl hmem))
    | soloDispatch r u => exact Or.inl (Or.inl (Or.inr hmem))
    | openPool s u => exact Or.inl (Or.inr hmem)
    | closedPool s => exact Or.inr hmem
  obtain ⟨w, hw₀, hw⟩ := exists_rounds
    (R := fun n w w' ↦ Pass cfg (start n) w w' ∧ Same i.trip w w') h₀
    fun n w ⟨hin, hl, hlen, hold⟩ ↦ by
      obtain ⟨w', hpass, hs, hu⟩ := exists_querySteps cfg (start n)
        [.unwokenScheduled, .soloDispatch, .openPools, .closedPools] (by decide) hin
        fun _ ↦ by
          refine (not_and_or.mp hskip).symm.imp id fun hlimit ↦ ⟨?_, fun j hj ↦ ?_⟩
          · rw [hlen]
            exact not_le.mp hlimit
          · exact Store.aged_of_lt (hold j (Due.mem_rows.mp hj).2)
      refine ⟨w', ⟨hpass, hs⟩, hs.mem hin, hs.lost_iff.mpr hl, ?_, fun j hj ↦ ?_⟩
      · rw [hpass.length_rows, hlen]
      · obtain ⟨k, hk, -, ht⟩ := hpass.exists_row hj
        rw [hnext]
        rcases hu j.trip with h | h
        · have := hold k hk
          rw [h, ← ht]
          linarith
        · rw [h]
          linarith
  refine ⟨start, w, ⟨hw₀, fun n ↦ (hw n).2.1, fun n ↦ (hnext n).ge⟩, fun n hall ↦ ?_⟩
  obtain ⟨⟨hin, -, -, hold⟩, -, hs⟩ := hw n
  obtain ⟨⟨hin', hl, -, -⟩, -⟩ := hw (n + 1)
  refine hall i.query i (Store.mem_due.mpr ⟨⟨rfl, hin'⟩, ?_⟩) hl
  exact (Store.aged_of_lt (hold i hin)).mono (Int.le_refl _) hs.updatedAt

/-- The passes restore all lost work, whatever their queries answer, just when every trip that
lost its work can be repaired and matches a query that at most 500 rows match. -/
theorem allCovered_iff_reaches (cfg : Windows) (w₀ : Store) :
    (∀ start w, Passes cfg w₀ start w → ∃ n, (w (n + 1)).AllCovered (start n)) ↔
      ∀ q, Reaches w₀ q := by
  refine ⟨fun h q i hi hlost ↦ ?_, fun h start w hw ↦ ⟨0, ?_⟩⟩
  · by_contra hskip
    obtain ⟨rfl, hin⟩ := Due.mem_rows.mp hi
    obtain ⟨start, w, hpasses, hnever⟩ := lost_forever cfg hin hlost hskip
    obtain ⟨n, hn⟩ := h start w hpasses
    exact hnever n hn
  · exact Pass.allCovered (hw.pass 0) (hw.init.symm ▸ h)

/-! ## One ride too many -/

/-- The `id`th of the booked rides. -/
def sampleBooked (id : RideId) : Ride :=
  { sampleWoken with id, dispatchGeneration := 0 }

/-- So many rides booked ahead; the wake job of the first is lost. -/
def sampleCrowd (n : ℕ) : Store where
  backend :=
    { db :=
        { Db.empty with
          rides := ⟨(List.range n).map sampleBooked, by
            rw [List.map_map]
            exact (List.map_id' (List.range n)).symm ▸ List.nodup_range⟩ }
      queue := fun
        | .scheduledWake rideId 1 =>
            if rideId = 0 then none else some (newJob (.scheduledWake rideId (some 1)) 400000)
        | _ => none }
  updatedAt := fun _ ↦ 0
  poolOpenedAt := fun _ ↦ 0

theorem length_rows_sampleCrowd (n : ℕ) :
    ((sampleCrowd n).rows .unwokenScheduled).length = n := by
  have hall : (sampleCrowd n).backend.db.rides.filter UnwokenScheduled =
      (List.range n).map sampleBooked := by
    refine List.filter_eq_self.mpr fun r hr ↦ ?_
    obtain ⟨id, -, rfl⟩ := List.mem_map.mp hr
    exact decide_eq_true ⟨rfl, rfl, rfl⟩
  rw [Store.rows, List.length_map, hall, List.length_map, List.length_range]

theorem sampleCrowd_in {n : ℕ} (h : 0 < n) :
    (Due.unwokenScheduled (sampleBooked 0)).In (sampleCrowd n) := by
  have hmem : sampleBooked 0 ∈ (sampleCrowd n).backend.db.rides :=
    List.mem_map.mpr ⟨0, List.mem_range.mpr h, rfl⟩
  exact ⟨Table.get_of_mem hmem, rfl, rfl, rfl⟩

theorem sampleCrowd_lost (n : ℕ) :
    (Due.unwokenScheduled (sampleBooked 0)).Lost (sampleCrowd n).backend := by
  refine ⟨trivial, ?_⟩
  rintro (⟨_, hj, -⟩ | ⟨_, hj, -⟩ | ⟨_, hr, -⟩)
  · cases hj
  · cases hj
  · cases hr

/-- 500 rides whose wake is there can hide one whose wake is lost from every pass. -/
theorem crowd_hides_lost : ¬ ∀ (cfg : Windows) (w₀ : Store) (start : ℕ → Time) (w : ℕ → Store),
    Passes cfg w₀ start w → ∃ n, (w (n + 1)).AllCovered (start n) := by
  intro h
  obtain ⟨start, w, hpasses, hnever⟩ := lost_forever .default (sampleCrowd_in (n := 501) (by decide))
    (sampleCrowd_lost 501) fun hle ↦ by
      have hlen : (Due.unwokenScheduled (sampleBooked 0)).query = .unwokenScheduled := rfl
      have := hle.1
      rw [hlen, length_rows_sampleCrowd] at this
      exact absurd this (by decide)
  obtain ⟨n, hn⟩ := h .default (sampleCrowd 501) start w hpasses
  exact hnever n hn

end Rcab.Outbox
