import Rcab.Outbox.Isolation

/-!
# Which trips the passes reach

A query answers with at most 500 rows, and rows that need nothing match it like those that
lost their work.  Where at most 500 rows match a query, the first pass restores the work of
every trip that lost it.  Where more match, nothing makes a later pass return other rows than
an earlier one, and a trip that lost its work may be passed over forever.
-/

namespace Rcab.Outbox

open Dispatch Scheduled

/-! ## One row -/

section Row

variable {cfg : Windows} {c : ReconcileClock} {w w' : Store} {i j : Due}

/-- A row a pass cannot repair is left as it is. -/
theorem Due.reconcile_of_not_repairable (h : ¬ i.Repairable) : i.reconcile cfg c w = w := by
  cases i with
  | unwokenScheduled r =>
      have hnone : r.scheduledFor = none := not_not.mp h
      simp only [Due.reconcile, reconcileUnwoken, hnone]
  | soloDispatch r updatedAt => exact absurd trivial h
  | openPool s poolOpenedAt => exact absurd trivial h
  | closedPool s => exact absurd trivial h

/-- The tables after one row: the outbox alone changed, or a ride was re-armed. -/
theorem Due.db_reconcile (cfg : Windows) (c : ReconcileClock) (w : Store) (i : Due) :
    (∃ outbox, (i.reconcile cfg c w).backend.db = { w.backend.db with outbox }) ∨
      ∃ r updatedAt, i = .soloDispatch r updatedAt ∧ (i.reconcile cfg c w).backend.db =
        (rearmScheduledRide c.tx w.backend.db r.id (some r.dispatchGeneration)).1 := by
  have hsame : ∃ outbox, w.backend.db = { w.backend.db with outbox } := ⟨w.backend.db.outbox, rfl⟩
  cases i with
  | unwokenScheduled r =>
      left
      simp only [Due.reconcile, reconcileUnwoken]
      split
      · exact hsame
      split_ifs
      · exact hsame
      · exact rearmOrEnqueue_eq _ _ _
  | soloDispatch r updatedAt =>
      rcases reconcileDispatching_kept cfg c w.backend (.solo r.id) r.dispatchGeneration
        ⟨r.type = .scheduled, updatedAt⟩ with ⟨⟨-, h⟩, -⟩ | ⟨-, h⟩
      · exact Or.inl h
      · exact Or.inr ⟨r, updatedAt, rfl, congrArg Backend.db h⟩
  | openPool s poolOpenedAt =>
      left
      simp only [Due.reconcile, reconcileOpen]
      split_ifs
      · exact hsame
      · exact rearmOrEnqueue_eq _ _ _
  | closedPool s =>
      rcases reconcileDispatching_kept cfg c w.backend (.shared s.rideId) s.dispatchGeneration
        ⟨false, c.windowNow⟩ with ⟨⟨-, h⟩, -⟩ | ⟨h, -⟩
      · exact Or.inl h
      · cases h

/-- As many rows match each query as before. -/
theorem Due.length_rows_reconcile (cfg : Windows) (c : ReconcileClock) (w : Store) (i : Due)
    (q : Query) : ((i.reconcile cfg c w).rows q).length = (w.rows q).length := by
  have hrides : ∀ (P : Ride → Prop) [DecidablePred P],
      (∀ r g, r.dispatchGeneration = g → 1 ≤ g → (P { r with dispatchGeneration := g + 1 } ↔ P r)) →
      ((i.reconcile cfg c w).backend.db.rides.filter P).length =
        (w.backend.db.rides.filter P).length := by
    intro P _ hP
    rcases i.db_reconcile cfg c w with ⟨outbox, h⟩ | ⟨r, u, -, h⟩
    · rw [h]
    · rw [h]
      rcases rearmScheduledRide_cases c.tx w.backend.db r.id (some r.dispatchGeneration) with
        h' | ⟨r', -, hr', -, h'⟩
      · rw [h']
      · rw [h', rearmed_rides, Table.filter_update, List.length_map]
        rintro a - ⟨-, ha⟩
        exact hP a _ ha hr'.woken
  have hpools : (i.reconcile cfg c w).backend.db.sharedRides = w.backend.db.sharedRides := by
    rcases i.db_reconcile cfg c w with ⟨outbox, h⟩ | ⟨r, u, -, h⟩
    · rw [h]
    · rw [h]
      rcases rearmScheduledRide_cases c.tx w.backend.db r.id (some r.dispatchGeneration) with
        h' | ⟨r', -, -, -, h'⟩
      · rw [h']
      · rw [h']
        rfl
  cases q with
  | unwokenScheduled =>
      simp only [Store.rows, List.length_map]
      exact hrides _ fun r g hr hg ↦ by
        simp only [UnwokenScheduled]
        omega
  | soloDispatch =>
      simp only [Store.rows, List.length_map]
      exact hrides _ fun r g hr hg ↦
        and_congr_right fun _ ↦ ⟨fun _ ↦ hr ▸ hg, fun _ ↦ Nat.succ_pos g⟩
  | openPools => simp only [Store.rows, List.length_map, hpools]
  | closedPools => simp only [Store.rows, List.length_map, hpools]

/-- Work restored by a re-armed intent, if no job was there. -/
theorem restored_work {l₁ l₂ : JobId} {m : OutboxMessage} {b : Backend} {queue : Queue}
    {t : TxClock} :
    let b' := if b.queue.hasLiveJob [l₁, l₂] = true then b else ⟨rearmOrEnqueue t b.db m, queue⟩
    b'.queue.LiveAt l₁ ∨ b'.queue.LiveAt l₂ ∨ IntentPending b'.db m.key := by
  dsimp only
  split_ifs with h
  · obtain ⟨id, hid, hl⟩ := Queue.hasLiveJob_iff.mp h
    simp only [List.mem_cons, List.not_mem_nil, or_false] at hid
    rcases hid with rfl | rfl
    · exact Or.inl hl
    · exact Or.inr (Or.inl hl)
  · exact Or.inr (Or.inr (rearmOrEnqueue_pending t b.db m))

/-- A solo ride that was reconciled has its work, or was re-armed. -/
theorem served_soloDispatch (cfg : Windows) (c : ReconcileClock) {r : Ride} {u : Time}
    (hi : (Due.soloDispatch r u).In w) :
    ((Due.soloDispatch r u).In ((Due.soloDispatch r u).reconcile cfg c w) ∧
        ¬ (Due.soloDispatch r u).Lost ((Due.soloDispatch r u).reconcile cfg c w).backend) ∨
      ((Due.soloDispatch r u).reconcile cfg c w).updatedAt (.solo r.id) = c.tx.now ∧
        ∃ r' u', (Due.soloDispatch r' u').In ((Due.soloDispatch r u).reconcile cfg c w) ∧
          r'.id = r.id := by
  obtain ⟨hr, ⟨hstatus, hwoken⟩, rfl⟩ := hi
  have hsame : ∀ {b : Backend}, b.db.rides.get r.id = some r →
      reconcileSolo cfg c w.backend r (w.updatedAt (.solo r.id)) = b →
      (Due.soloDispatch r (w.updatedAt (.solo r.id))).In
        ((Due.soloDispatch r (w.updatedAt (.solo r.id))).reconcile cfg c w) := by
    intro b hb heq
    simp only [Due.reconcile, Due.In, heq, hb, hr, ↓reduceIte, true_and, and_true]
    exact ⟨hstatus, hwoken⟩
  rcases reconcileDispatching_kept cfg c w.backend (.solo r.id) r.dispatchGeneration
    ⟨r.type = .scheduled, w.updatedAt (.solo r.id)⟩ with ⟨⟨hwork, outbox, h⟩, -⟩ | ⟨hs, h⟩
  · refine Or.inl ⟨hsame (b := reconcileSolo cfg c w.backend r _) ?_ rfl,
      fun hlost ↦ hlost.2 (Or.inr hwork)⟩
    show (reconcileDispatching cfg c w.backend _ _ _).db.rides.get r.id = some r
    rw [h]
    exact hr
  have hsolo : reconcileSolo cfg c w.backend r (w.updatedAt (.solo r.id)) =
      ⟨(rearmScheduledRide c.tx w.backend.db r.id (some r.dispatchGeneration)).1,
        w.backend.queue⟩ := h
  rcases rearmScheduledRide_cases c.tx w.backend.db r.id (some r.dispatchGeneration) with
    h' | ⟨r', hr', hret, -, h'⟩
  · -- The ride has a driver, or it would have been re-armed.
    refine Or.inl ⟨hsame (b := w.backend) hr (by rw [hsolo, h']), fun hlost ↦ ?_⟩
    have hret : Retryable r := ⟨of_decide_eq_true hs, hstatus, hlost.1, hwoken⟩
    obtain ⟨-, res, hres, -⟩ := rearmScheduledRide_of_retryable c.tx
      (some r.dispatchGeneration) hr hret (by simp)
    rw [h'] at hres
    cases hres
  · obtain rfl : r = r' := Option.some.inj (hr.symm.trans hr')
    have hget := get_rearmed (t := c.tx) hr
    have hne : (rearmed c.tx w.backend.db r.id r.dispatchGeneration).rides.get r.id ≠
        w.backend.db.rides.get r.id := by
      rw [hget, hr]
      intro heq
      have := congrArg Ride.dispatchGeneration (Option.some.inj heq)
      exact Nat.succ_ne_self _ this
    refine Or.inr ⟨?_, { r with dispatchGeneration := r.dispatchGeneration + 1 }, c.tx.now,
      ⟨?_, ⟨hstatus, Nat.succ_pos _⟩, ?_⟩, rfl⟩
    · simp only [Due.reconcile, hsolo, h', hne, ↓reduceIte, Function.update_self]
    · simp only [Due.reconcile, hsolo, h']
      exact hget
    · simp only [Due.reconcile, hsolo, h', hne, ↓reduceIte, Function.update_self]

/-- A row that was reconciled has its work, or is a ride that was touched. -/
theorem Due.served (cfg : Windows) (c : ReconcileClock) (hi : i.In w) :
    (i.In (i.reconcile cfg c w) ∧ (i.Repairable → ¬ i.Lost (i.reconcile cfg c w).backend)) ∨
      i.query = .soloDispatch ∧ (i.reconcile cfg c w).updatedAt i.trip = c.tx.now ∧
        ∃ j : Due, j.In (i.reconcile cfg c w) ∧ j.query = i.query ∧ j.trip = i.trip := by
  cases i with
  | unwokenScheduled r =>
      have hrides : (Due.reconcile cfg c w (.unwokenScheduled r)).backend.db.rides =
          w.backend.db.rides := by
        rcases Due.db_reconcile cfg c w (.unwokenScheduled r) with ⟨outbox, h⟩ | ⟨r', u, hr', -⟩
        · rw [h]
        · cases hr'
      refine Or.inl ⟨⟨by rw [hrides]; exact hi.1, hi.2⟩, fun hrep hlost ↦ hlost.2 ?_⟩
      obtain ⟨scheduledFor, hs⟩ := Option.ne_none_iff_exists'.mp hrep
      simp only [Due.reconcile, reconcileUnwoken, hs]
      exact restored_work (m := ⟨.ride, r.id, 1, .rideWakeSchedule scheduledFor, none⟩)
  | soloDispatch r u =>
      rcases served_soloDispatch cfg c hi with ⟨hin, hlost⟩ | ⟨hu, r', u', hin, hid⟩
      · exact Or.inl ⟨hin, fun _ ↦ hlost⟩
      · exact Or.inr ⟨rfl, hu, .soloDispatch r' u', hin, rfl, congrArg TripRef.solo hid⟩
  | openPool s poolOpenedAt =>
      have hpools : (Due.reconcile cfg c w (.openPool s poolOpenedAt)).backend.db.sharedRides =
          w.backend.db.sharedRides := by
        rcases Due.db_reconcile cfg c w (.openPool s poolOpenedAt) with ⟨outbox, h⟩ | ⟨_, _, h, -⟩
        · rw [h]
        · cases h
      refine Or.inl ⟨⟨by rw [hpools]; exact hi.1, hi.2⟩, fun _ hlost ↦ hlost.2 ?_⟩
      simp only [Due.reconcile, reconcileOpen]
      exact restored_work (m := ⟨.sharedRide, s.rideId, 0, .poolExpireSchedule _, none⟩)
  | closedPool s =>
      rcases reconcileDispatching_kept cfg c w.backend (.shared s.rideId) s.dispatchGeneration
        ⟨false, c.windowNow⟩ with ⟨⟨hwork, outbox, h⟩, -⟩ | ⟨h, -⟩
      · refine Or.inl ⟨⟨?_, hi.2⟩, fun _ hlost ↦ hlost.2 (Or.inr hwork)⟩
        show (reconcileClosed cfg c w.backend s).db.sharedRides.get s.rideId = some s
        unfold reconcileClosed
        rw [h]
        exact hi.1
      · cases h

end Row

/-! ## One query -/

/-- The trips of a query are distinct. -/
theorem Store.nodup_trips (w : Store) (q : Query) : ((w.rows q).map Due.trip).Nodup := by
  cases q with
  | unwokenScheduled =>
      simp only [Store.rows, List.map_map]
      exact Table.nodup_map_filter fun r s _ _ h ↦ TripRef.solo.inj h
  | soloDispatch =>
      simp only [Store.rows, List.map_map]
      exact Table.nodup_map_filter fun r s _ _ h ↦ TripRef.solo.inj h
  | openPools =>
      simp only [Store.rows, List.map_map]
      exact Table.nodup_map_filter fun r s _ _ h ↦ TripRef.shared.inj h
  | closedPools =>
      simp only [Store.rows, List.map_map]
      exact Table.nodup_map_filter fun r s _ _ h ↦ TripRef.shared.inj h

theorem Store.mem_due {w : Store} {now : Time} {q : Query} {i : Due} :
    i ∈ w.due now q ↔ (i.query = q ∧ i.In w) ∧ w.Aged now i := by
  rw [Store.due, List.mem_filter, Due.mem_rows, decide_eq_true_iff]

/-- What is old stays old. -/
theorem Store.Aged.mono {w w' : Store} {now now' : Time} {i : Due} (h : w.Aged now i)
    (hle : now ≤ now') (hu : w'.updatedAt i.trip = w.updatedAt i.trip) : w'.Aged now' i := by
  have hlt : ∀ {u : Time}, u < now - graceMs → u < now' - graceMs := fun h ↦
    h.trans_le (Int.sub_le_sub_right hle _)
  cases i with
  | unwokenScheduled r => trivial
  | soloDispatch r u =>
      show w'.updatedAt _ < _
      rw [hu]
      exact hlt h
  | openPool s u =>
      show w'.updatedAt _ < _
      rw [hu]
      exact hlt h
  | closedPool s =>
      show w'.updatedAt _ < _
      rw [hu]
      exact hlt h

namespace QueryStep

variable {cfg : Windows} {start : Time} {q : Query} {w w' : Store} {i : Due}

/-- A trip is passed over, which cannot be where the query is below its limit, or it is
reconciled once. -/
theorem trip_cases (h : QueryStep cfg start q w w') (trip : TripRef) :
    Same trip w w' ∧ ((w.rows q).length ≤ maxPerPass → ∀ i ∈ w.due start q, i.trip ≠ trip) ∨
      ∃ (i : Due) (c : ReconcileClock) (w₁ : Store), i.In w ∧ i.query = q ∧ i.trip = trip ∧
        start ≤ c.tx.now ∧ Same trip w w₁ ∧ Same trip (i.reconcile cfg c w₁) w' := by
  obtain ⟨now, picked, clock, hnow, hbatch, hclock, rfl⟩ := h
  have hnodup : (picked.map Due.trip).Nodup :=
    hbatch.nodup_map ((List.filter_sublist.map _).nodup (w.nodup_trips q))
  rcases (isolated_reconcile cfg clock).foldl_cases hnodup trip w with ⟨hne, hs⟩ |
    ⟨i, hi, rfl, w₁, hs, hs'⟩
  · refine Or.inl ⟨hs, fun hle i hi ↦ hne i (hbatch.mem_of_length_le ?_ ?_)⟩
    · exact (List.length_filter_le _ _).trans hle
    · obtain ⟨hin, haged⟩ := Store.mem_due.mp hi
      exact Store.mem_due.mpr ⟨hin, haged.mono hnow rfl⟩
  · obtain ⟨⟨hq, hin⟩, -⟩ := Store.mem_due.mp (hbatch.mem hi)
    exact Or.inr ⟨i, clock i.trip, w₁, hin, hq, rfl, hclock i hi, hs, hs'⟩

/-- A row that a query reconciled is still one of its rows. -/
theorem query_of_reconciled {j : Due} {c : ReconcileClock} {w₁ : Store} (hi : i.In w')
    (hj : j.In w₁) (ht : j.trip = i.trip) (hs : Same i.trip (j.reconcile cfg c w₁) w') :
    i.query = j.query := by
  have : ∃ j' : Due, j'.In (j.reconcile cfg c w₁) ∧ j'.query = j.query ∧ j'.trip = j.trip := by
    rcases Due.served cfg c hj with ⟨hin, -⟩ | ⟨-, -, h⟩
    · exact ⟨j, hin, rfl, rfl⟩
    · exact h
  obtain ⟨j', hin, hq, ht'⟩ := this
  have hin' : j'.In w' := by
    rw [← ht, ← ht'] at hs
    exact hs.mem hin
  rw [hi.unique hin' (ht.symm.trans ht'.symm), hq]

/-- The rows of the other queries are left alone. -/
theorem same_of_ne (h : QueryStep cfg start q w w') (hi : i.In w') (hq : i.query ≠ q) :
    Same i.trip w w' := by
  rcases h.trip_cases i.trip with ⟨hs, -⟩ | ⟨j, c, w₁, hj, hjq, ht, -, hs, hs'⟩
  · exact hs
  · rw [← ht] at hs
    exact absurd ((query_of_reconciled hi (hs.mem hj) ht hs').trans hjq) hq

/-- No row is new. -/
theorem exists_row (h : QueryStep cfg start q w w') (hi : i.In w') :
    ∃ j : Due, j.In w ∧ j.query = i.query ∧ j.trip = i.trip := by
  rcases h.trip_cases i.trip with ⟨hs, -⟩ | ⟨j, c, w₁, hj, -, ht, -, hs, hs'⟩
  · exact ⟨i, hs.symm.mem hi, rfl, rfl⟩
  · rw [← ht] at hs
    exact ⟨j, hj, (query_of_reconciled hi (hs.mem hj) ht hs').symm, ht⟩

theorem length_rows (h : QueryStep cfg start q w w') (q' : Query) :
    (w'.rows q').length = (w.rows q').length := by
  obtain ⟨now, picked, clock, -, -, -, rfl⟩ := h
  exact foldl_rel (R := fun w w' : Store ↦ (w'.rows q').length = (w.rows q').length)
    (fun _ ↦ rfl) (fun _ _ _ h h' ↦ h'.trans h)
    (fun i _ w ↦ i.length_rows_reconcile cfg (clock i.trip) w q') w

end QueryStep

end Rcab.Outbox
