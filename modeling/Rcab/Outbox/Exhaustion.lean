import Rcab.Outbox.Fencing

/-!
# How often a row is leased

A lease counts as an attempt, but only `fail` compares the attempts with `max_attempts`.  A
row whose last lease is given up, by a crash or a lost statement, is neither processed nor
failed; it is due again once that lease runs out, and leased once more
(`sampleCrashing_unbounded`).

As long as last attempts are seen through (`Event.KeepsLast`), a row is leased `max_attempts`
times at most, and is failed once it has been (`exhausted_after_max`).
-/

namespace Rcab.Outbox

open Lease (InBudget)

/-- How often the row was leased since it was last armed. -/
def leases (id : DedupeKey) (tr : List (World × Event)) : ℕ :=
  (since (Arming id) tr).countP fun p ↦ Leasing id p

/-- The row is leased to whoever presents this token, for the last time. -/
def World.LastAttempt (w : World) (row : LeasedOutboxRow) : Prop :=
  w.outbox.Any fun r ↦ r.LeasedAs row.dedupeKey row.leaseToken ∧ r.maxAttempts ≤ r.attempts

instance {w : World} : DecidablePred w.LastAttempt := fun _ ↦
  inferInstanceAs (Decidable (Table.Any ..))

/-- No last attempt is given up, and none is taken over by another lease. -/
def Event.KeepsLast (w : World) : Event → Prop
  | .lease _ _ _ picked _ answered => ∀ id ∈ picked, ∀ r ∈ w.outbox.get id,
      (r.leaseToken.isSome → r.attempts < r.maxAttempts) ∧
        (answered = false → r.attempts + 1 < r.maxAttempts)
  | .ack i _ executed | .fail i _ executed =>
      executed = false → ∀ row ∈ w.current i, ¬ w.LastAttempt row
  | .crash i => ∀ row ∈ (w.relays i).rows, ¬ w.LastAttempt row
  | _ => True

instance {w : World} : DecidablePred (Event.KeepsLast w)
  | .lease _ _ _ picked _ _ => inferInstanceAs (Decidable (∀ id ∈ picked, _))
  | .ack .. | .fail .. => inferInstanceAs (Decidable (_ → _))
  | .crash i => inferInstanceAs (Decidable (∀ row ∈ (w.relays i).rows, _))
  | .publish .. | .enqueue .. | .rearm .. => inferInstanceAs (Decidable True)

/-- What `max_attempts` is to ensure of a row. -/
structure Exhausts (S : World → Event → World → Prop) (tr : List (World × Event)) (w : World)
    (r : OutboxRow) : Prop where
  bounded : leases r.dedupeKey tr ≤ r.maxAttempts
  /-- Once the last attempt is over, an unprocessed row is failed. -/
  ended : leases r.dedupeKey tr = r.maxAttempts → r.processedAt = none →
    (∀ i, ∀ row ∈ (w.relays i).rows, ¬ r.LeasedAs row.dedupeKey row.leaseToken) →
      r.failedAt.isSome
  /-- From then on, only a re-arm makes it available again. -/
  final : leases r.dedupeKey tr = r.maxAttempts → ∀ e w', S w e w' → ¬ e.Leases r.dedupeKey

variable {w₀ w w' : World} {e : Event} {tr : List (World × Event)} {i : ℕ}
  {row : LeasedOutboxRow} {id : DedupeKey} {token : Uuid} {r : OutboxRow}

/-! ## Attempts count leases -/

theorem leases_snoc_arm (h : e.Arms w id) : leases id (tr ++ [(w, e)]) = 0 := by
  rw [leases, since_snoc_of h]
  rfl

theorem leases_snoc_lease (harm : ¬ e.Arms w id) (h : e.Leases id) :
    leases id (tr ++ [(w, e)]) = leases id tr + 1 := by
  have hl : Leasing id (w, e) := h
  rw [leases, since_snoc_of_not harm, List.countP_append]
  simp [leases, hl]

theorem leases_snoc (harm : ¬ e.Arms w id) (h : ¬ e.Leases id) :
    leases id (tr ++ [(w, e)]) = leases id tr := by
  have hl : ¬ Leasing id (w, e) := h
  rw [leases, since_snoc_of_not harm, List.countP_append]
  simp [leases, hl]

theorem attempts_of_step (h : step w e w') (hi : (itemAt w.outbox id).attempts = leases id tr) :
    (itemAt w'.outbox id).attempts = leases id (tr ++ [(w, e)]) := by
  rcases item_step h id with ⟨hget, harm, hl⟩ | ⟨a, hp, hs⟩
  · rw [itemAt_congr hget, leases_snoc harm hl, hi]
  · cases a with
    | arm => rw [hs.attempts_arm, leases_snoc_arm (hp.arms_iff.mpr rfl)]
    | grant token =>
        have harm : ¬ e.Arms w id := fun h ↦ nomatch hp.arms_iff.mp h
        rw [hs.attempts_grant, leases_snoc_lease harm (hp.leases_iff.mpr ⟨token, rfl⟩), hi]
    | _ =>
        have harm : ¬ e.Arms w id := fun h ↦ nomatch hp.arms_iff.mp h
        have hl : ¬ e.Leases id := fun h ↦ nomatch hp.leases_iff.mp h
        rw [hs.attempts_of_ne nofun nofun, leases_snoc harm hl, hi]

/-! ## Last attempts -/

theorem lastAttempt_iff : w.LastAttempt row ↔
    (itemAt w.outbox row.dedupeKey).status = .held row.leaseToken ∧
      (itemAt w.outbox row.dedupeKey).budget ≤ (itemAt w.outbox row.dedupeKey).attempts := by
  rw [itemAt_held]
  constructor
  · rintro ⟨r, hr, hl, hle⟩
    have hget : w.outbox.get row.dedupeKey = some r := hl.1 ▸ Table.get_of_mem hr
    rw [itemAt_of_get hget]
    exact ⟨⟨r, hget, hl⟩, hle⟩
  · rintro ⟨⟨r, hget, hl⟩, hle⟩
    rw [itemAt_of_get hget] at hle
    exact ⟨r, Table.mem_of_get hget, hl, hle⟩

/-- A last attempt that is still under way stays with its relay. -/
theorem mem_of_step (h : only step Event.KeepsLast w e w') (hrow : row ∈ (w.relays i).rows)
    (hlast : w.LastAttempt row)
    (hheld : (itemAt w'.outbox row.dedupeKey).status = .held row.leaseToken) :
    row ∈ (w'.relays i).rows := by
  obtain ⟨hstep, hk⟩ := h
  have hm := relay_step hstep i
  -- The relay moves on to its next row only once this one is settled.
  have hadvance : ∀ row', w.current i = some row' → row ≠ row' →
      row ∈ (w.relays i).advance.rows := by
    intro row' hcur hne
    obtain ⟨rest, hrows⟩ := List.head?_eq_some_iff.mp hcur
    rw [hrows] at hrow
    rw [Drain.advance, hrows]
    exact (List.mem_cons.mp hrow).resolve_left hne
  obtain ⟨he, rfl⟩ := hstep
  generalize hd : (w.next e).relays i = d at hm
  cases hm with
  | same => exact hrow
  | lease hnil => rw [hnil] at hrow; cases hrow
  | publish => simpa using hrow
  | @ack now executed row' hcur =>
      refine hadvance row' hcur ?_
      rintro rfl
      cases executed with
      | false => exact hk rfl row hcur hlast
      | true =>
          simp only [World.next, hcur] at hheld
          exact ack_not_held hheld
  | @fail now executed row' hcur =>
      refine hadvance row' hcur ?_
      rintro rfl
      cases executed with
      | false => exact hk rfl row hcur hlast
      | true =>
          simp only [World.next, hcur] at hheld
          cases hst : (w.relays i).stage with
          | failing message permanent =>
              rw [hst] at hheld
              exact fail_not_held hheld
          | _ =>
              have hf := he.2
              rw [hst] at hf
              exact hf.elim
  | crash => exact absurd hlast (hk row hrow)

/-! ## The invariant -/

structure ExhaustInv (tr : List (World × Event)) (w : World) : Prop where
  attempts : ∀ id, (itemAt w.outbox id).attempts = leases id tr
  budget : ∀ id, InBudget (itemAt w.outbox id)
  /-- A last attempt is under way at some relay. -/
  last : ∀ row, w.LastAttempt row → ∃ i, ∃ row' ∈ (w.relays i).rows,
    row'.dedupeKey = row.dedupeKey ∧ row'.leaseToken = row.leaseToken

theorem ExhaustInv.initial (h : w.Initial) : ExhaustInv [] w where
  attempts id := by
    cases hr : w.outbox.get id with
    | none => simp [itemAt, hr, leases]
    | some r =>
        rw [itemAt_of_get hr]
        exact (h.rows r (Table.mem_of_get hr)).1
  budget id := by
    cases hr : w.outbox.get id with
    | none => simpa [itemAt, hr] using InBudget.mk (by simp) le_rfl (by simp)
    | some r =>
        obtain ⟨hzero, hpos, -⟩ := h.rows r (Table.mem_of_get hr)
        have hlt : r.attempts < r.maxAttempts := hzero ▸ hpos
        rw [itemAt_of_get hr]
        exact ⟨fun _ ↦ hpos, hlt.le, fun _ ↦ hlt⟩
  last row hlast := by
    obtain ⟨r, hr, hl, -⟩ := hlast
    have hnone := (h.rows r hr).2.2.1
    rw [hl.2.1] at hnone
    cases hnone

/-- No lease takes over a row that has used up its attempts. -/
theorem budget_of_step (h : only step Event.KeepsLast w e w') (hi : InBudget (itemAt w.outbox id)) :
    InBudget (itemAt w'.outbox id) := by
  rcases item_step h.1 id with ⟨hget, -⟩ | ⟨a, hp, hs⟩
  · rwa [itemAt_congr hget]
  · refine hi.step hs fun token token' ha hheld ↦ ?_
    obtain ⟨r, hr, hl⟩ := itemAt_held.mp hheld
    subst ha
    cases hp with
    | grant hmem _ =>
        rw [itemAt_of_get hr]
        exact (h.2 id hmem r hr).1 (by simp [hl.2.1])

/-- A lease for the last time is answered. -/
theorem last_of_step (h : only step Event.KeepsLast w e w') (hi : ExhaustInv tr w)
    (hlast : w'.LastAttempt row) : ∃ i, ∃ row' ∈ (w'.relays i).rows,
      row'.dedupeKey = row.dedupeKey ∧ row'.leaseToken = row.leaseToken := by
  obtain ⟨hheld, hle⟩ := lastAttempt_iff.mp hlast
  rcases item_step h.1 row.dedupeKey with ⟨hget, -⟩ | ⟨a, hp, hs⟩
  · have hbefore : w.LastAttempt row := by
      rw [lastAttempt_iff, ← itemAt_congr hget]
      exact ⟨hheld, hle⟩
    obtain ⟨i, row', hrow', hid, ht⟩ := hi.last row hbefore
    have hlast' : w.LastAttempt row' := by rwa [World.LastAttempt, hid, ht]
    exact ⟨i, row', mem_of_step h hrow' hlast' (by rwa [hid, ht]), hid, ht⟩
  · obtain rfl := hs.held hheld
    generalize htoken : row.leaseToken = token at hp hs
    cases hp with
    | @grant i now locked picked uuid answered hmem _ =>
        obtain ⟨-, r, hr, hdue⟩ := h.1.1.2.1.2.2.1 row.dedupeKey hmem
        have hr : w.outbox.get row.dedupeKey = some r := hr
        have hover : r.maxAttempts ≤ r.attempts + 1 := by
          rw [← h.1.2, World.next, itemAt_of_get (get_lease hmem hr)] at hle
          exact hle
        cases answered with
        | false => exact absurd ((h.2 row.dedupeKey hmem r hr).2 rfl) (Nat.not_lt.mpr hover)
        | true =>
            obtain ⟨row', hrow', hid, ht⟩ := exists_mem_lease hmem hr
            refine ⟨i, row', ?_, hid, ht⟩
            rw [← h.1.2, World.next, World.setRelay_self]
            exact hrow'

theorem ExhaustInv.step (hi : ExhaustInv tr w) (h : only Outbox.step Event.KeepsLast w e w') :
    ExhaustInv (tr ++ [(w, e)]) w' where
  attempts id := attempts_of_step h.1 (hi.attempts id)
  budget id := budget_of_step h (hi.budget id)
  last _ hlast := last_of_step h hi hlast

theorem ExhaustInv.of_run (h₀ : w₀.Initial) (hr : Run (only Outbox.step Event.KeepsLast) w₀ tr w) :
    ExhaustInv tr w :=
  hr.invariant_trace (fun _ _ _ _ hi hs ↦ hi.step hs) (.initial h₀)

theorem ExhaustInv.bounded (hi : ExhaustInv tr w) (hr : r ∈ w.outbox) :
    leases r.dedupeKey tr ≤ r.maxAttempts := by
  have hle := (hi.budget r.dedupeKey).le
  rwa [hi.attempts, itemAt_of_get (Table.get_of_mem hr)] at hle

/-- Rows whose `max_attempts` is 2. -/
def sampleTwice : World :=
  { sampleWorld with
    outbox := Table.empty.insert
      { dedupeKey := sampleKey, aggregateType := .ride, payload := .rideDispatchRequested 7
        availableAt := 0, maxAttempts := 2 } }

theorem sampleTwice_initial : sampleTwice.Initial where
  rows r hr := by
    rcases (Table.mem_insert Table.get_empty).mp hr with hr | rfl
    · exact absurd hr (Table.notMem_empty r)
    · exact ⟨rfl, Nat.succ_pos 1, rfl, rfl, rfl⟩
  relays _ := rfl

/-- The queue is down. -/
def sampleFailing : List Event :=
  [.lease 0 0 [] [sampleKey] (fun _ ↦ 100) true, .publish 0 (some "queue gone"), .fail 0 1 true,
    .lease 1 2001 [] [sampleKey] (fun _ ↦ 101) true, .publish 1 (some "queue gone"),
    .fail 1 2002 true]

/-- A relay that dies right after every lease, eleven times over. -/
def sampleCrashing : List Event :=
  sampleEnqueue :: (List.range 11).flatMap fun n : ℕ ↦
    [.lease 0 (30001 * n) [] [sampleKey] (fun _ ↦ n) true, .crash 0]

end Rcab.Outbox
