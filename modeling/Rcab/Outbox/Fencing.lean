import Rcab.Outbox.Relay

/-!
# Leases are fenced

A relay may stall until another has leased its row anew, or until the row has been settled
and re-armed; then it acks, or fails, what is no longer its own.  The lease token keeps such
a relay out: only under the row's current token does an `UPDATE` match.

A current token is one relay's (`FenceInv.unique`), and a relay about to ack a row under its
current token has published it since the row was last armed (`FenceInv.published`): arming
leaves the row without a token, and a new lease has a new one.
-/

namespace Rcab.Outbox

namespace World

variable (w : World) (i : ℕ) (row : LeasedOutboxRow)

/-- Relay `i` is about to ack the row. -/
def Acking : Prop := w.current i = some row ∧ (w.relays i).stage = .acking

/-- The row is leased to whoever presents this token. -/
def Holds : Prop := ∃ r ∈ w.outbox, r.LeasedAs row.dedupeKey row.leaseToken

end World

/-- Relay `i` published the row, under this very lease, after it was last armed. -/
def PublishedBy (tr : List (World × Event)) (i : ℕ) (row : LeasedOutboxRow) : Prop :=
  ∃ w, (w, .publish i none) ∈ since (Arming row.dedupeKey) tr ∧ w.current i = some row ∧
    ∃ p, publication row = .ok p

/-- What the invariant carries along a run. -/
structure FenceInv (tr : List (World × Event)) (w : World) : Prop where
  exclusive : ∀ r ∈ w.outbox, r.processedAt = none ∨ r.failedAt = none
  rows : ∀ i row, row ∈ (w.relays i).rows → row.leaseToken ∈ w.issued
  /-- A token is held by one relay, for one row. -/
  unique : ∀ i j row row', row ∈ (w.relays i).rows → row' ∈ (w.relays j).rows →
    row.leaseToken = row'.leaseToken → i = j ∧ row.dedupeKey = row'.dedupeKey
  published : ∀ i row, w.Acking i row →
    (itemAt w.outbox row.dedupeKey).status = .held row.leaseToken → PublishedBy tr i row

variable {w₀ w w' : World} {e : Event} {tr tr' : List (World × Event)} {i : ℕ}
  {row : LeasedOutboxRow} {id : DedupeKey} {token : Uuid} {r : OutboxRow}

theorem World.Acking.mem (h : w.Acking i row) : row ∈ (w.relays i).rows :=
  List.mem_of_head? h.1

theorem World.holds_iff :
    w.Holds row ↔ (itemAt w.outbox row.dedupeKey).status = .held row.leaseToken := by
  rw [itemAt_held]
  constructor
  · rintro ⟨r, hr, hl⟩
    exact ⟨r, hl.1 ▸ Table.get_of_mem hr, hl⟩
  · rintro ⟨r, hr, hl⟩
    exact ⟨r, Table.mem_of_get hr, hl⟩

/-! ## One step -/

theorem issued_of_step (h : step w e w') (ht : token ∈ w.issued) : token ∈ w'.issued := by
  obtain ⟨-, rfl⟩ := h
  cases e with
  | lease i now locked picked uuid answered => exact List.mem_append_right _ ht
  | publish i thrown | ack i now executed | fail i now executed =>
      simp only [World.next]
      split <;> exact ht
  | _ => exact ht

/-- No statement sets one of the two instants while the other is there. -/
theorem exclusive_of_step (h : step w e w')
    (hw : ∀ r ∈ w.outbox, r.processedAt = none ∨ r.failedAt = none) :
    ∀ r ∈ w'.outbox, r.processedAt = none ∨ r.failedAt = none := by
  obtain ⟨-, rfl⟩ := h
  cases e with
  | lease i now locked picked uuid answered =>
      exact Table.forall_mem_update (fun r ↦ r.leased_dedupeKey ..) hw fun r hr _ ↦ hw r hr
  | publish i thrown =>
      simp only [World.next]
      split <;> exact hw
  | ack i now executed =>
      simp only [World.next]
      split
      · exact hw
      · cases executed with
        | false => exact hw
        | true =>
            exact Table.forall_mem_update (fun r ↦ r.acked_dedupeKey ..) hw
              fun r _ hl ↦ Or.inr hl.2.2.2
  | fail i now executed =>
      simp only [World.next]
      split
      · cases executed with
        | false => exact hw
        | true =>
            exact Table.forall_mem_update (fun r ↦ r.failed_dedupeKey ..) hw
              fun r _ hl ↦ Or.inl hl.2.2.1
      · exact hw
  | crash i => exact hw
  | enqueue message now =>
      intro r hr
      cases hg : w.outbox.get (message.row now).dedupeKey with
      | some s =>
          rw [World.next, Table.insert_of_isSome (by simp [hg])] at hr
          exact hw r hr
      | none =>
          rcases (Table.mem_insert hg).mp hr with hr | rfl
          · exact hw r hr
          · exact Or.inl rfl
  | rearm id now =>
      exact Table.forall_mem_update (fun r ↦ r.rearmed_dedupeKey ..) hw fun r _ _ ↦ Or.inl rfl

/-- A row that comes to be held is leased under a token not generated before. -/
theorem fresh_of_step (h : step w e w') (hh : (itemAt w'.outbox id).status = .held token) :
    (itemAt w.outbox id).status = .held token ∧ ¬ e.Arms w id ∨ token ∉ w.issued := by
  rcases item_step h id with ⟨hget, harm, -⟩ | ⟨a, hp, hs⟩
  · rw [itemAt_congr hget] at hh
    exact Or.inl ⟨hh, harm⟩
  · obtain rfl := hs.held hh
    cases hp with
    | grant _ hfresh => exact Or.inr hfresh

/-- A relay about to ack was so before, or has just published the row. -/
theorem acking_of_step (h : step w e w') (ha : w'.Acking i row) :
    w.Acking i row ∨ e = .publish i none ∧ w.current i = some row ∧ ∃ p, publication row = .ok p := by
  obtain ⟨hcur, hst⟩ := ha
  have hm := relay_step h i
  unfold World.current at hcur
  generalize w'.relays i = d at hm hcur hst
  cases hm with
  | same => exact Or.inl ⟨hcur, hst⟩
  | lease | ack | fail | crash => cases hst
  | publish hrow =>
      rw [Drain.publish_rows] at hcur
      obtain rfl := Option.some.inj (hrow.symm.trans hcur)
      obtain ⟨rfl, hp⟩ := Drain.publish_acking hst
      exact Or.inr ⟨rfl, hrow, hp⟩

theorem PublishedBy.snoc (h : PublishedBy tr i row) (harm : ¬ e.Arms w row.dedupeKey) :
    PublishedBy (tr ++ [(w, e)]) i row := by
  obtain ⟨u, hu, hrow, hp⟩ := h
  refine ⟨u, ?_, hrow, hp⟩
  rw [since_snoc_of_not harm]
  exact List.mem_append_left _ hu

theorem FenceInv.initial (h : w.Initial) : FenceInv [] w where
  exclusive r hr := Or.inl (h.rows r hr).2.2.2.1
  rows i row hrow := by rw [h.relays i] at hrow; cases hrow
  unique i j row row' hrow := by rw [h.relays i] at hrow; cases hrow
  published i row ha := by
    have hrow := ha.mem
    rw [h.relays i] at hrow
    cases hrow

theorem FenceInv.step (hi : FenceInv tr w) (h : Outbox.step w e w') :
    FenceInv (tr ++ [(w, e)]) w' where
  exclusive := exclusive_of_step h hi.exclusive
  rows i row hrow := by
    rcases rows_of_step h hrow with hold | ⟨now, locked, picked, uuid, answered, rfl, hmem, ht⟩
    · exact issued_of_step h (hi.rows i row hold)
    · obtain ⟨-, rfl⟩ := h
      exact List.mem_append_left _ (ht ▸ List.mem_map_of_mem hmem)
  unique i j row row' hrow hrow' heq := by
    rcases rows_of_step h hrow with hold | ⟨now, locked, picked, uuid, answered, rfl, hmem, ht⟩
    · rcases rows_of_step h hrow' with hold' | ⟨_, _, picked, uuid, _, rfl, hmem', ht'⟩
      · exact hi.unique i j row row' hold hold' heq
      · -- The old token was issued before the new one was generated.
        refine absurd (hi.rows i row hold) ?_
        rw [heq, ht']
        exact h.1.2.2.2 _ hmem'
    · rcases rows_of_step h hrow' with hold' | ⟨_, _, _, _, _, he, hmem', ht'⟩
      · refine absurd (hi.rows j row' hold') ?_
        rw [← heq, ht]
        exact h.1.2.2.2 _ hmem
      · cases he
        refine ⟨rfl, List.inj_on_of_nodup_map h.1.2.2.1 hmem hmem' ?_⟩
        rw [← ht, ← ht', heq]
  published i row ha ht := by
    rcases acking_of_step h ha with hold | ⟨rfl, hrow, hp⟩
    · rcases fresh_of_step h ht with ⟨hheld, harm⟩ | hfresh
      · exact (hi.published i row hold hheld).snoc harm
      · exact absurd (hi.rows i row hold.mem) hfresh
    · refine ⟨w, ?_, hrow, hp⟩
      rw [since_snoc_of_not (by exact nofun)]
      exact List.mem_append_right _ (List.mem_singleton_self _)

/-! ## Runs -/

theorem FenceInv.of_run (h₀ : w₀.Initial) (hr : Run Outbox.step w₀ tr w) : FenceInv tr w :=
  hr.invariant_trace (fun _ _ _ _ hi hs ↦ hi.step hs) (.initial h₀)

/-- Only a re-arm changes a settled row. -/
theorem settled_of_step (h : step w e w') (hr : r ∈ w.outbox) (hs : r.Settled)
    (hne : ∀ now, e ≠ .rearm r.dedupeKey now) : r ∈ w'.outbox := by
  have hget := Table.get_of_mem hr
  rcases item_step h r.dedupeKey with ⟨hkeep, -⟩ | ⟨a, hp, hstep⟩
  · exact Table.mem_of_get (hkeep.trans hget)
  · obtain rfl : a = .arm := hstep.settled (itemAt_of_get hget ▸ OutboxRow.settled_iff.mpr hs)
    cases hp with
    | arm harm =>
        cases e with
        | enqueue message now =>
            have hnone := harm.2
            rw [hget] at hnone
            cases hnone
        | rearm id' now => exact absurd (harm.1 ▸ rfl) (hne now)
        | _ => exact harm.elim

theorem settled_of_run (h : Run step w tr w') (hr : r ∈ w.outbox) (hs : r.Settled)
    (hne : ∀ p ∈ tr, ∀ now, p.2 ≠ .rearm r.dedupeKey now) : r ∈ w'.outbox := by
  refine h.invariant_trace (I := fun tr w ↦
    (∀ p ∈ tr, ∀ now, p.2 ≠ .rearm r.dedupeKey now) → r ∈ w.outbox)
    (fun tr t e u hi hstep hne ↦ ?_) (fun _ ↦ hr) hne
  have hmem := hi fun p hp ↦ hne p (List.mem_append_left _ hp)
  exact settled_of_step hstep hmem hs (hne (t, e) (by simp))

/-- What the lease tokens ensure in a state `w`, which `tr` led to. -/
structure Fenced (tr : List (World × Event)) (w : World) : Prop where
  /-- Whoever presents a token that is not the row's changes nothing, and is told so. -/
  stale : ∀ id token now, (∀ r ∈ w.outbox, r.dedupeKey = id → r.leaseToken ≠ some token) →
    ack w.outbox now id token = (w.outbox, false) ∧ ∀ error permanent,
      fail w.outbox now id token error permanent = (w.outbox, .lostLease)
  /-- A row becomes processed when the one relay that holds its current token acks it,
  having published it since the row was last armed. -/
  processed : ∀ e w' r', step w e w' → r' ∈ w'.outbox → r'.processedAt.isSome →
    (∀ r ∈ w.outbox, r.dedupeKey = r'.dedupeKey → r.processedAt = none) →
      ∃ i now row, e = .ack i now true ∧ row.dedupeKey = r'.dedupeKey ∧ w.Acking i row ∧
        w.Holds row ∧ PublishedBy tr i row ∧
          ∀ j row', row' ∈ (w.relays j).rows → row'.leaseToken = row.leaseToken → j = i
  /-- A settled row stays as it is until a re-arm. -/
  kept : ∀ tr' w' r, Run step w tr' w' → r ∈ w.outbox → r.Settled →
    (∀ p ∈ tr', ∀ now, p.2 ≠ .rearm r.dedupeKey now) → r ∈ w'.outbox
  exclusive : ∀ r ∈ w.outbox, ¬ (r.processedAt.isSome ∧ r.failedAt.isSome)
  /-- A re-arm leaves a pending or leased row as it is. -/
  pending : ∀ id now w' r, step w (.rearm id now) w' → r ∈ w.outbox → ¬ r.Settled → r ∈ w'.outbox

/-- **Fencing**: whatever the relays do, and whenever they do it. -/
theorem outbox_fenced (h₀ : w₀.Initial) (hr : Run step w₀ tr w) : Fenced tr w where
  stale id token now h := ⟨ack_lost h, fun _ _ ↦ fail_lost h⟩
  processed e w' r' hstep hmem hproc hnone := by
    have hi := FenceInv.of_run h₀ hr
    have hget := Table.get_of_mem hmem
    rcases item_step hstep r'.dedupeKey with ⟨hkeep, -⟩ | ⟨a, hp, hs⟩
    · rw [hkeep] at hget
      rw [hnone r' (Table.mem_of_get hget) rfl] at hproc
      cases hproc
    · obtain ⟨token, rfl, hheld⟩ := hs.done
        (by rw [itemAt_of_get hget]; exact OutboxRow.status_eq_done.mpr hproc)
      cases hp with
      | @finish i now row hrow hst hid =>
          rw [hid] at hheld
          refine ⟨i, now, row, rfl, hid.symm, ⟨hrow, hst⟩, World.holds_iff.mpr hheld,
            hi.published i row ⟨hrow, hst⟩ hheld, fun j row' hrow' heq ↦ ?_⟩
          exact (hi.unique j i row' row hrow' (List.mem_of_head? hrow) heq).1
  kept tr' w' r hrun hmem hs hne := settled_of_run hrun hmem hs hne
  exclusive r hmem h := by
    rcases (FenceInv.of_run h₀ hr).exclusive r hmem with hp | hf
    · rw [hp] at h
      cases h.1
    · rw [hf] at h
      cases h.2
  pending id now w' r hstep hmem hs := by
    obtain ⟨-, rfl⟩ := hstep
    exact mem_rearm hmem (Or.inr hs)

/-- Nothing is recorded yet. -/
def sampleWorld : World := ⟨.empty, fun _ ↦ {}, []⟩

theorem sampleWorld_initial : sampleWorld.Initial :=
  ⟨fun r hr ↦ absurd hr (Table.notMem_empty r), fun _ ↦ rfl⟩

def sampleKey : DedupeKey := ⟨.rideDispatchRequested, 7, 1⟩

/-- The dispatch intent of ride 7 at generation 1. -/
def sampleEnqueue : Event := .enqueue ⟨.ride, 7, 1, .rideDispatchRequested 7, none⟩ 0

/-- Relay 0 stalls; relay 1 takes the row over; both publish it, and both ack. -/
def sampleTakeover : List Event :=
  [sampleEnqueue, .lease 0 0 [] [sampleKey] (fun _ ↦ 100) true,
    .lease 1 30001 [] [sampleKey] (fun _ ↦ 101) true, .publish 0 none, .ack 0 30002 true,
    .publish 1 none, .ack 1 30003 true]

theorem sampleTakeover_fenced :
    Fenced (traceOf World.next sampleWorld sampleTakeover)
        (sampleTakeover.foldl World.next sampleWorld) ∧
      (sampleTakeover.foldl World.next sampleWorld).outbox.Any
        fun r ↦ r.processedAt = some 30003 := by
  have hok : Enabled Event.Allowed World.next sampleWorld sampleTakeover := by decide +kernel
  exact ⟨outbox_fenced sampleWorld_initial
    (Run.of_enabled step (fun _ _ he ↦ ⟨he, rfl⟩) sampleTakeover hok), by decide +kernel⟩

end Rcab.Outbox
