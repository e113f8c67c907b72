import Rcab.Seats.Allocate
import Rcab.Rides.SharedCreate

/-!
# What a statement does to the idempotency records

A completed record is never taken back and keeps its fingerprint; a record is completed by
a completion of its own scope only, with the response and under the fingerprint it finds.
`RecordStep scope completed` says so of one statement, `completed` being the response it
recorded.
-/

namespace Rcab

open Rides

/-- The records, before and after one statement of a request for `scope`. -/
structure RecordStep (scope : IdempotencyScope) (completed : Option CreateRideResponse)
    (t t' : Table IdempotencyRecord.scope) : Prop where
  /-- A completed record stays, under its fingerprint. -/
  kept : ∀ s r, t.get s = some r → r.state = .completed → ∃ r', t'.get s = some r' ∧
    r'.state = .completed ∧ r'.requestFingerprint = r.requestFingerprint
  /-- A completed record was so before, or has just been. -/
  back : ∀ s r', t'.get s = some r' → r'.state = .completed → ∃ r, t.get s = some r ∧
    r.requestFingerprint = r'.requestFingerprint ∧
      (r.state = .completed ∧ r.response = r'.response ∨
        s = scope ∧ completed.isSome ∧ r'.response = completed)
  /-- A completion finds the record there is. -/
  done : ∀ r, completed.isSome → t.get scope = some r → ∃ r', t'.get scope = some r' ∧
    r'.state = .completed ∧ r'.requestFingerprint = r.requestFingerprint

namespace RecordStep

variable {scope : IdempotencyScope} {t t' : Table IdempotencyRecord.scope}

/-- Nothing was recorded. -/
theorem refl : RecordStep scope none t t where
  kept s r h hc := ⟨r, h, hc, rfl⟩
  back s r h hc := ⟨r, h, rfl, Or.inl ⟨hc, rfl⟩⟩
  done _ h := absurd h (by simp)

theorem of_eq (h : t' = t) : RecordStep scope none t t' := h ▸ refl

end RecordStep

variable {db : Db} {scope : IdempotencyScope}

theorem recordStep_claimInsert {t : TxClock} {fingerprint : String} :
    RecordStep scope none db.idempotencyRecord
      (claimInsert t db scope fingerprint).1.idempotencyRecord := by
  unfold claimInsert
  split
  · exact .refl
  · rename_i hfree
    refine ⟨fun s r h hc ↦ ⟨r, ?_, hc, rfl⟩, fun s r h hc ↦ ⟨r, ?_, rfl, Or.inl ⟨hc, rfl⟩⟩,
      fun _ h ↦ absurd h (by simp)⟩
    · rw [Table.get_insert (by exact hfree), if_neg]
      · exact h
      · rintro rfl
        rw [hfree] at h
        cases h
    · rw [Table.get_insert (by exact hfree)] at h
      split_ifs at h
      · -- The new record is pending.
        obtain rfl := Option.some.inj h
        cases hc
      · exact h

theorem recordStep_reclaimStale {t : TxClock} {dateNow : Time} {fingerprint : String} :
    RecordStep scope none db.idempotencyRecord
      (reclaimStale t dateNow db scope fingerprint).1.idempotencyRecord := by
  refine ⟨fun s r h hc ↦ ?_, fun s r' h hc ↦ ?_, fun _ h ↦ absurd h (by simp)⟩
  · refine ⟨_, by simp only [reclaimStale, Table.get_update, h, Option.map_some]; rfl, ?_⟩
    split_ifs
    · exact ⟨hc, rfl⟩
    · exact ⟨hc, rfl⟩
  · simp only [reclaimStale, Table.get_update, Option.map_eq_some_iff] at h
    obtain ⟨r, hr, rfl⟩ := h
    refine ⟨r, hr, ?_⟩
    split_ifs at hc ⊢
    · exact ⟨rfl, Or.inl ⟨hc, rfl⟩⟩
    · exact ⟨rfl, Or.inl ⟨hc, rfl⟩⟩

theorem recordStep_completeIn {dateNow : Time} {resourceId : PoolId}
    {response : CreateRideResponse} :
    RecordStep scope (some response) db.idempotencyRecord
      (completeIn dateNow db scope resourceId response).idempotencyRecord := by
  have step : ∀ s r, db.idempotencyRecord.get s = some r → ∃ r',
      (completeIn dateNow db scope resourceId response).idempotencyRecord.get s = some r' ∧
        r'.requestFingerprint = r.requestFingerprint ∧
        (s = scope → r'.state = .completed ∧ r'.response = some response) ∧
        (s ≠ scope → r' = r) := by
    intro s r h
    refine ⟨_, by simp only [completeIn, Table.get_update, h, Option.map_some]; rfl, ?_⟩
    have hs : r.scope = s := Table.key_of_get h
    split_ifs with hsc
    · exact ⟨rfl, fun _ ↦ ⟨rfl, rfl⟩, fun hne ↦ absurd (hs.symm.trans hsc) hne⟩
    · exact ⟨rfl, fun he ↦ absurd (hs.trans he) hsc, fun _ ↦ rfl⟩
  refine ⟨fun s r h hc ↦ ?_, fun s r' h hc ↦ ?_, fun r _ h ↦ ?_⟩
  · obtain ⟨r', h', hf, heq, hne⟩ := step s r h
    refine ⟨r', h', ?_, hf⟩
    by_cases hs : s = scope
    · exact (heq hs).1
    · rw [hne hs]
      exact hc
  · have hsome : (db.idempotencyRecord.get s).isSome := by
      cases hg : db.idempotencyRecord.get s with
      | some r => rfl
      | none => simp [completeIn, hg] at h
    obtain ⟨r, hr⟩ := Option.isSome_iff_exists.mp hsome
    obtain ⟨r'', h', hf, heq, hne⟩ := step s r hr
    obtain rfl : r'' = r' := Option.some.inj (h'.symm.trans h)
    refine ⟨r, hr, hf.symm, ?_⟩
    by_cases hs : s = scope
    · exact Or.inr ⟨hs, rfl, (heq hs).2⟩
    · rw [hne hs] at hc ⊢
      exact Or.inl ⟨hc, rfl⟩
  · obtain ⟨r', h', hf, heq, -⟩ := step scope r h
    exact ⟨r', h', (heq rfl).1, hf⟩

theorem recordStep_release :
    RecordStep scope none db.idempotencyRecord (release db scope).idempotencyRecord := by
  refine ⟨fun s r h hc ↦ ⟨r, ?_, hc, rfl⟩, fun s r h hc ↦ ⟨r, ?_, rfl, Or.inl ⟨hc, rfl⟩⟩,
    fun _ h ↦ absurd h (by simp)⟩
  · simp [release, h, hc]
  · simp only [release, Table.get_delete, Option.filter_eq_some_iff] at h
    exact h.1

end Rcab
