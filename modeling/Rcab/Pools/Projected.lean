import Rcab.Lib.Newest
import Rcab.Matching.PoolProjection
import Rcab.Pools.Confirmations
import Rcab.Pools.Membership

/-!
# The projection of a pool shows its newest row

A hash that shows a row shows, once another is written, the newer of the two (`Shows.write`); a
claim is never undone, so nothing of the older one is left (`Supersedes`).  Whatever rows of a pool
are written, however often and in whatever order, the hash ends with the newest of them
(`projection_newest`).
-/

universe u

namespace Rcab

open Relation (ReflTransGen)

/-! ## The script -/

namespace Matching

/-- What a field of the hash says of a row. -/
def PoolField.of (pool : SharedRide) : PoolField → Option String
  | .version => some (toString pool.stateVersion)
  | .state => some pool.poolState.text
  | .seatCount => some (toString pool.seatCount)
  | .maxSeats => some (toString pool.maxSeats)
  | .claimedBy => pool.claimedByDriverId.map toString

/-- The hash is the projection of the row, and there is none when there is no row. -/
def PoolHash.Shows (hash : PoolHash) (row : Option SharedRide) : Prop :=
  ∀ f, hash.lookup f = row.bind fun pool ↦ f.of pool

/-- `version`, as a number. -/
def PoolHash.storedVersion (hash : PoolHash) : Option ℕ := (hash.lookup .version).bind tonumber

@[simp] theorem tonumber_toString (n : ℕ) : tonumber (toString n) = some n := Nat.toNat?_repr n

variable {hash : PoolHash} {row : Option SharedRide} {pool : SharedRide}

theorem PoolHash.shows_empty : PoolHash.Shows ∅ none := fun _ ↦ Finmap.lookup_empty _

theorem PoolHash.Shows.storedVersion (h : hash.Shows row) :
    hash.storedVersion = row.map SharedRide.stateVersion := by
  rw [PoolHash.storedVersion, h .version]
  cases row with
  | none => rfl
  | some c => exact tonumber_toString _

theorem PoolHash.Shows.current (h : hash.Shows row) (version : ℕ) :
    hash.current (toString version) = row.any fun c ↦ version ≤ c.stateVersion := by
  rw [PoolHash.current, h .version]
  cases row with
  | none => rfl
  | some c =>
    simp only [Option.bind_some, PoolField.of, Option.any_some, tonumber_toString]

/-- What is not written is left as it was. -/
theorem lookup_write (hc : hash.current (toString pool.stateVersion) = false) (f : PoolField) :
    (write hash pool).1.lookup f = (f.of pool).or (hash.lookup f) := by
  cases hd : pool.claimedByDriverId with
  | none =>
    simp only [write, projectPoolEval, hc, hd]
    cases f <;> simp [PoolField.of, hd, Finmap.lookup_insert_of_ne]
  | some d =>
    simp only [write, projectPoolEval, hc, hd]
    cases f <;> simp [PoolField.of, hd, Finmap.lookup_insert_of_ne]

theorem write_of_current (hc : hash.current (toString pool.stateVersion) = true) :
    write hash pool = (hash, false) := by
  simp only [write, projectPoolEval, hc, if_true]

/-- Every field of the older row is there in the newer one. -/
def Supersedes (newer older : SharedRide) : Prop :=
  older.claimedByDriverId.isSome → newer.claimedByDriverId.isSome

/-- **What a hash shows after a write.** -/
theorem PoolHash.Shows.write (h : hash.Shows row)
    (hs : ∀ older ∈ row, older.stateVersion < pool.stateVersion → Supersedes pool older) :
    PoolHash.Shows (write hash pool).1 (keepNewer SharedRide.stateVersion row pool) := by
  have hcurrent := h.current pool.stateVersion
  intro f
  cases row with
  | none =>
    rw [lookup_write hcurrent, h f]
    exact Option.or_none
  | some older =>
    by_cases hle : pool.stateVersion ≤ older.stateVersion
    · rw [write_of_current (hcurrent.trans (by simpa using hle)), keepNewer, if_pos hle]
      exact h f
    · have hlater := hs older rfl (Nat.lt_of_not_le hle)
      rw [lookup_write (hcurrent.trans (by simpa using hle)), h f, keepNewer, if_neg hle]
      -- the claim is the one field a row can lack
      cases f with
      | claimedBy =>
        simp only [Option.bind_some, PoolField.of]
        cases hold : older.claimedByDriverId with
        | none => exact Option.or_none
        | some d =>
          obtain ⟨d', hd'⟩ := Option.isSome_iff_exists.mp (hlater (hold ▸ rfl))
          rw [hd']
          rfl
      | _ => rfl

/-- The script, once for each of the rows. -/
def projected (rows : List SharedRide) : PoolHash := rows.foldl (fun hash pool ↦ (write hash pool).1) ∅

theorem projected_snoc (rows : List SharedRide) :
    projected (rows ++ [pool]) = (Matching.write (projected rows) pool).1 := by
  rw [projected, List.foldl_append]
  rfl

/-- The hash shows the newest of the rows so far. -/
theorem projected_shows {rows : List SharedRide} (hs : ∀ older ∈ rows, ∀ newer ∈ rows,
    older.stateVersion < newer.stateVersion → Supersedes newer older) :
    (projected rows).Shows (newest SharedRide.stateVersion rows) := by
  induction rows using List.reverseRecOn with
  | nil => exact PoolHash.shows_empty
  | append_singleton rows pool ih =>
    have hsub : ∀ row ∈ rows, row ∈ rows ++ [pool] := fun _ ↦ List.mem_append_left _
    rw [projected_snoc, newest_snoc]
    refine (ih fun older ho newer hn ↦ hs older (hsub _ ho) newer (hsub _ hn)).write
      fun older ho ↦ ?_
    exact hs older (hsub _ (newest_mem ho).1) pool
      (List.mem_append_right _ (List.mem_singleton_self _))

end Matching

/-! ## The rows of a pool -/

open Matching

/-- A claim is never undone. -/
theorem PoolStep.supersedes {v v' : PoolView} (h : PoolStep v v') {s : SharedRide}
    (hrow : v.row = some s) : ∃ s', v'.row = some s' ∧ Supersedes s' s := by
  have heq : ∀ {s₀ : SharedRide}, v.row = some s₀ → s₀ = s := fun h₀ ↦
    Option.some.inj (h₀.symm.trans hrow)
  have hmoves : ∀ {s₀ s' : SharedRide}, v.row = some s₀ → Moves s₀ s' → Supersedes s' s := by
    intro s₀ s' h₀ hmv hd
    rw [hmv.claimedByDriverId, heq h₀]
    exact hd
  cases h with
  | idle => exact ⟨s, hrow, id⟩
  | opened _ _ hnone =>
    rw [hrow] at hnone
    cases hnone
  | joined s₀ _ h₀ =>
    refine ⟨_, rfl, fun hd ↦ ?_⟩
    rwa [heq h₀, SharedRide.withVersion_claimedByDriverId, SharedRide.seatOne_claimedByDriverId]
  | closed s₀ _ _ _ h₀ =>
    refine ⟨_, rfl, fun hd ↦ ?_⟩
    rw [heq h₀]
    exact hd
  | retired s₀ s' _ h₀ _ _ _ hmv => exact ⟨_, rfl, hmoves h₀ hmv⟩
  | claimed s₀ d _ h₀ => exact ⟨_, rfl, fun _ ↦ rfl⟩
  | aborted s₀ s' _ h₀ _ _ _ hmv => exact ⟨_, rfl, hmoves h₀ hmv⟩
  | confirmed s₀ s' _ _ _ h₀ _ _ _ _ hmv => exact ⟨_, rfl, hmoves h₀ hmv⟩
  | completed s₀ s' _ _ _ h₀ _ _ _ _ hmv => exact ⟨_, rfl, hmoves h₀ hmv⟩

section Runs

variable {D : Type u} [LinearOrder D] {dist : Point → Point → D} {db db' db₀ s : Db}
  {tr : List (Db × Step)}

variable (dist) in
theorem supersedes_exec (hi : PoolsInv db) (e : Step) {id : PoolId} {row : SharedRide}
    (hrow : db.sharedRides.get id = some row) :
    ∃ row', (exec dist db e).sharedRides.get id = some row' ∧ Supersedes row' row := by
  have hkeep : ∀ v, ReflTransGen PoolStep (db.poolView id) v →
      ∃ row', v.row = some row' ∧ Supersedes row' row := by
    intro v hv
    induction hv with
    | refl => exact ⟨row, hrow, fun h ↦ h⟩
    | tail _ hst ih =>
      obtain ⟨row₁, hrow₁, h₁⟩ := ih
      obtain ⟨row₂, hrow₂, h₂⟩ := hst.supersedes hrow₁
      exact ⟨row₂, hrow₂, fun h ↦ h₂ (h₁ h)⟩
  exact hkeep _ ((poolSim_exec dist hi e).steps id)

theorem supersedes_of_reachable (hi : PoolsInv db) (h : Reachable (step dist) db db')
    {id : PoolId} {row row' : SharedRide} (hrow : db.sharedRides.get id = some row)
    (hrow' : db'.sharedRides.get id = some row') : Supersedes row' row := by
  have key : PoolsInv db' ∧ ∃ row', db'.sharedRides.get id = some row' ∧ Supersedes row' row := by
    refine h.invariant (I := fun s ↦ PoolsInv s ∧ ∃ row', s.sharedRides.get id = some row' ∧
      Supersedes row' row) ?_ ⟨hi, row, hrow, fun h ↦ h⟩
    rintro t e u ⟨hi, row₁, hrow₁, h₁⟩ hst
    refine ⟨hi.step hst, ?_⟩
    obtain rfl := hst
    obtain ⟨row₂, hrow₂, h₂⟩ := supersedes_exec dist hi e hrow₁
    exact ⟨row₂, hrow₂, fun h ↦ h₂ (h₁ h)⟩
  obtain ⟨-, row₂, hrow₂, h₂⟩ := key
  obtain rfl := Option.some.inj (hrow'.symm.trans hrow₂)
  exact h₂

/-- The row was committed at some time of the run. -/
def CommittedRow (tr : List (Db × Step)) (s : Db) (poolId : PoolId) (row : SharedRide) : Prop :=
  ∃ db, Committed tr s db ∧ db.sharedRides.get poolId = some row

/-- Of two rows of a pool, one is the later. -/
theorem CommittedRow.compare (h₀ : db₀.NoPools) (hr : Run (step dist) db₀ tr s) {poolId : PoolId}
    {row row' : SharedRide} (h : CommittedRow tr s poolId row) (h' : CommittedRow tr s poolId row')
    (hle : row.stateVersion ≤ row'.stateVersion) :
    row' = row ∨ row.stateVersion < row'.stateVersion ∧ Supersedes row' row := by
  obtain ⟨db, hc, hrow⟩ := h
  obtain ⟨db', hc', hrow'⟩ := h'
  have hi := poolsInv_of_committed h₀ hr hc
  have hi' := poolsInv_of_committed h₀ hr hc'
  rcases hr.reachable_or_reachable hc hc' with hreach | hreach
  · obtain ⟨row₁, hrow₁, hlater⟩ := later_of_reachable hi hreach poolId row hrow
    obtain rfl := Option.some.inj (hrow'.symm.trans hrow₁)
    exact hlater.imp And.left fun h ↦ ⟨h.1, supersedes_of_reachable hi hreach hrow hrow'⟩
  · obtain ⟨row₁, hrow₁, hlater⟩ := later_of_reachable hi' hreach poolId row' hrow'
    obtain rfl := Option.some.inj (hrow.symm.trans hrow₁)
    exact Or.inl (hlater.resolve_right fun h ↦ absurd h.1 (Nat.not_lt.mpr hle)).1.symm

/-- **The projection of a pool.**

Write any rows of the pool that were ever committed, in any order and each as often as you like: the
hash is the projection of the newest of them, field for field, and the version stored in it does not
decrease as it is written. -/
theorem projection_newest (h₀ : db₀.NoPools) (hr : Run (step dist) db₀ tr s) {poolId : PoolId}
    {rows : List SharedRide} (hrows : ∀ row ∈ rows, CommittedRow tr s poolId row) :
    (∀ newest ∈ rows, (∀ row ∈ rows, row.stateVersion ≤ newest.stateVersion) →
      (projected rows).Shows (some newest)) ∧
    ∀ before after, rows = before ++ after → ∀ v ∈ (projected before).storedVersion,
      ∃ v' ∈ (projected rows).storedVersion, v ≤ v' := by
  have hs : ∀ older ∈ rows, ∀ newer ∈ rows, older.stateVersion < newer.stateVersion →
      Supersedes newer older := by
    intro older ho newer hn hlt
    rcases (hrows older ho).compare h₀ hr (hrows newer hn) hlt.le with rfl | h
    · exact absurd hlt (lt_irrefl _)
    · exact h.2
  have hinj : ∀ a ∈ rows, ∀ b ∈ rows, a.stateVersion = b.stateVersion → a = b := by
    intro a ha b hb h
    rcases (hrows a ha).compare h₀ hr (hrows b hb) h.le with heq | hlt
    · exact heq.symm
    · exact absurd hlt.1 (h ▸ lt_irrefl _)
  refine ⟨fun m hm hle ↦ ?_, fun before after happ v hv ↦ ?_⟩
  · rw [← eq_newest hinj hm hle]
    exact projected_shows hs
  · subst happ
    have hsub : ∀ row ∈ before, row ∈ before ++ after := fun _ ↦ List.mem_append_left _
    have hbefore := projected_shows fun older ho newer hn ↦ hs older (hsub _ ho) newer (hsub _ hn)
    rw [hbefore.storedVersion] at hv
    rw [(projected_shows hs).storedVersion]
    obtain ⟨m, hm, rfl⟩ := Option.mem_map.mp hv
    obtain ⟨m', hm'⟩ := newest_isSome SharedRide.stateVersion
      (List.ne_nil_of_mem (hsub _ (newest_mem hm).1))
    exact ⟨m'.stateVersion, Option.mem_map_of_mem _ hm',
      (newest_mem hm').2 m (hsub _ (newest_mem hm).1)⟩

end Runs

/-- The row of the sample pool, written twice. -/
theorem samplePooled_projection : ∃ row ∈ samplePooled.sharedRides,
    (projected [row, row]).Shows (some row) := by
  have hany : samplePooled.sharedRides.Any fun s ↦ s.rideId = 1 := by decide
  obtain ⟨row, hrow, hid⟩ := hany
  have hstep : step (D := ℕ) (fun _ _ ↦ 0) .empty (.openPool ⟨0, 0⟩ samplePool) samplePooled := rfl
  have hget : samplePooled.sharedRides.get 1 = some row := hid ▸ Table.get_of_mem hrow
  have hrows : ∀ r ∈ [row, row], CommittedRow [(Db.empty, .openPool ⟨0, 0⟩ samplePool)]
      samplePooled 1 r := by
    intro r hr
    have heq : r = row := by simpa using hr
    exact ⟨_, Or.inl rfl, heq ▸ hget⟩
  refine ⟨row, hrow, (projection_newest Db.empty_noPools (.single hstep) hrows).1 row
    List.mem_cons_self fun r hr ↦ ?_⟩
  have heq : r = row := by simpa using hr
  rw [heq]

end Rcab
