import Rcab.Dispatch.Offer
import Rcab.Drivers.State

/-!
# The projection of the guard table

`driver-assignment.projection.ts`: `reconcile` writes the trip of every guard to the hash of its
driver, if there is one, and clears what names a trip from the others.  It reads the guards once and
again before each write; here nothing else writes meanwhile.
-/

namespace Rcab.Dispatch

open Drivers

abbrev StateStore := StateKey → StateValue

/-- A command met a key that holds no hash. -/
inductive RedisError where
  | wrongType
deriving DecidableEq, Repr

/-- `HGET key current_ride_id`. -/
def hgetCurrentRide (redis : StateStore) (key : StateKey) : Except RedisError (Option String) :=
  match redis key with
  | .hash fields => .ok (fields.lookup .currentRideId)
  | .notAHash => .error .wrongType

/-- `projectCurrentRide`, the script `SET_IF_PRESENT`. -/
def projectCurrentRide (redis : StateStore) (key : StateKey) (trip : String) :
    Except RedisError (StateStore × Bool) :=
  match redis key with
  | .hash fields =>
      if fields ≠ ∅ then
        .ok (Function.update redis key (.hash (fields.insert .currentRideId trip)), true)
      else .ok (redis, false)
  | .notAHash => .error .wrongType

/-- `clearCurrentRide`, the script `CLEAR_IF_MATCH`. -/
def clearCurrentRide (redis : StateStore) (key : StateKey) (trip : String) :
    Except RedisError (StateStore × Bool) :=
  match redis key with
  | .hash fields =>
      if fields.lookup .currentRideId = some trip then
        .ok (Function.update redis key (.hash (fields.erase .currentRideId)), true)
      else .ok (redis, false)
  | .notAHash => .error .wrongType

/-- `tripId`, as text. -/
def tripId (trip : TripRef) : String := toString trip.id

/-- `expected.get(driverId)`, of the guards read first; another suffix names no driver. -/
def expected (db : Db) : StateKey → Option String
  | .driver id => (db.driverActiveAssignment.get id).map fun g ↦ tripId g.trip
  | .other _ => none

/-- The guard as it is now. -/
def stillAssigned (db : Db) (key : StateKey) (trip : String) : Bool :=
  match key with
  | .driver id => (db.driverActiveAssignment.get id).any fun fresh ↦ tripId fresh.trip = trip
  | .other _ => false

/-- The loop over the guards; what throws ends it. -/
def projectGuards (db : Db) :
    List DriverActiveAssignment → StateStore → Nat → Except RedisError (StateStore × Nat)
  | [], redis, projected => .ok (redis, projected)
  | g :: guards, redis, projected =>
      match hgetCurrentRide redis (.driver g.driverId) with
      | .error e => .error e
      | .ok current =>
          if current = some (tripId g.trip) then projectGuards db guards redis projected
          else if ¬ stillAssigned db (.driver g.driverId) (tripId g.trip) then
            projectGuards db guards redis projected
          else match projectCurrentRide redis (.driver g.driverId) (tripId g.trip) with
            | .error e => .error e
            | .ok (redis, written) =>
                projectGuards db guards redis (if written then projected + 1 else projected)

/-- The loop over the keys that `SCAN` returned; those that hold no hash are passed over. -/
def clearScanned (first db : Db) :
    List StateKey → StateStore → Nat → Except RedisError (StateStore × Nat)
  | [], redis, cleared => .ok (redis, cleared)
  | key :: keys, redis, cleared =>
      match hgetCurrentRide redis key with
      | .error _ => clearScanned first db keys redis cleared
      | .ok none => clearScanned first db keys redis cleared
      | .ok (some current) =>
          -- the empty text counts as none
          if current = "" ∨ expected first key = some current then
            clearScanned first db keys redis cleared
          else if stillAssigned db key current then clearScanned first db keys redis cleared
          else match clearCurrentRide redis key current with
            | .error e => .error e
            | .ok (redis, written) =>
                clearScanned first db keys redis (if written then cleared + 1 else cleared)

structure Reconciled where
  projected : Nat
  cleared : Nat
  expiredOffers : Nat
deriving DecidableEq, Repr

/-- `reconcile`; `scanned` are the keys the pages of `SCAN` return, one after the other. -/
def reconcile (t : TxClock) (locked : List OfferId) (db : Db) (redis : StateStore)
    (scanned : List StateKey) : Db × Except RedisError (StateStore × Reconciled) :=
  let (db, expiredOffers) := expireLapsed t db locked
  match projectGuards db db.driverActiveAssignment.rows redis 0 with
  | .error e => (db, .error e)
  | .ok (redis, projected) =>
      match clearScanned db db scanned redis 0 with
      | .error e => (db, .error e)
      | .ok (redis, cleared) => (db, .ok (redis, ⟨projected, cleared, expiredOffers⟩))

/-! ## What a key holds afterwards -/

/-- What the key of a driver is to hold: the trip, in a hash that is there. -/
def settle (want : Option String) : StateValue → StateValue
  | .hash fields =>
      if fields = ∅ then .hash fields
      else match want with
        | some trip => .hash (fields.insert .currentRideId trip)
        | none => .hash (fields.erase .currentRideId)
  | .notAHash => .notAHash

/-- What clearing leaves of it. -/
def clear (want : Option String) : StateValue → StateValue
  | .hash fields =>
      match fields.lookup .currentRideId with
      | some current =>
          if current = "" ∨ want = some current then .hash fields
          else .hash (fields.erase .currentRideId)
      | none => .hash fields
  | .notAHash => .notAHash

section Settle

variable {want : Option String} {fields : StateHash} {value : StateValue} {trip : String}

theorem insert_lookup (h : fields.lookup .currentRideId = some trip) :
    fields.insert .currentRideId trip = fields := by
  refine Finmap.ext_lookup fun f ↦ ?_
  by_cases hf : f = .currentRideId
  · rw [hf, Finmap.lookup_insert, h]
  · rw [Finmap.lookup_insert_of_ne _ hf]

theorem erase_of_lookup_none (h : fields.lookup .currentRideId = none) :
    fields.erase .currentRideId = fields := by
  refine Finmap.ext_lookup fun f ↦ ?_
  by_cases hf : f = .currentRideId
  · rw [hf, Finmap.lookup_erase, h]
  · rw [Finmap.lookup_erase_ne hf]

theorem insert_ne_empty (fields : StateHash) (trip : String) :
    fields.insert .currentRideId trip ≠ ∅ := by
  intro h
  have hlookup := Finmap.lookup_insert (a := StateField.currentRideId) (b := trip) fields
  rw [h, Finmap.lookup_empty] at hlookup
  cases hlookup

theorem ne_empty_of_lookup (h : fields.lookup .currentRideId = some trip) : fields ≠ ∅ := by
  rintro rfl
  rw [Finmap.lookup_empty] at h
  cases h

/-- Settling twice is settling once. -/
theorem settle_settle : settle want (settle want value) = settle want value := by
  cases value with
  | notAHash => rfl
  | hash fields =>
    by_cases h : fields = ∅
    · simp only [settle, if_pos h]
    · cases want with
      | some trip =>
        simp only [settle, if_neg h, if_neg (insert_ne_empty fields trip), Finmap.insert_insert]
      | none =>
        simp only [settle, if_neg h]
        split_ifs
        · rfl
        · rw [erase_of_lookup_none (Finmap.lookup_erase _ _)]

/-- There is nothing to clear where the trip was written. -/
theorem clear_settle : clear (some trip) (settle (some trip) value) = settle (some trip) value := by
  cases value with
  | notAHash => rfl
  | hash fields =>
    by_cases h : fields = ∅
    · simp only [settle, h, if_true, clear, Finmap.lookup_empty]
    · simp only [settle, if_neg h, clear, Finmap.lookup_insert, or_true, if_true]

/-- Where no trip is to be, clearing settles. -/
theorem clear_none (hne : ∀ fields, value = .hash fields → fields.lookup .currentRideId ≠ some "") :
    clear none value = settle none value := by
  cases value with
  | notAHash => rfl
  | hash fields =>
    cases h : fields.lookup .currentRideId with
    | none => simp only [clear, settle, h, erase_of_lookup_none h, ite_self]
    | some current =>
      have hcurrent : current ≠ "" := fun he ↦ hne fields rfl (he ▸ h)
      simp only [clear, settle, h, if_neg (ne_empty_of_lookup h), hcurrent, reduceCtorEq, or_self,
        if_false]

theorem clear_clear : clear want (clear want value) = clear want value := by
  cases value with
  | notAHash => rfl
  | hash fields =>
    cases h : fields.lookup .currentRideId with
    | none => simp only [clear, h]
    | some current =>
      by_cases hc : current = "" ∨ want = some current
      · simp only [clear, h, if_pos hc]
      · simp only [clear, h, if_neg hc, Finmap.lookup_erase]

theorem settle_ne_notAHash (h : value ≠ .notAHash) : settle want value ≠ .notAHash := by
  cases value with
  | notAHash => exact absurd rfl h
  | hash fields =>
    cases want <;> simp only [settle] <;> split_ifs <;> exact StateValue.noConfusion

/-- A hash that is there has what was wanted. -/
theorem lookup_of_settle (h : settle want value = .hash fields) (hne : fields ≠ ∅) :
    fields.lookup .currentRideId = want := by
  cases value with
  | notAHash => cases h
  | hash fields' =>
    by_cases hempty : fields' = ∅
    · simp only [settle, if_pos hempty] at h
      exact absurd (StateValue.hash.inj h ▸ hempty) hne
    · cases want with
      | some trip =>
        simp only [settle, if_neg hempty] at h
        rw [← StateValue.hash.inj h, Finmap.lookup_insert]
      | none =>
        simp only [settle, if_neg hempty] at h
        rw [← StateValue.hash.inj h, Finmap.lookup_erase]

/-- The other fields are left alone. -/
theorem lookup_settle_ne (want : Option String) (fields : StateHash) :
    ∃ fields', settle want (.hash fields) = .hash fields' ∧
      ∀ f, f ≠ .currentRideId → fields'.lookup f = fields.lookup f := by
  by_cases hempty : fields = ∅
  · exact ⟨fields, by simp only [settle, if_pos hempty], fun _ _ ↦ rfl⟩
  · cases want with
    | some trip =>
      exact ⟨fields.insert .currentRideId trip, by simp only [settle, if_neg hempty],
        fun f hf ↦ Finmap.lookup_insert_of_ne _ hf⟩
    | none =>
      exact ⟨fields.erase .currentRideId, by simp only [settle, if_neg hempty],
        fun f hf ↦ Finmap.lookup_erase_ne hf⟩

end Settle

/-! ## The loops -/

section Loops

variable {db : Db} {redis : StateStore}

theorem expected_of_mem {g : DriverActiveAssignment} (hg : g ∈ db.driverActiveAssignment) :
    expected db (.driver g.driverId) = some (tripId g.trip) := by
  rw [expected, Table.get_of_mem hg]
  rfl

theorem stillAssigned_iff {key : StateKey} {trip : String} :
    stillAssigned db key trip = true ↔ expected db key = some trip := by
  cases key with
  | driver id =>
    simp only [stillAssigned, expected, Option.any_eq_true, decide_eq_true_iff, Option.map_eq_some_iff]
  | other => simp [stillAssigned, expected]

/-- The key settled. -/
def settleAt (db : Db) (redis : StateStore) (key : StateKey) : StateStore :=
  Function.update redis key (settle (expected db key) (redis key))

theorem settleAt_eq_self {key : StateKey}
    (h : settle (expected db key) (redis key) = redis key) : settleAt db redis key = redis := by
  rw [settleAt, h, Function.update_eq_self]

theorem settleAt_ne {key key' : StateKey} (h : redis key' ≠ .notAHash) :
    settleAt db redis key key' ≠ .notAHash := by
  by_cases hkey : key' = key
  · subst hkey
    rw [settleAt, Function.update_self]
    exact settle_ne_notAHash h
  · rwa [settleAt, Function.update_of_ne hkey]

/-- A turn of the loop over the guards settles the key of its driver. -/
theorem projectGuards_cons {g : DriverActiveAssignment} (guards : List DriverActiveAssignment)
    {fields : StateHash} (n : ℕ) (hg : g ∈ db.driverActiveAssignment)
    (hfields : redis (.driver g.driverId) = .hash fields) :
    ∃ n', projectGuards db (g :: guards) redis n =
      projectGuards db guards (settleAt db redis (.driver g.driverId)) n' := by
  have hwant := expected_of_mem hg
  have hstill : stillAssigned db (.driver g.driverId) (tripId g.trip) = true :=
    stillAssigned_iff.mpr hwant
  have hget : hgetCurrentRide redis (.driver g.driverId) = .ok (fields.lookup .currentRideId) := by
    rw [hgetCurrentRide, hfields]
  simp only [projectGuards, hget, hstill, not_true_eq_false, if_false]
  by_cases hcurrent : fields.lookup .currentRideId = some (tripId g.trip)
  · refine ⟨n, ?_⟩
    rw [if_pos hcurrent, settleAt_eq_self]
    rw [hfields, hwant]
    simp only [settle, insert_lookup hcurrent, ite_self]
  · rw [if_neg hcurrent, projectCurrentRide, hfields]
    by_cases hempty : fields = ∅
    · refine ⟨n, ?_⟩
      rw [settleAt_eq_self]
      · simp [hempty]
      · rw [hfields, hwant]
        simp only [settle, if_pos hempty]
    · refine ⟨n + 1, ?_⟩
      simp only [ne_eq, hempty, not_false_eq_true, if_true, settleAt, hfields, hwant, settle,
        if_false]

/-- A turn of the loop over the scanned keys clears its key. -/
theorem clearScanned_cons (db : Db) (redis : StateStore) (key : StateKey) (keys : List StateKey)
    (n : ℕ) :
    ∃ n', clearScanned db db (key :: keys) redis n = clearScanned db db keys
      (Function.update redis key (clear (expected db key) (redis key))) n' := by
  have hself : ∀ {value : StateValue}, redis key = value → clear (expected db key) value = value →
      Function.update redis key (clear (expected db key) (redis key)) = redis := by
    intro value hvalue hclear
    rw [hvalue, hclear, ← hvalue, Function.update_eq_self]
  cases hvalue : redis key with
  | notAHash =>
    refine ⟨n, ?_⟩
    rw [← hvalue, hself hvalue rfl]
    simp only [clearScanned, hgetCurrentRide, hvalue]
  | hash fields =>
    rw [← hvalue]
    cases hcurrent : fields.lookup .currentRideId with
    | none =>
      refine ⟨n, ?_⟩
      rw [hself hvalue (by simp only [clear, hcurrent])]
      simp only [clearScanned, hgetCurrentRide, hvalue, hcurrent]
    | some current =>
      by_cases hkeep : current = "" ∨ expected db key = some current
      · refine ⟨n, ?_⟩
        rw [hself hvalue (by simp only [clear, hcurrent, if_pos hkeep])]
        simp only [clearScanned, hgetCurrentRide, hvalue, hcurrent, if_pos hkeep]
      · refine ⟨n + 1, ?_⟩
        have hstill : stillAssigned db key current = false :=
          eq_false_of_ne_true fun h ↦ hkeep (Or.inr (stillAssigned_iff.mp h))
        simp only [clearScanned, hgetCurrentRide, clearCurrentRide, hvalue, hcurrent, if_neg hkeep,
          hstill, Bool.false_eq_true, if_false, if_true, clear]

/-- The loop over the guards settles the keys of their drivers. -/
theorem projectGuards_eq {db : Db} (guards : List DriverActiveAssignment) :
    ∀ (redis : StateStore) (n : ℕ), (∀ g ∈ guards, g ∈ db.driverActiveAssignment) →
      (∀ g ∈ guards, redis (.driver g.driverId) ≠ .notAHash) →
      ∃ redis' n', projectGuards db guards redis n = .ok (redis', n') ∧
        ∀ key, redis' key = if key ∈ guards.map (fun g ↦ .driver g.driverId) then
          settle (expected db key) (redis key) else redis key := by
  induction guards with
  | nil => exact fun redis n _ _ ↦ ⟨redis, n, rfl, fun _ ↦ rfl⟩
  | cons g guards ih =>
    intro redis n hmem hhash
    have hg := hmem g List.mem_cons_self
    have hwant := expected_of_mem hg
    obtain ⟨fields, hfields⟩ : ∃ fields, redis (.driver g.driverId) = .hash fields := by
      cases h : redis (.driver g.driverId) with
      | hash fields => exact ⟨fields, rfl⟩
      | notAHash => exact absurd h (hhash g List.mem_cons_self)
    obtain ⟨n', hturn⟩ := projectGuards_cons guards n hg hfields
    rw [hturn]
    obtain ⟨redis', m, hrun, hkeys⟩ := ih _ n' (fun g' h ↦ hmem g' (List.mem_cons_of_mem _ h))
      fun g' h ↦ settleAt_ne (hhash g' (List.mem_cons_of_mem _ h))
    refine ⟨redis', m, hrun, fun key ↦ ?_⟩
    rw [hkeys, settleAt, List.map_cons]
    by_cases hkey : key = .driver g.driverId
    · subst hkey
      rw [Function.update_self, settle_settle, ite_self, if_pos List.mem_cons_self]
    · rw [Function.update_of_ne hkey]
      simp only [List.mem_cons, hkey, false_or]

/-- The loop over the scanned keys clears them. -/
theorem clearScanned_eq (db : Db) (keys : List StateKey) : ∀ (redis : StateStore) (n : ℕ),
    ∃ redis' n', clearScanned db db keys redis n = .ok (redis', n') ∧
      ∀ key, redis' key = if key ∈ keys then clear (expected db key) (redis key)
        else redis key := by
  induction keys with
  | nil => exact fun redis n ↦ ⟨redis, n, rfl, fun _ ↦ rfl⟩
  | cons k keys ih =>
    intro redis n
    obtain ⟨n', hturn⟩ := clearScanned_cons db redis k keys n
    rw [hturn]
    obtain ⟨redis', m, hrun, hkeys⟩ := ih _ n'
    refine ⟨redis', m, hrun, fun key ↦ ?_⟩
    rw [hkeys]
    by_cases hkey : key = k
    · subst hkey
      rw [Function.update_self, clear_clear, ite_self, if_pos List.mem_cons_self]
    · rw [Function.update_of_ne hkey]
      simp only [List.mem_cons, hkey, false_or]

end Loops

/-! ## The pass -/

theorem expected_expireLapsed (t : TxClock) (db : Db) (locked : List OfferId) (key : StateKey) :
    expected (expireLapsed t db locked).1 key = expected db key := rfl

theorem expected_reconcile (t : TxClock) (locked : List OfferId) (db : Db) (redis : StateStore)
    (scanned : List StateKey) (key : StateKey) :
    expected (reconcile t locked db redis scanned).1 key = expected db key := by
  have hdb : (reconcile t locked db redis scanned).1 = (expireLapsed t db locked).1 := by
    simp only [reconcile]
    split
    · rfl
    · split <;> rfl
  rw [hdb, expected_expireLapsed]

theorem expected_ne_empty (db : Db) (key : StateKey) : expected db key ≠ some "" := by
  cases key with
  | driver id =>
    intro h
    obtain ⟨g, -, hg⟩ := Option.map_eq_some_iff.mp h
    exact Nat.repr_ne_empty hg
  | other =>
    intro h
    cases h

theorem mem_of_expected {db : Db} {key : StateKey} {trip : String}
    (h : expected db key = some trip) :
    key ∈ db.driverActiveAssignment.rows.map (fun g ↦ .driver g.driverId) := by
  cases key with
  | driver id =>
    obtain ⟨g, hg, -⟩ := Option.map_eq_some_iff.mp h
    obtain ⟨hmem, rfl⟩ := Table.get_eq_some.mp hg
    exact List.mem_map.mpr ⟨g, hmem, rfl⟩
  | other => cases h

/-- A pass settles every key that holds a hash, if the scan returns them all. -/
theorem reconcile_eq (t : TxClock) (locked : List OfferId) (db : Db) {redis : StateStore}
    {scanned : List StateKey} (hhash : ∀ id, redis (.driver id) ≠ .notAHash)
    (hne : ∀ key fields, redis key = .hash fields → fields.lookup .currentRideId ≠ some "")
    (hscan : ∀ key, redis key ≠ .hash ∅ → key ∈ scanned) :
    ∃ redis' stats, (reconcile t locked db redis scanned).2 = .ok (redis', stats) ∧
      ∀ key, redis' key = settle (expected db key) (redis key) := by
  obtain ⟨redis₁, n₁, hproject, h₁⟩ := projectGuards_eq
    (expireLapsed t db locked).1.driverActiveAssignment.rows redis 0 (fun _ h ↦ h)
    fun g _ ↦ hhash g.driverId
  obtain ⟨redis₂, n₂, hclear, h₂⟩ := clearScanned_eq (expireLapsed t db locked).1 scanned
    redis₁ 0
  refine ⟨redis₂, ⟨n₁, n₂, (expireLapsed t db locked).2⟩, ?_, fun key ↦ ?_⟩
  · simp only [reconcile, hproject, hclear]
  · have hkey : redis₁ key = if key ∈ db.driverActiveAssignment.rows.map (fun g ↦ .driver g.driverId)
        then settle (expected db key) (redis key) else redis key := h₁ key
    rw [h₂, expected_expireLapsed]
    cases hwant : expected db key with
    | some trip =>
      have hmem : key ∈ db.driverActiveAssignment.rows.map (fun g ↦ .driver g.driverId) :=
        mem_of_expected hwant
      rw [hkey, if_pos hmem, hwant, clear_settle, ite_self]
    | none =>
      have hmem : key ∉ db.driverActiveAssignment.rows.map (fun g ↦ .driver g.driverId) := by
        intro hmem
        obtain ⟨g, hg, rfl⟩ := List.mem_map.mp hmem
        rw [expected_of_mem hg] at hwant
        cases hwant
      rw [hkey, if_neg hmem]
      by_cases hs : key ∈ scanned
      · rw [if_pos hs, clear_none fun fields hf ↦ hne key fields hf]
      · have hmissing : redis key = .hash ∅ := not_not.mp fun h ↦ hs (hscan key h)
        rw [if_neg hs, hmissing]
        simp only [settle, if_true]

/-- **A pass over the projection.**

Whatever the hashes held, each that is there afterwards has the trip its driver's guard binds, and
none when there is no guard.  No hash was made and no other field changed, and another pass changes
nothing. -/
theorem reconcile_projects (t : TxClock) (locked : List OfferId) (db : Db) {redis : StateStore}
    {scanned : List StateKey} (hhash : ∀ id, redis (.driver id) ≠ .notAHash)
    (hne : ∀ key fields, redis key = .hash fields → fields.lookup .currentRideId ≠ some "")
    (hscan : ∀ key, redis key ≠ .hash ∅ → key ∈ scanned) :
    ∃ redis' stats, (reconcile t locked db redis scanned).2 = .ok (redis', stats) ∧
      (∀ id fields, redis' (.driver id) = .hash fields → fields ≠ ∅ →
        fields.lookup .currentRideId =
          (db.driverActiveAssignment.get id).map fun g ↦ tripId g.trip) ∧
      (∀ suffix fields, redis' (.other suffix) = .hash fields →
        fields.lookup .currentRideId = none) ∧
      (∀ key, redis key = .hash ∅ → redis' key = .hash ∅) ∧
      (∀ key fields, redis key = .hash fields → ∃ fields', redis' key = .hash fields' ∧
        ∀ f, f ≠ .currentRideId → fields'.lookup f = fields.lookup f) ∧
      (∀ suffix, redis (.other suffix) = .notAHash → redis' (.other suffix) = .notAHash) ∧
      ∀ t' locked' scanned', (∀ key, redis' key ≠ .hash ∅ → key ∈ scanned') →
        ∃ stats', (reconcile t' locked' (reconcile t locked db redis scanned).1 redis'
          scanned').2 = .ok (redis', stats') := by
  obtain ⟨redis', stats, hrun, hkeys⟩ := reconcile_eq t locked db hhash hne hscan
  have hfields : ∀ key fields, redis' key = .hash fields → fields ≠ ∅ →
      fields.lookup .currentRideId = expected db key := by
    intro key fields hf hempty
    have hsettled := hkeys key
    rw [hf] at hsettled
    exact lookup_of_settle hsettled.symm hempty
  have hhash' : ∀ id, redis' (.driver id) ≠ .notAHash := by
    intro id
    rw [hkeys]
    exact settle_ne_notAHash (hhash id)
  have hne' : ∀ key fields, redis' key = .hash fields →
      fields.lookup .currentRideId ≠ some "" := by
    intro key fields hf hlookup
    have hwant := hfields key fields hf (ne_empty_of_lookup hlookup)
    exact expected_ne_empty db key (hwant.symm.trans hlookup)
  refine ⟨redis', stats, hrun, fun id ↦ hfields (.driver id), fun suffix fields hf ↦ ?_,
    fun key hk ↦ ?_, fun key fields hf ↦ ?_, fun suffix hs ↦ ?_, fun t' locked' scanned' hscan' ↦ ?_⟩
  · by_cases hempty : fields = ∅
    · rw [hempty, Finmap.lookup_empty]
    · exact hfields _ fields hf hempty
  · rw [hkeys, hk]
    simp only [settle, if_true]
  · rw [hkeys, hf]
    exact lookup_settle_ne _ fields
  · rw [hkeys, hs]
    rfl
  · have hdb : ∀ key, expected (reconcile t locked db redis scanned).1 key = expected db key :=
      expected_reconcile t locked db redis scanned
    obtain ⟨redis₂, stats₂, hrun₂, hkeys₂⟩ := reconcile_eq t' locked'
      (reconcile t locked db redis scanned).1 hhash' hne' hscan'
    have hsame : redis₂ = redis' := by
      funext key
      rw [hkeys₂, hdb, hkeys, settle_settle]
    exact ⟨stats₂, hsame ▸ hrun₂⟩

/-- A driver whose hash lost its trip, and one whose hash names a trip that is over. -/
def sampleStore : StateStore
  | .driver 1 => .hash (Finmap.singleton .availability "online")
  | .driver 2 => .hash (Finmap.singleton .currentRideId "9")
  | _ => .hash ∅

/-- The first of them is bound. -/
def sampleGuards : Db :=
  { Db.empty with driverActiveAssignment := Table.empty.insert ⟨1, .solo 7, none, 1, 0⟩ }

theorem sampleStore_reconciled : ∃ redis' stats,
    (reconcile ⟨0, 0⟩ [] sampleGuards sampleStore [.driver 2, .driver 1, .driver 2]).2 =
      .ok (redis', stats) ∧
    ∀ fields, redis' (.driver 1) = .hash fields → fields ≠ ∅ →
      fields.lookup .currentRideId = some "7" := by
  have hhash : ∀ id, sampleStore (.driver id) ≠ .notAHash := by
    intro id
    rw [sampleStore.eq_def]
    split <;> exact StateValue.noConfusion
  have hne : ∀ key fields, sampleStore key = .hash fields →
      fields.lookup .currentRideId ≠ some "" := by
    intro key fields hf
    rw [sampleStore.eq_def] at hf
    split at hf <;> rw [← StateValue.hash.inj hf] <;> decide
  have hscan : ∀ key, sampleStore key ≠ .hash ∅ →
      key ∈ [StateKey.driver 2, .driver 1, .driver 2] := by
    intro key hk
    rw [sampleStore.eq_def] at hk
    split at hk
    · decide
    · decide
    · exact absurd rfl hk
  obtain ⟨redis', stats, hrun, hdrivers, -⟩ :=
    reconcile_projects ⟨0, 0⟩ [] sampleGuards hhash hne hscan
  exact ⟨redis', stats, hrun, fun fields hf hempty ↦ (hdrivers 1 fields hf hempty).trans rfl⟩

end Rcab.Dispatch
