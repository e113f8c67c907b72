import Rcab.Seats.OneSeat

/-!
# The fingerprint of a key's seat

A key is meant for one intent: whoever is told of its seat asked for that seat, and the
record of the key carries the fingerprint of the request that produced it.

An attempt can outlive its claim.  Another attempt with the same fingerprint reclaims the
stale record, fails and releases it; a request with another intent then claims the key
afresh, while the first attempt is still under way.  `completeIn` goes by scope alone, so
the late seat completes the other intent's record (`sampleOutlived_breaks`).

`Event.Held` is what keeps the law: a seat transaction finds the record completed or under
its own fingerprint, and a look-up does not find it completed under another one.
-/

universe u

namespace Rcab

open Rides Matching

variable {db db' : Db} {r : SharedRequest} {new : Option PoolMember}
  {completed : Option CreateRideResponse}

/-- The phases of `findOrCreatePool` whose statement is a seat transaction. -/
def Rides.Phase.Seating : Phase → Prop
  | .join (_ :: _) | .openPool => True
  | _ => False

instance : DecidablePred Phase.Seating := fun phase ↦ by
  unfold Phase.Seating
  split <;> infer_instance

/-- The phases of `existingSharedSeat` that look for a seat. -/
def Rides.Phase.LookingUp : Phase → Prop
  | .lookup _ | .lookupSeat _ => True
  | _ => False

instance : DecidablePred Phase.LookingUp
  | .lookup _ | .lookupSeat _ => inferInstanceAs (Decidable True)
  | .insert | .reclaim | .read | .complete .. | .candidates | .join _ | .openPool | .findSeat _
  | .release _ | .succeeded _ | .failed _ | .crashed => inferInstanceAs (Decidable False)

/-- The statement takes effect. -/
def Rides.Fault.Commits : Fault → Prop
  | .none | .failed true | .crashed true => True
  | _ => False

instance : DecidablePred Fault.Commits := fun fault ↦ by
  unfold Fault.Commits
  split <;> infer_instance

/-- The key's record is there, completed or under the request's own fingerprint. -/
def Claimed (db : Db) (r : SharedRequest) : Prop :=
  ∃ rec ∈ find db r.scope, rec.state = .completed ∨ rec.requestFingerprint = r.fingerprint

instance : Decidable (Claimed db r) :=
  inferInstanceAs (Decidable (∃ rec ∈ find db r.scope,
    rec.state = .completed ∨ rec.requestFingerprint = r.fingerprint))

/-- The key's record is not completed under another fingerprint. -/
def NotForeign (db : Db) (r : SharedRequest) : Prop :=
  ∀ rec ∈ find db r.scope, rec.state = .completed → rec.requestFingerprint = r.fingerprint

instance : Decidable (NotForeign db r) :=
  inferInstanceAs (Decidable (∀ rec ∈ find db r.scope, rec.state = .completed →
    rec.requestFingerprint = r.fingerprint))

/-- No attempt has outlived its claim where that matters. -/
def Event.Held (w : World) : Event → Prop
  | .run i env => ∀ p ∈ w.requests i,
      (p.2.Seating → env.fault.Commits → Claimed w.db p.1) ∧
        (p.2.LookingUp → env.fault = .none → NotForeign w.db p.1)
  | _ => True

instance {w : World} : DecidablePred (Event.Held w)
  | .run i env => inferInstanceAs (Decidable (∀ p ∈ w.requests i,
      (p.2.Seating → env.fault.Commits → Claimed w.db p.1) ∧
        (p.2.LookingUp → env.fault = .none → NotForeign w.db p.1)))
  | .arrive .. | .other _ => inferInstanceAs (Decidable True)

section Law

variable {D : Type u} [LinearOrder D] (dist : Point → Point → D)

/-- In the trace, an attempt of `r` inserted its seat, in that pool. -/
def Inserted (tr : List (World × Event)) (r : SharedRequest) (poolId : PoolId) : Prop :=
  ∃ w i env phase, (w, Event.run i env) ∈ tr ∧ w.requests i = some (r, phase) ∧
    (w.effect dist i env).seat = some poolId

/-- One intent for each key. -/
structure FingerprintLaw (tr : List (World × Event)) (w : World) : Prop where
  /-- A success goes to the fingerprint that inserted the key's seat. -/
  success : ∀ i r response r' poolId, w.requests i = some (r, .succeeded response) →
    Inserted dist tr r' poolId → r'.scope = r.scope → r.fingerprint = r'.fingerprint
  /-- A completed record carries the fingerprint of the request whose seat its response
  describes. -/
  record : ∀ s rec, find w.db s = some rec → rec.state = .completed → ∃ response,
    rec.response = some response ∧
      (∃ r, Inserted dist tr r response.sharedRideId ∧ r.scope = s) ∧
      ∀ r poolId, Inserted dist tr r poolId → r.scope = s → rec.requestFingerprint = r.fingerprint
  /-- A committed seat has its completed record. -/
  seat : ∀ m ∈ w.db.poolMember, ∀ k, m.idempotencyKey = some k → ∃ rec,
    find w.db ⟨m.passengerId, .shared, k⟩ = some rec ∧ rec.state = .completed

end Law

/-! ## One statement -/

/-- The key's record is completed, under the request's own fingerprint. -/
def CompletedOwn (db : Db) (r : SharedRequest) : Prop :=
  ∃ rec, find db r.scope = some rec ∧ rec.state = .completed ∧
    rec.requestFingerprint = r.fingerprint

/-- Every keyed seat has its completed record. -/
def SeatsRecorded (db : Db) : Prop :=
  ∀ m ∈ db.poolMember, ∀ k, m.idempotencyKey = some k → ∃ rec,
    find db ⟨m.passengerId, .shared, k⟩ = some rec ∧ rec.state = .completed

/-- What a request in a phase knows of its record.  The seat in a duplicate's pool is never
asked for: the key's own seat is found first. -/
def PhaseOwn (db : Db) (r : SharedRequest) : Phase → Prop
  | .complete _ _ | .succeeded _ => CompletedOwn db r
  | .findSeat _ => False
  | _ => True

theorem CompletedOwn.mono {scope : IdempotencyScope} (h : CompletedOwn db r)
    (hs : RecordStep scope completed db.idempotencyRecord db'.idempotencyRecord) :
    CompletedOwn db' r := by
  obtain ⟨rec, hrec, hc, hf⟩ := h
  obtain ⟨rec', hrec', hc', hf'⟩ := hs.kept _ rec hrec hc
  exact ⟨rec', hrec', hc', hf'.trans hf⟩

theorem PhaseOwn.mono {scope : IdempotencyScope} {phase : Phase} (h : PhaseOwn db r phase)
    (hs : RecordStep scope completed db.idempotencyRecord db'.idempotencyRecord) :
    PhaseOwn db' r phase := by
  cases phase with
  | complete response tries => exact CompletedOwn.mono h hs
  | succeeded response => exact CompletedOwn.mono h hs
  | findSeat poolId => exact h.elim
  | _ => trivial

theorem PhaseOwn.onThrow {phase : Phase} (h : PhaseOwn db r phase) :
    PhaseOwn db r phase.onThrow := by
  cases phase with
  | complete response tries =>
      rcases tries with _ | _ | tries
      · exact h
      · exact h
      · exact h
  | succeeded response => exact h
  | findSeat poolId => exact h.elim
  | _ => trivial

/-- A seat found under the key has a completed record, under the request's own fingerprint
unless under another one. -/
theorem completedOwn_of_seat {m : PoolMember} (hm : SeatOf db r.passengerId r.key m)
    (hrec : SeatsRecorded db) (hf : NotForeign db r) : CompletedOwn db r := by
  obtain ⟨rec, hfind, hc⟩ := hrec m hm.1 r.key hm.2.2
  rw [hm.2.1] at hfind
  exact ⟨rec, hfind, hc, hf rec hfind hc⟩

/-- A new seat completes the record it found pending under its own fingerprint. -/
theorem Spec.completedOwn {e : Effect} {m : PoolMember} (h : Spec r db e (some m) completed)
    (hr : RecordsOk db) (hc : Claimed db r) : CompletedOwn e.db r := by
  obtain ⟨rec, hfind, hown⟩ := hc
  have hfp : rec.requestFingerprint = r.fingerprint := by
    rcases hown with hcomp | hown
    · -- A completed record describes a seat, and the key had none.
      obtain ⟨response, -, m', hm', -⟩ := hr _ rec hfind hcomp
      exact absurd hm' ((h.fresh m rfl).2.2 m')
    · exact hown
  obtain ⟨rec', hfind', hcomp, hfp'⟩ := h.records.done rec (h.completes rfl) hfind
  exact ⟨rec', hfind', hcomp, hfp'.trans hfp⟩

/-- A seat transaction under a claim. -/
theorem Attempt.own {e : Effect} (h : Attempt r db e) (hr : RecordsOk db) (hc : Claimed db r) :
    PhaseOwn e.db r e.phase := by
  rcases h with ⟨completed, h, hu⟩ | ⟨m, completed, response, h, hph⟩
  · cases hph : e.phase with
    | findSeat poolId => rwa [hph] at hu
    | complete response tries => rw [hph] at hu; exact False.elim hu
    | succeeded response => rw [hph] at hu; exact False.elim hu
    | _ => trivial
  · rw [hph]
    exact h.completedOwn hr hc

section Statements

variable {D : Type u} [LinearOrder D] {dist : Point → Point → D} {env : Env}

/-- Only the seat transactions seat. -/
theorem seat_statement {phase : Phase} (h : ¬ phase.Seating) :
    (statement dist env db r phase).seat = none := by
  cases phase with
  | insert => simp only [statement]; split <;> rfl
  | reclaim => simp only [statement]; split <;> rfl
  | read =>
      simp only [statement, readExisting]
      split
      · rfl
      split
      · rfl
      · split <;> rfl
  | lookup onNull => simp only [statement, lookupRecord]; split <;> rfl
  | lookupSeat onNull =>
      simp only [statement, lookupByKey]
      split
      · split <;> rfl
      · split <;> rfl
  | candidates => simp only [statement]; split <;> rfl
  | join candidates =>
      cases candidates with
      | nil => rfl
      | cons poolId rest => exact absurd trivial h
  | openPool => exact absurd trivial h
  | findSeat poolId =>
      simp only [statement]
      split
      · rfl
      · split <;> rfl
  | _ => rfl

theorem seat_statementFaulty {phase : Phase} {poolId : PoolId}
    (h : (statementFaulty dist env db r phase).seat = some poolId) :
    phase.Seating ∧ env.fault.Commits := by
  by_cases hs : phase.Seating
  · refine ⟨hs, ?_⟩
    unfold statementFaulty at h
    dsimp only at h
    split at h
    · rename_i hf; rw [hf]; trivial
    · rename_i hf; rw [hf]; trivial
    · cases h
    · rename_i hf; rw [hf]; trivial
    · cases h
  · have hnone : (statement dist env db r phase).seat = none := seat_statement hs
    unfold statementFaulty at h
    dsimp only at h
    split at h <;> simp_all

/-- A statement of a request that holds its claim. -/
theorem own_statement {phase : Phase} (hi : SeatInv db) (hr : RecordsOk db)
    (hp : PhaseOk db r phase) (hrec : SeatsRecorded db) (ho : PhaseOwn db r phase)
    (hclaim : phase.Seating → Claimed db r) (hlook : phase.LookingUp → NotForeign db r) :
    PhaseOwn (statement dist env db r phase).db r (statement dist env db r phase).phase := by
  cases phase with
  | insert => simp only [statement]; split <;> trivial
  | reclaim => simp only [statement]; split <;> trivial
  | read =>
      simp only [statement, readExisting]
      split
      · trivial
      rename_i rec hfind
      split
      · trivial
      rename_i hfp
      split
      · rename_i response hc _
        exact ⟨rec, hfind, hc, not_not.mp hfp⟩
      · trivial
  | lookup onNull =>
      simp only [statement, lookupRecord]
      split
      · rename_i hfind
        exact ⟨_, hfind, rfl, hlook trivial _ hfind rfl⟩
      · trivial
  | lookupSeat onNull =>
      simp only [statement, lookupByKey]
      split
      · rename_i seat hfind
        split
        · obtain ⟨m, hm, -⟩ := Option.bind_eq_some_iff.mp hfind
          have hkey := List.find?_some hm
          simp only [decide_eq_true_eq] at hkey
          exact completedOwn_of_seat ⟨List.mem_of_find?_eq_some hm, hkey⟩ hrec (hlook trivial)
        · trivial
      · rename_i hnone
        cases onNull with
        | allocate => trivial
        | findSeat poolId =>
            -- The duplicate was the key's own seat, which is found by its key.
            obtain ⟨m, hm, -⟩ := hp
            obtain ⟨hfound, hsome⟩ := findByIdempotencyKey_of_seatOf hi hm
            rw [← hfound, hnone] at hsome
            cases hsome
  | complete response tries => exact CompletedOwn.mono ho recordStep_completeIn
  | candidates => simp only [statement]; split <;> trivial
  | join candidates =>
      cases candidates with
      | nil => trivial
      | cons poolId rest => exact (attempt_tryJoin hi).own hr (hclaim trivial)
  | openPool => exact (attempt_tryOpen hi).own hr (hclaim trivial)
  | findSeat poolId => exact ho.elim
  | release error => trivial
  | succeeded response => exact ho
  | failed error => trivial
  | crashed => trivial

variable (dist) in
/-- A statement and what befalls it, of a request that holds its claim. -/
theorem own_statementFaulty {phase : Phase} (hi : SeatInv db) (hr : RecordsOk db)
    (hp : PhaseOk db r phase) (hrec : SeatsRecorded db) (ho : PhaseOwn db r phase)
    (hclaim : phase.Seating → env.fault.Commits → Claimed db r)
    (hlook : phase.LookingUp → env.fault = .none → NotForeign db r) :
    PhaseOwn (statementFaulty dist env db r phase).db r
      (statementFaulty dist env db r phase).phase := by
  obtain ⟨_, _, h⟩ := spec_statement dist hi hr hp
  unfold statementFaulty
  cases hf : env.fault with
  | none =>
      rw [hf] at hclaim hlook
      exact own_statement hi hr hp hrec ho (fun hs ↦ hclaim hs trivial) fun hl ↦ hlook hl rfl
  | failed committed =>
      cases committed with
      | true => exact (ho.mono h.records).onThrow
      | false => exact ho.onThrow
  | crashed committed => cases committed <;> trivial

end Statements

/-! ## Runs -/

/-- The law, with what it rests on. -/
structure FingerprintInv {D : Type u} [LinearOrder D] (dist : Point → Point → D)
    (tr : List (World × Event)) (w : World) : Prop where
  base : SeatsInv w
  /-- An inserted seat's record is completed under the inserting fingerprint. -/
  inserted : ∀ r poolId, Inserted dist tr r poolId → CompletedOwn w.db r
  /-- A completed record's seat was inserted by some request for its scope. -/
  completed : ∀ s rec, find w.db s = some rec → rec.state = .completed → ∃ r response,
    rec.response = some response ∧ Inserted dist tr r response.sharedRideId ∧ r.scope = s
  seated : SeatsRecorded w.db
  phases : ∀ i r phase, w.requests i = some (r, phase) → PhaseOwn w.db r phase

section Runs

variable {D : Type u} [LinearOrder D] {dist : Point → Point → D} {w₀ w w' : World} {e : Event}
  {tr : List (World × Event)}

theorem Inserted.append {poolId : PoolId} (h : Inserted dist tr r poolId)
    (tr' : List (World × Event)) : Inserted dist (tr ++ tr') r poolId := by
  obtain ⟨w, i, env, phase, hmem, h⟩ := h
  exact ⟨w, i, env, phase, List.mem_append_left _ hmem, h⟩

/-- A seat inserted by the end of a trace was inserted before its last event or by it. -/
theorem Inserted.snoc {poolId : PoolId} (h : Inserted dist (tr ++ [(w, e)]) r poolId) :
    Inserted dist tr r poolId ∨ ∃ i env phase, e = .run i env ∧ w.requests i = some (r, phase) ∧
      (statementFaulty dist env w.db r phase).seat = some poolId := by
  obtain ⟨w', i, env, phase, hmem, hr, hs⟩ := h
  rcases List.mem_append.mp hmem with hmem | hmem
  · exact Or.inl ⟨w', i, env, phase, hmem, hr, hs⟩
  · obtain ⟨rfl, rfl⟩ := Prod.mk.inj (List.mem_singleton.mp hmem)
    refine Or.inr ⟨i, env, phase, rfl, hr, ?_⟩
    simpa only [World.effect, hr] using hs

/-- An event that leaves seats with keys, records and phases of requests alone. -/
theorem FingerprintInv.frame (h : FingerprintInv dist tr w) (hst : w.step dist e w')
    (hrun : ∀ i env, e ≠ .run i env)
    (hrec : w'.db.idempotencyRecord = w.db.idempotencyRecord)
    (hseat : ∀ m' ∈ w'.db.poolMember, ∀ k, m'.idempotencyKey = some k →
      ∃ m ∈ w.db.poolMember, SameSeat m m')
    (hreq : ∀ i r phase, w'.requests i = some (r, phase) →
      w.requests i = some (r, phase) ∨ phase = .insert) :
    FingerprintInv dist (tr ++ [(w, e)]) w' where
  base := h.base.step hst
  inserted r poolId hins := by
    rcases hins.snoc with hins | ⟨i, env, _, rfl, -⟩
    · obtain ⟨rec, hf, hc⟩ := h.inserted r poolId hins
      exact ⟨rec, by rw [find, hrec]; exact hf, hc⟩
    · exact absurd rfl (hrun i env)
  completed s rec hf hc := by
    obtain ⟨r, response, hresp, hins, hs⟩ := h.completed s rec (by rw [find, ← hrec]; exact hf) hc
    exact ⟨r, response, hresp, hins.append _, hs⟩
  seated m' hm' k hk := by
    obtain ⟨m, hm, hsame⟩ := hseat m' hm' k hk
    obtain ⟨rec, hf, hc⟩ := h.seated m hm k (hsame.idempotencyKey.symm.trans hk)
    exact ⟨rec, by rw [find, hrec, hsame.passengerId]; exact hf, hc⟩
  phases i r phase hr := by
    rcases hreq i r phase hr with hr | rfl
    · exact (h.phases i r phase hr).mono (RecordStep.of_eq hrec : RecordStep r.scope none _ _)
    · trivial

/-- A statement of a request that holds its claim. -/
theorem FingerprintInv.run {i : ℕ} {env : Env} {phase : Phase} (h : FingerprintInv dist tr w)
    (hst : w.step dist (.run i env) w') (hheld : Event.Held w (.run i env))
    (hr : w.requests i = some (r, phase))
    (hw : w' = ⟨(statementFaulty dist env w.db r phase).db, Function.update w.requests i
      (some (r, (statementFaulty dist env w.db r phase).phase))⟩) :
    FingerprintInv dist (tr ++ [(w, .run i env)]) w' := by
  subst hw
  have hbase := h.base.step hst
  obtain ⟨hclaim, hlook⟩ := hheld (r, phase) hr
  have hphase := h.base.phases i r phase hr
  obtain ⟨new, completed, hspec⟩ := spec_statementFaulty dist
    h.base.seats h.base.records hphase
  have hown := own_statementFaulty dist h.base.seats h.base.records hphase
    h.seated (h.phases i r phase hr) hclaim hlook
  generalize he : statementFaulty dist env w.db r phase = e at *
  -- A seat this statement added, and its record.
  have hnew : ∀ m, new = some m → CompletedOwn e.db r ∧
      Inserted dist (tr ++ [(w, .run i env)]) r m.poolId := by
    rintro m rfl
    have hseat : e.seat = some m.poolId := hspec.seat
    obtain ⟨hs, hc⟩ := seat_statementFaulty (he.symm ▸ hseat)
    refine ⟨hspec.completedOwn h.base.records (hclaim hs hc), w, i, env, phase,
      List.mem_append_right _ (List.mem_singleton_self _), hr, ?_⟩
    simpa only [World.effect, hr, he] using hseat
  refine ⟨hbase, fun r' poolId hins ↦ ?_, fun s rec' hf hc ↦ ?_, fun m' hm' k hk ↦ ?_,
    fun j r' phase' hj ↦ ?_⟩
  · rcases hins.snoc with hins | ⟨i', env', phase', hi', hr', hs'⟩
    · exact (h.inserted r' poolId hins).mono hspec.records
    · obtain ⟨rfl, rfl⟩ := Event.run.inj hi'
      obtain ⟨rfl, rfl⟩ := Prod.mk.inj (Option.some.inj (hr.symm.trans hr'))
      rw [he, hspec.seat] at hs'
      obtain ⟨m, hm, -⟩ := Option.map_eq_some_iff.mp hs'
      exact (hnew m hm).1
  · obtain ⟨rec, hrec, -, ⟨hc', hresp⟩ | ⟨rfl, hsome, hresp⟩⟩ := hspec.records.back s rec' hf hc
    · obtain ⟨r₀, response, hresp', hins, hs⟩ := h.completed s rec hrec hc'
      exact ⟨r₀, response, hresp.symm.trans hresp', hins.append _, hs⟩
    · obtain ⟨response, rfl⟩ := Option.isSome_iff_exists.mp hsome
      obtain ⟨m', hm', hpool, -⟩ := hspec.describes response rfl
      rcases hspec.seats.back m' hm'.1 with ⟨m, hm, hsame⟩ | ⟨m, hm, hsame⟩
      · -- The seat was there, with a completed record that described it.
        have hm₀ : SeatOf w.db r.passengerId r.key m :=
          ⟨hm, hsame.passengerId.symm.trans hm'.2.1, hsame.idempotencyKey.symm.trans hm'.2.2⟩
        obtain ⟨rec₀, hf₀, hc₀⟩ := h.seated m hm r.key hm₀.2.2
        rw [hm₀.2.1] at hf₀
        obtain ⟨r₀, response₀, hresp₀, hins, hs⟩ := h.completed r.scope rec₀ hf₀ hc₀
        obtain ⟨response₁, hresp₁, m₁, hm₁, hpool₁, -⟩ := h.base.records _ rec₀ hf₀ hc₀
        obtain rfl := Option.some.inj (hresp₀.symm.trans hresp₁)
        obtain rfl := hm₁.unique h.base.seats hm₀
        refine ⟨r₀, response, hresp, ?_, hs⟩
        rw [← hpool, hsame.poolId, hpool₁]
        exact hins.append _
      · refine ⟨r, response, hresp, ?_, rfl⟩
        rw [← hpool, hsame.poolId]
        exact (hnew m hm).2
  · rcases hspec.seats.back m' hm' with ⟨m, hm, hsame⟩ | ⟨m, hm, hsame⟩
    · obtain ⟨rec, hf, hc⟩ := h.seated m hm k (hsame.idempotencyKey.symm.trans hk)
      obtain ⟨rec', hf', hc', -⟩ := hspec.records.kept _ rec hf hc
      exact ⟨rec', hsame.passengerId ▸ hf', hc'⟩
    · obtain ⟨hp, hkey, -⟩ := hspec.fresh m hm
      obtain ⟨rec, hf, hc, -⟩ := (hnew m hm).1
      obtain rfl : r.key = k := Option.some.inj (hkey.symm.trans (hsame.idempotencyKey.symm.trans hk))
      exact ⟨rec, by rw [hsame.passengerId, hp]; exact hf, hc⟩
  · rcases requests_update hj with ⟨-, rfl, rfl⟩ | ⟨-, hj⟩
    · exact hown
    · exact (h.phases j r' phase' hj).mono hspec.records

theorem FingerprintInv.step (h : FingerprintInv dist tr w)
    (hst : only (World.step dist) Event.Held w e w') : FingerprintInv dist (tr ++ [(w, e)]) w' := by
  obtain ⟨hst, hheld⟩ := hst
  rcases World.step_cases hst with ⟨i, r, rfl, -, rfl⟩ | ⟨i, env, r, phase, rfl, hr, -, hw⟩ |
    ⟨s, rfl, hs, rfl⟩
  · refine h.frame hst (fun _ _ ↦ nofun) rfl (fun m' hm' _ _ ↦ ⟨m', hm', .refl⟩) fun j r' phase hj ↦ ?_
    rcases requests_update hj with ⟨-, -, rfl⟩ | ⟨-, hj⟩
    · exact Or.inr rfl
    · exact Or.inl hj
  · exact h.run hst hheld hr hw
  · obtain ⟨new, hseats, hrec, hkeyless⟩ := addsKeyless_exec dist hs
    refine h.frame hst (fun _ _ ↦ nofun) hrec (fun m' hm' k hk ↦ ?_) fun _ _ _ hj ↦ Or.inl hj
    rcases hseats.back m' hm' with hold | ⟨m, hm, hsame⟩
    · exact hold
    · rw [hsame.idempotencyKey, hkeyless m hm] at hk
      cases hk

/-- **The fingerprint law**, as long as no attempt outlives its claim. -/
theorem fingerprint_of_held (dist : Point → Point → D) (h₀ : w₀.Initial)
    (hr : Run (only (World.step dist) Event.Held) w₀ tr w) : FingerprintLaw dist tr w := by
  have h : FingerprintInv dist tr w := by
    refine hr.invariant_trace (fun _ _ _ _ hi hst ↦ hi.step hst)
      ⟨.initial h₀, fun r poolId hins ↦ ?_, fun s rec hf ↦ ?_, fun m hm ↦ ?_, fun i r phase hi ↦ ?_⟩
    · obtain ⟨w, i, env, phase, hmem, -⟩ := hins
      cases hmem
    · exact absurd (Table.mem_of_get hf) (h₀.records rec)
    · exact absurd hm (h₀.seats m)
    · rw [h₀.requests i] at hi
      cases hi
  refine ⟨fun i r response r' poolId hi hins hs ↦ ?_, fun s rec hf hc ↦ ?_, h.seated⟩
  · obtain ⟨rec, hf, -, hfp⟩ : CompletedOwn w.db r := h.phases i r _ hi
    obtain ⟨rec', hf', -, hfp'⟩ := h.inserted r' poolId hins
    rw [hs] at hf'
    obtain rfl := Option.some.inj (hf.symm.trans hf')
    exact hfp.symm.trans hfp'
  · obtain ⟨r, response, hresp, hins, hs⟩ := h.completed s rec hf hc
    refine ⟨response, hresp, ⟨r, hins, hs⟩, fun r' poolId hins' hs' ↦ ?_⟩
    obtain ⟨rec', hf', -, hfp'⟩ := h.inserted r' poolId hins'
    rw [hs'] at hf'
    obtain rfl := Option.some.inj (hf.symm.trans hf')
    exact hfp'

theorem sampleBooking_law : FingerprintLaw sampleDist
    (traceOf (World.next sampleDist) sampleWorld sampleBooking)
    (sampleBooking.foldl (World.next sampleDist) sampleWorld) := by
  have hok : Enabled (fun w e ↦ e.Allowed w ∧ e.Held w) (World.next sampleDist) sampleWorld
      sampleBooking := by decide +kernel
  exact fingerprint_of_held sampleDist sampleWorld_initial
    (Run.of_enabled _ (fun _ _ he ↦ ⟨⟨he.1, rfl⟩, he.2⟩) sampleBooking hok)

/-- The same key, another destination. -/
def sampleOtherIntent : SharedRequest := { sampleRequest with fingerprint := "g", dest := ⟨2, 2⟩ }

/-- Request 0 claims the key and stalls; request 1 retries after the bound, reclaims, fails
and releases; request 2 claims the key for another intent; request 0 gets its seat, and
request 2 is told of it. -/
def sampleOutlived : List Event :=
  [.arrive 0 sampleRequest, .run 0 (sampleEnv 0 1),
    .arrive 1 sampleRequest, .run 1 (sampleEnv 70000 2), .run 1 (sampleEnv 70000 2),
    .run 1 (sampleEnv 70001 2), .run 1 (sampleEnv 70002 2),
    .run 1 { sampleEnv 70003 2 with candidates := none }, .run 1 (sampleEnv 70004 2),
    .arrive 2 sampleOtherIntent, .run 2 (sampleEnv 71000 3),
    .run 0 (sampleEnv 72000 1), .run 0 (sampleEnv 72001 1), .run 0 (sampleEnv 72002 1),
    .run 2 (sampleEnv 73000 3), .run 2 (sampleEnv 73001 3), .run 2 (sampleEnv 73002 3),
    .run 2 (sampleEnv 73003 3)]

theorem sampleOutlived_breaks : ¬ ∀ tr w, Run (World.step sampleDist) sampleWorld tr w →
    FingerprintLaw sampleDist tr w := by
  intro hlaw
  have hok : Enabled Event.Allowed (World.next sampleDist) sampleWorld sampleOutlived := by
    decide +kernel
  have h := hlaw _ _ (Run.of_enabled (World.step sampleDist) (fun _ _ he ↦ ⟨he, rfl⟩)
    sampleOutlived hok)
  have hsucc : (sampleOutlived.foldl (World.next sampleDist) sampleWorld).requests 2 =
      some (sampleOtherIntent,
        .succeeded (toResponse 10 ⟨1, .opened, .open_, 1, sampleQuote⟩)) := by decide +kernel
  -- The seat came with the fourteenth event.
  have hins : Inserted sampleDist (traceOf (World.next sampleDist) sampleWorld sampleOutlived)
      sampleRequest 1 := by
    refine ⟨(sampleOutlived.take 13).foldl (World.next sampleDist) sampleWorld, 0,
      sampleEnv 72002 1, .openPool, List.mem_of_getElem? (i := 13) rfl, ?_, ?_⟩
    · decide +kernel
    · decide +kernel
  exact absurd (h.success 2 _ _ _ _ hsucc hins rfl) (by decide)

end Runs

end Rcab
