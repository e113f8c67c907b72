import Mathlib.Logic.Function.Basic
import Rcab.Seats.Records

/-!
# Keyed shared bookings as one system

Any number of requests over one database, each advancing statement by statement between
those of the others, and any other transaction of the trips at any point.

`Spec` is what one statement of a request can do: add the one seat its key will ever
produce, complete the record of its scope with a response describing that seat, or neither.
-/

universe u

namespace Rcab

open Rides Matching

/-- The database, and the requests that have arrived. -/
structure World where
  db : Db
  requests : ℕ → Option (SharedRequest × Phase)

inductive Event where
  /-- A request arrives; a client's retry is one more. -/
  | arrive (i : ℕ) (r : SharedRequest)
  /-- A request's next statement. -/
  | run (i : ℕ) (env : Env)
  /-- Any other transaction: other passengers' keyless joins, timeouts, claims. -/
  | other (e : Step)

/-- A new request has a slot of its own, an answered one does nothing more, and keyed
seats come from requests only. -/
def Event.Allowed (w : World) : Event → Prop
  | .arrive i _ => w.requests i = none
  | .run i _ => ∃ r phase, w.requests i = some (r, phase) ∧ ¬ phase.Finished
  | .other e => e.Keyless

instance {w : World} : DecidablePred (Event.Allowed w) := fun e ↦ by
  cases e with
  | arrive i r => exact inferInstanceAs (Decidable (w.requests i = none))
  | run i env =>
      cases h : w.requests i with
      | none => exact isFalse fun ⟨r, phase, hr, _⟩ ↦ by simp [h] at hr
      | some p =>
          exact decidable_of_iff (¬ p.2.Finished)
            ⟨fun hf ↦ ⟨p.1, p.2, h, hf⟩, fun ⟨r, phase, hr, hf⟩ ↦ by
              rw [h] at hr
              rw [Option.some.inj hr]
              exact hf⟩
  | other e => exact inferInstanceAs (Decidable e.Keyless)

/-- No request yet, no seat and no record; the pools are arbitrary. -/
structure World.Initial (w : World) : Prop where
  requests : ∀ i, w.requests i = none
  seats : ∀ m, m ∉ w.db.poolMember
  records : ∀ r, r ∉ w.db.idempotencyRecord

section System

variable {D : Type u} [LinearOrder D] (dist : Point → Point → D)

/-- What the next statement of request `i` does. -/
def World.effect (w : World) (i : ℕ) (env : Env) : Effect :=
  match w.requests i with
  | none => ⟨w.db, .crashed, none⟩
  | some (r, phase) => statementFaulty dist env w.db r phase

def World.next (w : World) : Event → World
  | .arrive i r => { w with requests := Function.update w.requests i (some (r, .insert)) }
  | .run i env =>
      { db := (w.effect dist i env).db
        requests := Function.update w.requests i
          ((w.requests i).map fun p ↦ (p.1, (w.effect dist i env).phase)) }
  | .other e => { w with db := exec dist w.db e }

/-- The system. -/
def World.step (w : World) (e : Event) (w' : World) : Prop := e.Allowed w ∧ w.next dist e = w'

end System

/-! ## Responses and the seats they describe -/

variable {db db' : Db} {r : SharedRequest} {new : Option PoolMember}
  {passengerId : PassengerId} {k : String} {response : CreateRideResponse}

/-- The response names the pool and the agreed fare of the key's seat. -/
def Describes (db : Db) (passengerId : PassengerId) (k : String)
    (response : CreateRideResponse) : Prop :=
  ∃ m, SeatOf db passengerId k m ∧ m.poolId = response.sharedRideId ∧
    m.agreedFareCents = some response.perSeatPrice.amount

theorem SeatOf.mono {m : PoolMember} (h : SeatOf db passengerId k m) (hs : SeatStep new db db') :
    ∃ m', SeatOf db' passengerId k m' ∧ SameSeat m m' := by
  obtain ⟨m', hm', e⟩ := hs.kept m h.1
  exact ⟨m', ⟨hm', e.passengerId.trans h.2.1, e.idempotencyKey.trans h.2.2⟩, e⟩

theorem SeatOf.unique {m m' : PoolMember} (hi : SeatInv db) (h : SeatOf db passengerId k m)
    (h' : SeatOf db passengerId k m') : m = m' := by
  obtain ⟨hm, hp, hk⟩ := h
  obtain ⟨hm', hp', hk'⟩ := h'
  exact hi.key m hm m' hm' (by simp [hk]) (by simp [hk']) (by simp [hp, hp', hk, hk'])

theorem Describes.mono (h : Describes db passengerId k response) (hs : SeatStep new db db') :
    Describes db' passengerId k response := by
  obtain ⟨m, hm, hp, hf⟩ := h
  obtain ⟨m', hm', e⟩ := hm.mono hs
  exact ⟨m', hm', e.poolId.trans hp, e.agreedFareCents.trans hf⟩

/-- The key's seat is in a pool. -/
def SeatIn (db : Db) (passengerId : PassengerId) (k : String) (poolId : PoolId) : Prop :=
  ∃ m, SeatOf db passengerId k m ∧ m.poolId = poolId

theorem SeatIn.mono {poolId : PoolId} (h : SeatIn db passengerId k poolId)
    (hs : SeatStep new db db') : SeatIn db' passengerId k poolId := by
  obtain ⟨m, hm, hp⟩ := h
  obtain ⟨m', hm', e⟩ := hm.mono hs
  exact ⟨m', hm', e.poolId.trans hp⟩

/-- A completed record describes the seat of its key. -/
def RecordsOk (db : Db) : Prop :=
  ∀ s rec, find db s = some rec → rec.state = .completed → ∃ response,
    rec.response = some response ∧ Describes db s.principalId s.key response

/-- What a request in a phase knows of its seat. -/
def PhaseOk (db : Db) (r : SharedRequest) : Phase → Prop
  | .complete response _ | .succeeded response => Describes db r.passengerId r.key response
  | .lookup (.findSeat poolId) | .lookupSeat (.findSeat poolId) | .findSeat poolId =>
      SeatIn db r.passengerId r.key poolId
  | _ => True

theorem PhaseOk.mono {phase : Phase} (h : PhaseOk db r phase) (hs : SeatStep new db db') :
    PhaseOk db' r phase := by
  cases phase with
  | complete response tries => exact Describes.mono h hs
  | succeeded response => exact Describes.mono h hs
  | findSeat poolId => exact SeatIn.mono h hs
  | lookup onNull =>
      cases onNull with
      | allocate => trivial
      | findSeat poolId => exact SeatIn.mono h hs
  | lookupSeat onNull =>
      cases onNull with
      | allocate => trivial
      | findSeat poolId => exact SeatIn.mono h hs
  | _ => trivial

/-- Throwing loses no knowledge: only the completion's retries carry any. -/
theorem PhaseOk.onThrow {phase : Phase} (h : PhaseOk db r phase) : PhaseOk db r phase.onThrow := by
  cases phase with
  | complete response tries =>
      rcases tries with _ | _ | tries
      · exact h
      · exact h
      · exact h
  | succeeded response => exact h
  | _ => trivial

/-- What one statement of a request did: `new` is the seat it added, `completed` the
response it recorded. -/
structure Spec (r : SharedRequest) (db : Db) (e : Effect) (new : Option PoolMember)
    (completed : Option CreateRideResponse) : Prop where
  seats : SeatStep new db e.db
  records : RecordStep r.scope completed db.idempotencyRecord e.db.idempotencyRecord
  seat : e.seat = new.map (·.poolId)
  /-- The seat carries the request's key, which had produced none. -/
  fresh : ∀ m, new = some m → m.passengerId = r.passengerId ∧ m.idempotencyKey = some r.key ∧
    ∀ m', ¬ SeatOf db r.passengerId r.key m'
  describes : ∀ response, completed = some response → Describes e.db r.passengerId r.key response
  /-- A seat commits with its completion. -/
  completes : new.isSome → completed.isSome
  phase : PhaseOk e.db r e.phase

namespace Spec

/-- A statement that only moves the request, having looked around or written records. -/
theorem of_records {phase : Phase} (hm : db'.poolMember = db.poolMember)
    (hs : db'.sharedRides = db.sharedRides)
    (hr : RecordStep r.scope none db.idempotencyRecord db'.idempotencyRecord)
    (hp : PhaseOk db' r phase) : Spec r db ⟨db', phase, none⟩ none none where
  seats := .of_eq hm hs
  records := hr
  seat := rfl
  fresh := SeatStep.not_added
  describes _ h := absurd h.symm (Option.some_ne_none _)
  completes h := absurd h (by simp)
  phase := hp

theorem of_phase {phase : Phase} (hp : PhaseOk db r phase) :
    Spec r db ⟨db, phase, none⟩ none none :=
  .of_records rfl rfl .refl hp

end Spec

/-! ## The statements -/

section Statements

variable {D : Type u} [LinearOrder D] {dist : Point → Point → D} {env : Env}

/-- A record read as completed describes the key's seat. -/
theorem describes_of_find {rec : IdempotencyRecord} (hr : RecordsOk db)
    (h : find db r.scope = some rec) (hc : rec.state = .completed)
    (hresp : rec.response = some response) : Describes db r.passengerId r.key response := by
  obtain ⟨response', h', hd⟩ := hr _ _ h hc
  rw [hresp] at h'
  obtain rfl := Option.some.inj h'
  exact hd

/-- The response rebuilt from a member row. -/
theorem describes_of_seatSelect {m : PoolMember} {seat : SeatLookup} (hi : SeatInv db)
    (hm : SeatOf db passengerId k m) (hsel : seatSelect db m = some seat)
    (h : seatResponse passengerId seat = some response) :
    Describes db passengerId k response := by
  obtain ⟨s, -, rfl⟩ := Option.map_eq_some_iff.mp hsel
  obtain ⟨fare, hfare, rfl⟩ := Option.map_eq_some_iff.mp h
  refine ⟨m, hm, rfl, ?_⟩
  cases hf : m.agreedFareCents with
  | none => exact absurd hf (hi.fare m hm.1)
  | some agreed =>
      simp only [hf, Option.some_or, Option.some.injEq] at hfare
      rw [hfare]

/-- The key's seat is found by its key. -/
theorem findByIdempotencyKey_of_seatOf {m : PoolMember} (hi : SeatInv db)
    (hm : SeatOf db passengerId k m) :
    findByIdempotencyKey db passengerId k = seatSelect db m ∧ (seatSelect db m).isSome := by
  obtain ⟨s, hs, hid, -⟩ := hi.pool m hm.1
  have hget : db.sharedRides.get m.poolId = some s := hid ▸ Table.get_of_mem hs
  refine ⟨?_, by simp [seatSelect, hget]⟩
  unfold findByIdempotencyKey
  cases hf : db.poolMember.rows.find? fun m ↦
      m.passengerId = passengerId ∧ m.idempotencyKey = some k with
  | none =>
      have hno := List.find?_eq_none.mp hf m hm.1
      simp [hm.2.1, hm.2.2] at hno
  | some m' =>
      have hp := List.find?_some hf
      simp only [decide_eq_true_eq] at hp
      rw [SeatOf.unique hi ⟨List.mem_of_find?_eq_some hf, hp.1, hp.2⟩ hm]
      rfl

theorem spec_readExisting (hr : RecordsOk db) : Spec r db (readExisting db r) none none := by
  unfold readExisting
  split
  · exact .of_phase trivial
  rename_i rec hfind
  split
  · exact .of_phase trivial
  split
  · rename_i response hc hresp
    exact .of_phase (describes_of_find hr hfind hc hresp)
  · exact .of_phase trivial

theorem spec_lookupRecord {onNull : OnNull} (hr : RecordsOk db)
    (hp : PhaseOk db r (.lookup onNull)) : Spec r db (lookupRecord db r onNull) none none := by
  unfold lookupRecord
  split
  · rename_i hfind
    exact .of_phase (describes_of_find hr hfind rfl rfl)
  · exact .of_phase (by cases onNull <;> exact hp)

theorem spec_lookupByKey {onNull : OnNull} (hi : SeatInv db)
    (hp : PhaseOk db r (.lookupSeat onNull)) : Spec r db (lookupByKey db r onNull) none none := by
  unfold lookupByKey
  split
  · rename_i seat hfind
    split
    · rename_i response hresp
      obtain ⟨m, hm, hsel⟩ := Option.bind_eq_some_iff.mp hfind
      have hkey := List.find?_some hm
      simp only [decide_eq_true_eq] at hkey
      have hseat : SeatOf db r.passengerId r.key m := ⟨List.mem_of_find?_eq_some hm, hkey⟩
      exact .of_phase (describes_of_seatSelect hi hseat hsel hresp)
    · exact .of_phase trivial
  · cases onNull with
    | allocate => exact .of_phase trivial
    | findSeat poolId => exact .of_phase hp

theorem spec_findSeat {poolId : PoolId} (hi : SeatInv db) (hp : PhaseOk db r (.findSeat poolId)) :
    Spec r db (statement dist env db r (.findSeat poolId)) none none := by
  simp only [statement]
  split
  · exact .of_phase trivial
  rename_i seat hfind
  split
  · rename_i response hresp
    obtain ⟨m, hm, hsel⟩ := Option.bind_eq_some_iff.mp hfind
    -- The passenger's row in that pool is the key's seat.
    obtain ⟨m', hm', hpool⟩ := hp
    obtain rfl : m' = m := by
      refine Table.unique hm'.1 (Table.mem_of_get hm) ?_
      rw [Table.key_of_get hm, PoolMember.pkey, hpool, hm'.2.1]
    exact .of_phase (describes_of_seatSelect hi hm' hsel hresp)
  · exact .of_phase trivial

theorem spec_complete {dateNow : Time} (hp : Describes db r.passengerId r.key response) :
    Spec r db ⟨completeIn dateNow db r.scope response.sharedRideId response,
      .succeeded response, none⟩ none (some response) := by
  have hs : SeatStep none db (completeIn dateNow db r.scope response.sharedRideId response) :=
    .of_eq rfl rfl
  exact
    { seats := hs
      records := recordStep_completeIn
      seat := rfl
      fresh := SeatStep.not_added
      describes := fun _ h ↦ Option.some.inj h ▸ hp.mono hs
      completes := fun h ↦ absurd h (by simp)
      phase := hp.mono hs }

/-- A seat transaction that committed a seat. -/
theorem spec_seats {dateNow : Time} {outcome : SeatOutcome} {m : PoolMember}
    (h : Seats dateNow (some r.idempotency) outcome m db db') (hm : m.passengerId = r.passengerId) :
    Spec r db ⟨db', .succeeded (toResponse r.passengerId outcome), some outcome.sharedRideId⟩
      (some m) (some (toResponse r.passengerId outcome)) := by
  have hd : Describes db' r.passengerId r.key (toResponse r.passengerId outcome) := by
    obtain ⟨m', hm', e⟩ := h.step.added m rfl
    exact ⟨m', ⟨hm', e.passengerId.trans hm, e.idempotencyKey.trans h.key⟩,
      e.poolId.trans h.poolId, e.agreedFareCents.trans h.fare⟩
  exact
    { seats := h.step
      records := h.records ▸ recordStep_completeIn
      seat := congrArg some h.poolId.symm
      fresh := fun m' hm' ↦ by
        obtain rfl := Option.some.inj hm'
        exact ⟨hm, h.key, hm ▸ h.fresh _ h.key⟩
      describes := fun _ he ↦ Option.some.inj he ▸ hd
      completes := fun _ ↦ rfl
      phase := hd }

/-- A request that knows of no seat. -/
def Unsettled : Phase → Prop
  | .complete _ _ | .succeeded _ | .findSeat _ => False
  | _ => True

/-- What a seat transaction does: it seats its passenger, or tells of no seat. -/
def Attempt (r : SharedRequest) (db : Db) (e : Effect) : Prop :=
  (∃ completed, Spec r db e none completed ∧ Unsettled e.phase) ∨
    ∃ m completed response, Spec r db e (some m) completed ∧ e.phase = .succeeded response

theorem Attempt.of_phase {phase : Phase} (hp : PhaseOk db r phase) (hu : Unsettled phase) :
    Attempt r db ⟨db, phase, none⟩ :=
  Or.inl ⟨_, .of_phase hp, hu⟩

theorem Attempt.of_seats {dateNow : Time} {outcome : SeatOutcome} {m : PoolMember}
    (h : Seats dateNow (some r.idempotency) outcome m db db') (hm : m.passengerId = r.passengerId) :
    Attempt r db
      ⟨db', .succeeded (toResponse r.passengerId outcome), some outcome.sharedRideId⟩ :=
  Or.inr ⟨m, _, _, spec_seats h hm, rfl⟩

theorem Attempt.spec {e : Effect} (h : Attempt r db e) :
    ∃ new completed, Spec r db e new completed := by
  rcases h with ⟨completed, h, -⟩ | ⟨m, completed, _, h, -⟩
  · exact ⟨none, completed, h⟩
  · exact ⟨some m, completed, h⟩

theorem attempt_tryJoin {poolId : PoolId} {rest : List PoolId} (hi : SeatInv db) :
    Attempt r db (tryJoin dist env db r poolId rest) := by
  unfold tryJoin
  split
  · exact .of_phase trivial trivial
  split
  · exact .of_phase trivial trivial
  · rename_i db' closedFull n quote h
    rcases joinPool_eq_ok h with ⟨_, _, _, m, hj, hm, hs⟩ | ⟨_, _, hj, -⟩
    · obtain ⟨rfl, rfl, rfl⟩ := JoinPoolResult.joined.inj hj
      exact .of_seats hs hm
    · cases hj
  all_goals
    rename_i h
    rcases joinPool_eq_ok h with ⟨_, _, _, _, hj, -⟩ | ⟨reason, existing, hj, rfl, hre⟩
    · cases hj
    obtain ⟨rfl, rfl⟩ := JoinPoolResult.failed.inj hj
  · exact absurd rfl (hre r.key rfl r.key_ne hi).1
  · obtain ⟨m', hm', rfl⟩ := (hre r.key rfl r.key_ne hi).2 rfl
    exact .of_phase ⟨m', hm', rfl⟩ trivial
  · exact .of_phase trivial trivial
  · exact .of_phase trivial trivial

theorem attempt_tryOpen (hi : SeatInv db) : Attempt r db (tryOpen dist env db r) := by
  unfold tryOpen
  split
  · exact .of_phase trivial trivial
  split
  · exact .of_phase trivial trivial
  · rename_i db' outcome h
    rcases openPool_eq_ok h with ⟨_, m, ho, hm, hs⟩ | ⟨_, ho, -⟩
    · obtain rfl := OpenPoolResult.opened.inj ho
      exact .of_seats hs hm
    · cases ho
  all_goals
    rename_i h
    rcases openPool_eq_ok h with ⟨_, _, ho, -⟩ | ⟨reason, ho, rfl, hre⟩
    · cases ho
    obtain rfl := OpenPoolResult.rejected.inj ho
  · obtain ⟨m', hm', hp⟩ := hre r.key rfl r.key_ne hi _ rfl
    exact .of_phase ⟨m', hm', (Option.some.inj hp).symm⟩ trivial
  · exact .of_phase trivial trivial

theorem claimInsert_frame {t : TxClock} {scope : IdempotencyScope} {fingerprint : String} {b : Bool}
    (h : claimInsert t db scope fingerprint = (db', b)) :
    db'.poolMember = db.poolMember ∧ db'.sharedRides = db.sharedRides := by
  unfold claimInsert at h
  split at h
  · obtain ⟨rfl, -⟩ := Prod.mk.inj h
    exact ⟨rfl, rfl⟩
  · obtain ⟨rfl, -⟩ := Prod.mk.inj h
    exact ⟨rfl, rfl⟩

variable (dist) in
/-- One statement of a request. -/
theorem spec_statement {phase : Phase} (hi : SeatInv db) (hr : RecordsOk db)
    (hp : PhaseOk db r phase) :
    ∃ new completed, Spec r db (statement dist env db r phase) new completed := by
  cases phase with
  | insert =>
      have hrec : RecordStep r.scope none db.idempotencyRecord
          (claimInsert env.t db r.scope r.fingerprint).1.idempotencyRecord :=
        recordStep_claimInsert
      simp only [statement]
      split
      · rename_i db' h
        obtain ⟨hm, hs⟩ := claimInsert_frame h
        exact ⟨_, _, .of_records hm hs (by simpa [h] using hrec) trivial⟩
      · rename_i db' h
        obtain ⟨hm, hs⟩ := claimInsert_frame h
        exact ⟨_, _, .of_records hm hs (by simpa [h] using hrec) trivial⟩
  | reclaim =>
      have hrec : RecordStep r.scope none db.idempotencyRecord
          (reclaimStale env.t env.dateNow db r.scope r.fingerprint).1.idempotencyRecord :=
        recordStep_reclaimStale
      simp only [statement]
      split
      · rename_i db' h
        obtain ⟨rfl, -⟩ := Prod.mk.inj h
        exact ⟨_, _, .of_records rfl rfl hrec trivial⟩
      · rename_i db' h
        obtain ⟨rfl, -⟩ := Prod.mk.inj h
        exact ⟨_, _, .of_records rfl rfl hrec trivial⟩
  | read => exact ⟨_, _, spec_readExisting hr⟩
  | lookup onNull => exact ⟨_, _, spec_lookupRecord hr hp⟩
  | lookupSeat onNull => exact ⟨_, _, spec_lookupByKey hi hp⟩
  | complete response tries => exact ⟨_, _, spec_complete hp⟩
  | candidates =>
      simp only [statement]
      split
      · exact ⟨_, _, .of_phase trivial⟩
      · exact ⟨_, _, .of_phase trivial⟩
  | join candidates =>
      cases candidates with
      | nil => exact ⟨_, _, .of_phase trivial⟩
      | cons poolId rest => exact (attempt_tryJoin hi).spec
  | openPool => exact (attempt_tryOpen hi).spec
  | findSeat poolId => exact ⟨_, _, spec_findSeat hi hp⟩
  | release error => exact ⟨_, _, .of_records rfl rfl recordStep_release trivial⟩
  | succeeded response => exact ⟨_, _, .of_phase hp⟩
  | failed error => exact ⟨_, _, .of_phase trivial⟩
  | crashed => exact ⟨_, _, .of_phase trivial⟩

variable (dist) in
/-- A statement and what befalls it. -/
theorem spec_statementFaulty {phase : Phase} (hi : SeatInv db) (hr : RecordsOk db)
    (hp : PhaseOk db r phase) :
    ∃ new completed, Spec r db (statementFaulty dist env db r phase) new completed := by
  obtain ⟨new, completed, h⟩ := spec_statement dist hi hr hp
  unfold statementFaulty
  dsimp only
  split
  · exact ⟨new, completed, h⟩
  · exact ⟨new, completed, { h with phase := (hp.mono h.seats).onThrow }⟩
  · exact ⟨_, _, .of_phase hp.onThrow⟩
  · exact ⟨new, completed, { h with phase := trivial }⟩
  · exact ⟨_, _, .of_phase trivial⟩

end Statements

/-! ## Runs -/

/-- What every reachable world satisfies. -/
structure SeatsInv (w : World) : Prop where
  seats : SeatInv w.db
  records : RecordsOk w.db
  phases : ∀ i r phase, w.requests i = some (r, phase) → PhaseOk w.db r phase

section Runs

variable {D : Type u} [LinearOrder D] {dist : Point → Point → D} {w w' : World} {e : Event}

theorem SeatsInv.initial (h : w.Initial) : SeatsInv w where
  seats :=
    { key := fun m hm ↦ absurd hm (h.seats m)
      fare := fun m hm ↦ absurd hm (h.seats m)
      pool := fun m hm ↦ absurd hm (h.seats m) }
  records s rec hf := absurd (Table.mem_of_get hf) (h.records rec)
  phases i r phase hr := by
    rw [h.requests i] at hr
    cases hr

/-- A completed record after a statement describes the seat of its key. -/
theorem Spec.recordsOk {e : Effect} {completed : Option CreateRideResponse}
    (h : Spec r db e new completed) (hr : RecordsOk db) : RecordsOk e.db := by
  intro s rec' hf hc
  obtain ⟨rec, hrec, hfp, ⟨hc', hresp⟩ | ⟨rfl, hsome, hresp⟩⟩ := h.records.back s rec' hf hc
  · obtain ⟨response, hresp', hd⟩ := hr s rec hrec hc'
    exact ⟨response, hresp.symm.trans hresp', hd.mono h.seats⟩
  · obtain ⟨response, rfl⟩ := Option.isSome_iff_exists.mp hsome
    exact ⟨response, hresp, h.describes response rfl⟩

/-- **Inversion**: what one event does to the world. -/
theorem World.step_cases (h : w.step dist e w') :
    (∃ i r, e = .arrive i r ∧ w.requests i = none ∧
      w' = ⟨w.db, Function.update w.requests i (some (r, .insert))⟩) ∨
    (∃ i env r phase, e = .run i env ∧ w.requests i = some (r, phase) ∧ ¬ phase.Finished ∧
      w' = ⟨(statementFaulty dist env w.db r phase).db, Function.update w.requests i
        (some (r, (statementFaulty dist env w.db r phase).phase))⟩) ∨
    (∃ s, e = .other s ∧ s.Keyless ∧ w' = ⟨exec dist w.db s, w.requests⟩) := by
  obtain ⟨he, rfl⟩ := h
  cases e with
  | arrive i r => exact Or.inl ⟨i, r, rfl, he, rfl⟩
  | run i env =>
      obtain ⟨r, phase, hr, hf⟩ := he
      refine Or.inr (Or.inl ⟨i, env, r, phase, rfl, hr, hf, ?_⟩)
      simp only [World.next, World.effect, hr, Option.map_some]
  | other s => exact Or.inr (Or.inr ⟨s, rfl, he, rfl⟩)

/-- A request in the table after an update of one slot. -/
theorem requests_update {f : ℕ → Option (SharedRequest × Phase)} {i j : ℕ} {r' : SharedRequest}
    {phase phase' : Phase} (h : Function.update f i (some (r', phase')) j = some (r, phase)) :
    j = i ∧ r = r' ∧ phase = phase' ∨ j ≠ i ∧ f j = some (r, phase) := by
  by_cases hij : j = i
  · subst hij
    rw [Function.update_self] at h
    obtain ⟨rfl, rfl⟩ := Prod.mk.inj (Option.some.inj h)
    exact Or.inl ⟨rfl, rfl, rfl⟩
  · rw [Function.update_of_ne hij] at h
    exact Or.inr ⟨hij, h⟩

/-- What an event may do to the seats of a world. -/
theorem SeatsInv.seatStep (hi : SeatsInv w) (hst : w.step dist e w') :
    ∃ new, SeatStep new w.db w'.db := by
  rcases World.step_cases hst with ⟨i, r, rfl, -, rfl⟩ | ⟨i, env, r, phase, rfl, hr, -, rfl⟩ |
    ⟨s, rfl, hs, rfl⟩
  · exact ⟨none, .of_eq rfl rfl⟩
  · obtain ⟨new, _, h⟩ := spec_statementFaulty dist hi.seats hi.records
      (hi.phases i r phase hr)
    exact ⟨new, h.seats⟩
  · obtain ⟨new, h, -⟩ := addsKeyless_exec dist hs
    exact ⟨new, h⟩

theorem SeatsInv.step (hi : SeatsInv w) (hst : w.step dist e w') : SeatsInv w' := by
  obtain ⟨new, hseats⟩ := hi.seatStep hst
  refine ⟨hseats.inv hi.seats, ?_, fun j r phase hj ↦ ?_⟩
  · rcases World.step_cases hst with ⟨i, r, rfl, -, rfl⟩ | ⟨i, env, r, phase, rfl, hr, -, rfl⟩ |
      ⟨s, rfl, hs, rfl⟩
    · exact hi.records
    · obtain ⟨_, _, h⟩ := spec_statementFaulty dist hi.seats hi.records
        (hi.phases i r phase hr)
      exact h.recordsOk hi.records
    · obtain ⟨_, h, hrec, -⟩ := addsKeyless_exec dist hs
      intro s' rec hf hc
      rw [find, hrec] at hf
      obtain ⟨response, hresp, hd⟩ := hi.records s' rec hf hc
      exact ⟨response, hresp, hd.mono h⟩
  · rcases World.step_cases hst with ⟨i, r', rfl, -, rfl⟩ | ⟨i, env, r', phase', rfl, hr, -, rfl⟩ |
      ⟨s, rfl, hs, rfl⟩
    · rcases requests_update hj with ⟨-, rfl, rfl⟩ | ⟨-, hj⟩
      · trivial
      · exact hi.phases j r phase hj
    · rcases requests_update hj with ⟨-, rfl, rfl⟩ | ⟨-, hj⟩
      · obtain ⟨_, _, h⟩ := spec_statementFaulty dist hi.seats hi.records
          (hi.phases i r phase' hr)
        exact h.phase
      · exact (hi.phases j r phase hj).mono hseats
    · exact (hi.phases j r phase hj).mono hseats

end Runs

end Rcab
