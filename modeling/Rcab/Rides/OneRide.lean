import Mathlib.Logic.Function.Basic
import Rcab.Rides.Bookings
import Rcab.Rides.SoloCreate

/-!
# One ride for a key

Any number of solo and scheduled creates over one database, each advancing statement by statement
between those of the others, and any other transaction of the trips at any point.  A scope has at
most one ride ever, which was committed with its work intent and which every success names.
-/

universe u

namespace Rcab.Rides

/-! ## The system -/

/-- The database, and the requests that have arrived. -/
structure BookingWorld where
  db : Db
  requests : ℕ → Option (SoloRequest × SoloPhase)

inductive BookingEvent where
  /-- A request arrives; a client's retry is one more. -/
  | arrive (i : ℕ) (r : SoloRequest)
  /-- A request's next statement. -/
  | run (i : ℕ) (env : SoloEnv)
  /-- Any other transaction. -/
  | other (e : Step)

/-- A new request has a slot of its own, an answered one does nothing more, and rides come from
requests only. -/
def BookingEvent.Allowed (w : BookingWorld) : BookingEvent → Prop
  | .arrive i _ => w.requests i = none
  | .run i _ => ∃ r phase, w.requests i = some (r, phase) ∧ ¬ phase.Finished
  | .other e => e.NotCreate

namespace BookingWorld

variable {D : Type u} [LinearOrder D] (dist : Point → Point → D)

def next (w : BookingWorld) : BookingEvent → BookingWorld
  | .arrive i r => { w with requests := Function.update w.requests i (some (r, .received)) }
  | .run i env =>
      match w.requests i with
      | none => w
      | some (r, phase) =>
          let (db, phase) := soloStatementFaulty env w.db r phase
          { db, requests := Function.update w.requests i (some (r, phase)) }
  | .other e => { w with db := exec dist w.db e }

/-- The system. -/
def step (w : BookingWorld) (e : BookingEvent) (w' : BookingWorld) : Prop :=
  e.Allowed w ∧ w.next dist e = w'

end BookingWorld

/-! ## The scope of a request -/

def SoloRequest.scope (r : SoloRequest) (key : String) : IdempotencyScope :=
  ⟨r.passengerId, r.operation.operation, key⟩

/-- The key of a request under way. -/
def SoloPhase.key : SoloPhase → Option String
  | .lookup key | .verify key | .insert key _ | .read key => some key
  | _ => none

variable {db db' : Db} {r : SoloRequest} {env : SoloEnv} {phase : SoloPhase} {key : String}

theorem scope_of_find {a : Ride}
    (h : findByIdempotencyScope db r.passengerId r.operation.operation key = some a) :
    a ∈ db.rides ∧ a.scope = r.scope key := by
  have hp := List.find?_some h
  simp only [decide_eq_true_eq] at hp
  refine ⟨List.mem_of_find?_eq_some h, ?_⟩
  unfold Ride.scope SoloRequest.scope
  rw [hp.1, hp.2.1, hp.2.2]

theorem not_scope_of_find
    (h : findByIdempotencyScope db r.passengerId r.operation.operation key = none) :
    ∀ a ∈ db.rides, a.scope ≠ r.scope key := by
  intro a ha hs
  have hno := List.find?_eq_none.mp h a ha
  obtain ⟨hp, ho, hk⟩ := IdempotencyScope.mk.inj hs
  simp [hp, ho, hk] at hno

/-- A scope in use is found. -/
theorem find_of_scope {a : Ride} (ha : a ∈ db.rides) (hs : a.scope = r.scope key) :
    ∃ b, findByIdempotencyScope db r.passengerId r.operation.operation key = some b := by
  cases h : findByIdempotencyScope db r.passengerId r.operation.operation key with
  | none => exact absurd hs (not_scope_of_find h a ha)
  | some b => exact ⟨b, rfl⟩

/-! ## What a statement does to the database -/

/-- The request's ride is inserted with its intent: its scope and id were free. -/
structure Inserts (env : SoloEnv) (db : Db) (r : SoloRequest) (key : String) (fare : Int)
    (db' : Db) : Prop where
  scope : findByIdempotencyScope db r.passengerId r.operation.operation key = none
  newId : db.rides.get env.newId = none
  inserted : insertRide env.t db (r.params key fare env.newId) =
    .ok (db', some (r.params key fare env.newId).row)
  rides : db'.rides = db.rides.insert (r.params key fare env.newId).row

/-- The transaction throws, finds the scope taken, or inserts. -/
theorem insertRide_cases (env : SoloEnv) (db : Db) (r : SoloRequest) (key : String) (fare : Int) :
    (∃ e, insertRide env.t db (r.params key fare env.newId) = .error e ∧
      findByIdempotencyScope db r.passengerId r.operation.operation key = none) ∨
    (∃ existing, findByIdempotencyScope db r.passengerId r.operation.operation key =
      some existing ∧ insertRide env.t db (r.params key fare env.newId) = .ok (db, none)) ∨
    ∃ db', Inserts env db r key fare db' := by
  generalize hp : r.params key fare env.newId = params
  have hfind : findByIdempotencyScope db params.passengerId params.operation
      params.idempotencyKey = findByIdempotencyScope db r.passengerId r.operation.operation key := by
    rw [← hp]
    rfl
  have hid : params.newId = env.newId := by
    rw [← hp]
    rfl
  have heq : insertRide env.t db params = insertRide env.t db params := rfl
  conv_rhs at heq => unfold insertRide
  rw [hfind, hid] at heq
  cases hf : findByIdempotencyScope db r.passengerId r.operation.operation key with
  | some existing =>
      rw [hf, if_pos (Option.isSome_some)] at heq
      exact Or.inr (Or.inl ⟨existing, rfl, heq⟩)
  | none =>
      have hfree : ¬ (none : Option Ride).isSome = true := by simp
      rw [hf, if_neg hfree] at heq
      by_cases hnew : (db.rides.get env.newId).isSome
      · rw [if_pos hnew] at heq
        exact Or.inl ⟨_, heq, rfl⟩
      · rw [if_neg hnew] at heq
        cases hm : params.intent with
        | error e =>
            rw [hm] at heq
            exact Or.inl ⟨e, heq, rfl⟩
        | ok message =>
            rw [hm] at heq
            exact Or.inr (Or.inr ⟨_, hf, by simpa using hnew, by rw [hp]; exact heq,
              by rw [hp]; rfl⟩)

namespace Inserts

variable {fare : Int}

/-- The new ride has the request's scope and fingerprint. -/
theorem mem (h : Inserts env db r key fare db') : ∃ a ∈ db'.rides, a.id = env.newId ∧
    a.scope = r.scope key ∧ a.requestFingerprint = some r.fingerprint := by
  refine ⟨(r.params key fare env.newId).row, ?_, rfl, rfl, rfl⟩
  rw [h.rides, Table.mem_insert h.newId]
  exact Or.inr rfl

/-- A ride that was there stays, as it is. -/
theorem kept (h : Inserts env db r key fare db') {a : Ride} (ha : a ∈ db.rides) :
    a ∈ db'.rides := by
  rw [h.rides, Table.mem_insert h.newId]
  exact Or.inl ha

/-- Every other ride was there before. -/
theorem old (h : Inserts env db r key fare db') {a : Ride} (ha : a ∈ db'.rides)
    (hs : a.scope ≠ r.scope key) : a ∈ db.rides := by
  rw [h.rides, Table.mem_insert h.newId] at ha
  rcases ha with ha | rfl
  · exact ha
  · exact absurd rfl hs

/-- The insertion is a create, and so within the machine of the rides. -/
theorem rideSim (h : Inserts env db r key fare db') {wakes : ℕ → Prop} : RideSim wakes db db' := by
  have hcreate : create env.t db (r.params key fare env.newId) =
      .ok (db', ⟨(r.params key fare env.newId).row, true, some r.fingerprint⟩) := by
    rw [create_eq_insertRide, h.inserted]
    rfl
  exact rideSim_create hcreate

end Inserts

/-- A statement changes nothing, or it is the insert of a request for a free scope. -/
theorem soloStatementFaulty_db (env : SoloEnv) (db : Db) (r : SoloRequest) (phase : SoloPhase) :
    (soloStatementFaulty env db r phase).1 = db ∨ ∃ key fare, phase = .insert key fare ∧
      Inserts env db r key fare (soloStatementFaulty env db r phase).1 := by
  have hst : (soloStatement env db r phase).1 = db ∨ ∃ key fare, phase = .insert key fare ∧
      Inserts env db r key fare (soloStatement env db r phase).1 := by
    cases phase with
    | lookup key =>
        left
        unfold soloStatement
        dsimp only
        cases findByIdempotencyScope db r.passengerId r.operation.operation key <;> rfl
    | read key =>
        left
        unfold soloStatement
        dsimp only
        cases findByIdempotencyScope db r.passengerId r.operation.operation key <;> rfl
    | insert key fare =>
        unfold soloStatement
        dsimp only
        rcases insertRide_cases env db r key fare with ⟨e, h, -⟩ | ⟨existing, -, h⟩ | ⟨db', h⟩
        · rw [h]
          exact Or.inl rfl
        · rw [h]
          exact Or.inl rfl
        · rw [h.inserted]
          exact Or.inr ⟨key, fare, rfl, h⟩
    | received => exact Or.inl rfl
    | verify key => exact Or.inl rfl
    | succeeded response => exact Or.inl rfl
    | failed error => exact Or.inl rfl
    | crashed => exact Or.inl rfl
  unfold soloStatementFaulty
  dsimp only
  cases env.fault with
  | none => exact hst
  | failed committed => cases committed with
    | true => exact hst
    | false => exact Or.inl rfl
  | crashed committed => cases committed with
    | true => exact hst
    | false => exact Or.inl rfl

/-! ## What a run keeps -/

/-- Every booking of the first is one of the second. -/
def BookingsGrow (db db' : Db) : Prop :=
  ∀ a ∈ db.rides, ∃ b ∈ db'.rides, b.id = a.id ∧ b.booking = a.booking

theorem BookingsGrow.of_kept (h : BookingsKept db db') : BookingsGrow db db' :=
  fun _ ha ↦ h.symm.of_mem ha

theorem BookingsGrow.refl : BookingsGrow db db := .of_kept .refl

/-- The response tells the ride of the request's scope, which was booked for its intent. -/
def Names (db : Db) (r : SoloRequest) (key : String) (response : SoloRideResponse) : Prop :=
  ∃ a ∈ db.rides, a.scope = r.scope key ∧ a.id = response.rideId ∧
    FingerprintMatches a.requestFingerprint r.fingerprint

theorem Names.grow {response : SoloRideResponse} (h : Names db r key response)
    (hg : BookingsGrow db db') : Names db' r key response := by
  obtain ⟨a, ha, hs, hid, hf⟩ := h
  obtain ⟨b, hb, hbid, hbook⟩ := hg a ha
  obtain ⟨hscope, hfp, -⟩ := Booking.mk.inj hbook
  exact ⟨b, hb, hscope.trans hs, hbid.trans hid, hfp ▸ hf⟩

/-- The scope has a ride, which was booked for another intent. -/
def Differs (db : Db) (r : SoloRequest) (key : String) : Prop :=
  ∃ a ∈ db.rides, a.scope = r.scope key ∧ ¬ FingerprintMatches a.requestFingerprint r.fingerprint

theorem Differs.grow (h : Differs db r key) (hg : BookingsGrow db db') : Differs db' r key := by
  obtain ⟨a, ha, hs, hf⟩ := h
  obtain ⟨b, hb, hbid, hbook⟩ := hg a ha
  obtain ⟨hscope, hfp, -⟩ := Booking.mk.inj hbook
  exact ⟨b, hb, hscope.trans hs, hfp ▸ hf⟩

/-- What is so of a request at a phase. -/
structure PhaseInv (db : Db) (r : SoloRequest) (phase : SoloPhase) : Prop where
  key : ∀ key, phase.key = some key → parseIdempotencyKey r.rawKey = .ok key
  named : ∀ response, phase = .succeeded response →
    ∃ key, parseIdempotencyKey r.rawKey = .ok key ∧ Names db r key response

namespace PhaseInv

theorem grow (h : PhaseInv db r phase) (hg : BookingsGrow db db') : PhaseInv db' r phase where
  key := h.key
  named response hr := by
    obtain ⟨key, hkey, hn⟩ := h.named response hr
    exact ⟨key, hkey, hn.grow hg⟩

theorem of_key (hkey : ∀ key, phase.key = some key → parseIdempotencyKey r.rawKey = .ok key)
    (hs : ∀ response, phase ≠ .succeeded response) : PhaseInv db r phase :=
  ⟨hkey, fun response h ↦ absurd h (hs response)⟩

theorem failed {e : CreateSoloError} : PhaseInv db r (.failed e) :=
  .of_key (fun _ h ↦ by cases h) fun _ h ↦ by cases h

theorem crashed : PhaseInv db r .crashed := .of_key (fun _ h ↦ by cases h) fun _ h ↦ by cases h

theorem replay {a : Ride} (hkey : parseIdempotencyKey r.rawKey = .ok key)
    (h : findByIdempotencyScope db r.passengerId r.operation.operation key = some a) :
    PhaseInv db r (replay r a) := by
  obtain ⟨ha, hs⟩ := scope_of_find h
  unfold Rides.replay
  split_ifs with hf
  · refine ⟨fun _ h ↦ (by cases h), fun response h ↦ ?_⟩
    obtain rfl := SoloPhase.succeeded.inj h
    exact ⟨key, hkey, a, ha, hs, rfl, hf⟩
  · exact .failed

theorem receive : PhaseInv db r (receive r) := by
  unfold Rides.receive
  cases hkey : parseIdempotencyKey r.rawKey with
  | error e => exact .failed
  | ok key =>
      dsimp only
      split_ifs
      · exact .failed
      · exact .failed
      · refine .of_key (fun k h ↦ ?_) fun _ h ↦ by cases h
        obtain rfl := Option.some.inj h
        exact hkey

theorem verify (hkey : parseIdempotencyKey r.rawKey = .ok key) :
    PhaseInv db r (verify env r key) := by
  unfold Rides.verify
  split_ifs
  · exact .failed
  · cases env.quote with
    | error e => exact .failed
    | ok fare =>
        refine .of_key (fun k h ↦ ?_) fun _ h ↦ by cases h
        obtain rfl := Option.some.inj h
        exact hkey

/-- A request's own statement. -/
theorem soloStatement (h : PhaseInv db r phase) :
    PhaseInv (soloStatement env db r phase).1 r (soloStatement env db r phase).2 := by
  cases phase with
  | received => exact receive
  | lookup key =>
      have hkey := h.key key rfl
      unfold Rides.soloStatement
      dsimp only
      cases hf : findByIdempotencyScope db r.passengerId r.operation.operation key with
      | some existing => exact replay hkey hf
      | none => exact .of_key (fun k hk ↦ Option.some.inj hk ▸ hkey) fun _ h ↦ by cases h
  | verify key => exact verify (h.key key rfl)
  | insert key fare =>
      have hkey := h.key key rfl
      unfold Rides.soloStatement
      dsimp only
      rcases insertRide_cases env db r key fare with ⟨e, h, -⟩ | ⟨existing, -, h⟩ | ⟨db', h⟩
      · rw [h]
        exact .failed
      · rw [h]
        exact .of_key (fun k hk ↦ Option.some.inj hk ▸ hkey) fun _ h ↦ by cases h
      · rw [h.inserted]
        obtain ⟨a, ha, hid, hs, hf⟩ := h.mem
        refine ⟨fun _ h ↦ (by cases h), fun response hr ↦ ?_⟩
        obtain rfl := SoloPhase.succeeded.inj hr
        exact ⟨key, hkey, a, ha, hs, hid, Or.inr hf⟩
  | read key =>
      have hkey := h.key key rfl
      unfold Rides.soloStatement
      dsimp only
      cases hf : findByIdempotencyScope db r.passengerId r.operation.operation key with
      | some existing => exact replay hkey hf
      | none => exact .failed
  | succeeded response => exact h
  | failed error => exact h
  | crashed => exact h

theorem soloStatementFaulty (h : PhaseInv db r phase) :
    PhaseInv (soloStatementFaulty env db r phase).1 r (soloStatementFaulty env db r phase).2 := by
  unfold Rides.soloStatementFaulty
  dsimp only
  cases env.fault with
  | none => exact h.soloStatement
  | failed committed => cases committed <;> exact .failed
  | crashed committed => cases committed <;> exact .crashed

end PhaseInv

/-- Before any request: a scope has one ride, and a ride that is not there no intent. -/
structure BookingWorld.Initial (w : BookingWorld) : Prop where
  requests : ∀ i, w.requests i = none
  scopes : w.db.rides.UniqueOn (fun _ ↦ True) Ride.scope
  fresh : ∀ id, w.db.rides.get id = none →
    (w.db.rideView id).dispatch = ∅ ∧ (w.db.rideView id).wake = ∅

/-- What a run that began in `db₀` keeps. -/
structure BookingInv (db₀ : Db) (w : BookingWorld) : Prop where
  scopes : w.db.rides.UniqueOn (fun _ ↦ True) Ride.scope
  enqueued : ∀ id, db₀.rides.get id = none → Enqueued (w.db.rideView id)
  requests : ∀ i r phase, w.requests i = some (r, phase) → PhaseInv w.db r phase

variable {w w' : BookingWorld}

theorem Inserts.grow {fare : Int} (h : Inserts env db r key fare db') : BookingsGrow db db' :=
  fun a ha ↦ ⟨a, h.kept ha, rfl, rfl⟩

theorem grow_soloStatementFaulty (env : SoloEnv) (db : Db) (r : SoloRequest) (phase : SoloPhase) :
    BookingsGrow db (soloStatementFaulty env db r phase).1 := by
  rcases soloStatementFaulty_db env db r phase with h | ⟨key, fare, -, h⟩
  · rw [h]
    exact .refl
  · exact h.grow

/-- A free scope gets one ride. -/
theorem Inserts.scopes {fare : Int} (h : Inserts env db r key fare db')
    (hu : db.rides.UniqueOn (fun _ ↦ True) Ride.scope) :
    db'.rides.UniqueOn (fun _ ↦ True) Ride.scope := by
  rw [h.rides]
  refine hu.insert h.newId fun _ ↦ ?_
  rintro ⟨a, ha, -, hs⟩
  exact not_scope_of_find h.scope a ha hs

theorem scopes_of_kept (h : BookingsKept db db')
    (hu : db.rides.UniqueOn (fun _ ↦ True) Ride.scope) :
    db'.rides.UniqueOn (fun _ ↦ True) Ride.scope := by
  intro a ha b hb _ _ hs
  obtain ⟨a₀, ha₀, haid, habook⟩ := h.of_mem ha
  obtain ⟨b₀, hb₀, hbid, hbbook⟩ := h.of_mem hb
  have hs₀ : a₀.scope = b₀.scope := by
    rw [(Booking.mk.inj habook).1, (Booking.mk.inj hbbook).1, hs]
  obtain rfl := hu a₀ ha₀ b₀ hb₀ trivial trivial hs₀
  exact Table.unique ha hb (haid.symm.trans hbid)

theorem request_of_update {requests : ℕ → Option (SoloRequest × SoloPhase)} {i j : ℕ}
    {r' : SoloRequest} {phase' : SoloPhase}
    (h : Function.update requests i (some (r, phase)) j = some (r', phase')) :
    j = i ∧ r' = r ∧ phase' = phase ∨ requests j = some (r', phase') := by
  rw [Function.update_apply] at h
  split_ifs at h with hj
  · obtain ⟨rfl, rfl⟩ := Prod.mk.inj (Option.some.inj h)
    exact Or.inl ⟨hj, rfl, rfl⟩
  · exact Or.inr h

namespace BookingInv

variable {db₀ : Db}

theorem initial (h : w.Initial) : BookingInv w.db w where
  scopes := h.scopes
  enqueued id hid :=
    { absent := fun _ ↦ h.fresh id hid
      normal := fun r hr ↦ by rw [show (w.db.rideView id).row = none from hid] at hr; cases hr
      scheduled := fun r hr ↦ by rw [show (w.db.rideView id).row = none from hid] at hr; cases hr }
  requests i r phase hr := by rw [h.requests i] at hr; cases hr

variable {D : Type u} [LinearOrder D] {dist : Point → Point → D}

theorem step (h : BookingInv db₀ w) {e : BookingEvent} (hst : w.step dist e w') :
    BookingInv db₀ w' ∧ BookingsGrow w.db w'.db := by
  obtain ⟨hok, rfl⟩ := hst
  cases e with
  | arrive i r =>
      refine ⟨⟨h.scopes, h.enqueued, fun j r' phase hr ↦ ?_⟩, .refl⟩
      rcases request_of_update hr with ⟨rfl, rfl, rfl⟩ | hr
      · exact .of_key (fun _ h ↦ by cases h) fun _ h ↦ by cases h
      · exact h.requests j r' phase hr
  | run i env =>
      obtain ⟨r, phase, hreq, -⟩ := hok
      have hnext : w.next dist (.run i env) = ⟨(soloStatementFaulty env w.db r phase).1,
          Function.update w.requests i (some (r, (soloStatementFaulty env w.db r phase).2))⟩ := by
        simp only [BookingWorld.next, hreq]
      rw [hnext]
      have hgrow := grow_soloStatementFaulty env w.db r phase
      refine ⟨⟨?_, ?_, fun j r' phase' hr ↦ ?_⟩, hgrow⟩
      · dsimp only
        rcases soloStatementFaulty_db env w.db r phase with hdb | ⟨key, fare, -, hins⟩
        · rw [hdb]
          exact h.scopes
        · exact hins.scopes h.scopes
      · intro id hid
        dsimp only
        rcases soloStatementFaulty_db env w.db r phase with hdb | ⟨key, fare, -, hins⟩
        · rw [hdb]
          exact h.enqueued id hid
        · have hsim : RideSim (fun _ ↦ True) w.db (soloStatementFaulty env w.db r phase).1 :=
            hins.rideSim
          exact hsim.keeps (fun _ _ hst hv ↦ hv.step hst) id (h.enqueued id hid)
      · rcases request_of_update hr with ⟨rfl, rfl, rfl⟩ | hr
        · exact (h.requests j _ phase hreq).soloStatementFaulty
        · exact (h.requests j r' phase' hr).grow hgrow
  | other e =>
      have hkept : BookingsKept w.db (exec dist w.db e) := bookingsKept_exec dist hok
      refine ⟨⟨scopes_of_kept hkept h.scopes, fun id hid ↦ ?_, fun j r' phase hr ↦ ?_⟩,
        .of_kept hkept⟩
      · have hsim : RideSim (fun _ ↦ True) w.db (exec dist w.db e) :=
          rideSim_exec dist e (by cases e <;> trivial)
        exact hsim.keeps (fun _ _ hst hv ↦ hv.step hst) id (h.enqueued id hid)
      · exact (h.requests j r' phase hr).grow (.of_kept hkept)

end BookingInv

/-! ## A request and the rides of other scopes -/

/-- An insert is not found in another scope. -/
theorem Inserts.find_ne {fare : Int} (h : Inserts env db r key fare db') {p : PassengerId}
    {op : IdempotencyOperation} (hne : (p, op) ≠ (r.passengerId, r.operation.operation))
    (k : String) : findByIdempotencyScope db' p op k = findByIdempotencyScope db p op k := by
  unfold findByIdempotencyScope
  rw [h.rides, Table.rows_insert h.newId, List.find?_append]
  have hnot : ¬ (r.passengerId = p ∧ r.operation.operation = op ∧ key = k) := by
    rintro ⟨rfl, rfl, -⟩
    exact hne rfl
  have hrow : [(r.params key fare env.newId).row].find? (fun a ↦ decide (a.passengerId = p ∧
      a.idempotencyOperation = op ∧ a.idempotencyKey = k)) = none :=
    List.find?_cons_of_neg fun h ↦ hnot (of_decide_eq_true h)
  rw [hrow, Option.or_none]

/-- A statement's outcome depends on the ride of the request's own scope alone, and on the new id
being new. -/
theorem soloStatement_congr {db₁ db₂ : Db}
    (hfind : ∀ key, phase.key = some key →
      findByIdempotencyScope db₁ r.passengerId r.operation.operation key =
        findByIdempotencyScope db₂ r.passengerId r.operation.operation key)
    (hnew : (db₁.rides.get env.newId).isSome = (db₂.rides.get env.newId).isSome) :
    (soloStatement env db₁ r phase).2 = (soloStatement env db₂ r phase).2 := by
  cases phase with
  | lookup key =>
      simp only [soloStatement, hfind key rfl]
      cases findByIdempotencyScope db₂ r.passengerId r.operation.operation key <;> rfl
  | read key =>
      simp only [soloStatement, hfind key rfl]
      cases findByIdempotencyScope db₂ r.passengerId r.operation.operation key <;> rfl
  | insert key fare =>
      have hown : ∀ db, findByIdempotencyScope db (r.params key fare env.newId).passengerId
          (r.params key fare env.newId).operation (r.params key fare env.newId).idempotencyKey =
            findByIdempotencyScope db r.passengerId r.operation.operation key := fun _ ↦ rfl
      have hid : (r.params key fare env.newId).newId = env.newId := rfl
      simp only [soloStatement, insertRide, hown, hid, hfind key rfl, hnew]
      cases findByIdempotencyScope db₂ r.passengerId r.operation.operation key with
      | some existing => rfl
      | none =>
          cases (db₂.rides.get env.newId).isSome with
          | true => rfl
          | false => cases (r.params key fare env.newId).intent <;> rfl
  | received => rfl
  | verify key => rfl
  | succeeded response => rfl
  | failed error => rfl
  | crashed => rfl

theorem soloStatementFaulty_congr {db₁ db₂ : Db}
    (hfind : ∀ key, phase.key = some key →
      findByIdempotencyScope db₁ r.passengerId r.operation.operation key =
        findByIdempotencyScope db₂ r.passengerId r.operation.operation key)
    (hnew : (db₁.rides.get env.newId).isSome = (db₂.rides.get env.newId).isSome) :
    (soloStatementFaulty env db₁ r phase).2 = (soloStatementFaulty env db₂ r phase).2 := by
  have h := soloStatement_congr hfind hnew
  unfold soloStatementFaulty
  dsimp only
  cases env.fault with
  | none => exact h
  | failed committed => cases committed <;> rfl
  | crashed committed => cases committed <;> rfl

/-! ## A request that differs -/

/-- It inserts nothing. -/
theorem Differs.db_eq (h : Differs db r key) (hi : PhaseInv db r phase)
    (hkey : parseIdempotencyKey r.rawKey = .ok key) : (soloStatementFaulty env db r phase).1 = db := by
  rcases soloStatementFaulty_db env db r phase with hdb | ⟨k, fare, rfl, hins⟩
  · exact hdb
  · obtain rfl := Except.ok.inj ((hi.key k rfl).symm.trans hkey)
    obtain ⟨a, ha, hs, -⟩ := h
    exact absurd hs (not_scope_of_find hins.scope a ha)

/-- What it finds is refused. -/
theorem Differs.replay_eq (h : Differs db r key)
    (hu : db.rides.UniqueOn (fun _ ↦ True) Ride.scope) :
    ∃ existing, findByIdempotencyScope db r.passengerId r.operation.operation key =
      some existing ∧ replay r existing = .failed .idempotencyKeyConflict := by
  obtain ⟨a, ha, hs, hf⟩ := h
  obtain ⟨b, hb⟩ := find_of_scope ha hs
  obtain ⟨hbmem, hbs⟩ := scope_of_find hb
  obtain rfl := hu a ha b hbmem trivial trivial (hs.trans hbs.symm)
  refine ⟨a, hb, ?_⟩
  unfold replay
  rw [if_neg hf]

/-- The look-up and the read answer the conflict, and the insert goes on to the read. -/
theorem Differs.soloStatement_eq (h : Differs db r key)
    (hu : db.rides.UniqueOn (fun _ ↦ True) Ride.scope) (hfault : env.fault = .none) :
    (soloStatementFaulty env db r (.lookup key)).2 = .failed .idempotencyKeyConflict ∧
      (soloStatementFaulty env db r (.read key)).2 = .failed .idempotencyKeyConflict ∧
      ∀ fare, (soloStatementFaulty env db r (.insert key fare)).2 = .read key := by
  obtain ⟨existing, hfind, hreplay⟩ := h.replay_eq hu
  refine ⟨?_, ?_, fun fare ↦ ?_⟩
  · simp only [soloStatementFaulty, hfault, soloStatement, hfind, hreplay]
  · simp only [soloStatementFaulty, hfault, soloStatement, hfind, hreplay]
  · rcases insertRide_cases env db r key fare with ⟨e, -, hf⟩ | ⟨a, -, hins⟩ | ⟨db', hins⟩
    · rw [hfind] at hf
      cases hf
    · simp only [soloStatementFaulty, hfault, soloStatement, hins]
    · have hf := hins.scope
      rw [hfind] at hf
      cases hf

/-! ## One ride for a key -/

section OneRide

variable {D : Type u} [LinearOrder D] {dist : Point → Point → D} {w₀ : BookingWorld}
  {tr tr' : List (BookingWorld × BookingEvent)}

theorem BookingInv.run {db₀ : Db} (h : BookingInv db₀ w) (hr : Run (BookingWorld.step dist) w tr w') :
    BookingInv db₀ w' ∧ BookingsGrow w.db w'.db := by
  refine hr.invariant (I := fun w' ↦ BookingInv db₀ w' ∧ BookingsGrow w.db w'.db) ?_ ⟨h, .refl⟩
  rintro w₁ e w₂ ⟨h₁, hg₁⟩ hst
  obtain ⟨h₂, hg₂⟩ := h₁.step hst
  refine ⟨h₂, fun a ha ↦ ?_⟩
  obtain ⟨b, hb, hbid, hbook⟩ := hg₁ a ha
  obtain ⟨c, hc, hcid, hcbook⟩ := hg₂ b hb
  exact ⟨c, hc, hcid.trans hbid, hcbook.trans hbook⟩

/-- **One ride for a key**, over any run and its continuations.

A scope's ride is the same at any two moments.  In every committed state a ride has one intent of
its creation and such an intent its ride, so the two were committed together.  A success names the
ride of the request's scope.  Once that ride was booked for another intent it always is, the
request changes no row, and it is the conflict that the look-up answers, and the read after a lost
insert.  Nothing but the ride of its own scope, and the new id being new, decides what becomes of
a request, and an insert is not found in any other scope. -/
theorem one_ride_per_key (dist : Point → Point → D) (h₀ : w₀.Initial)
    (hr : Run (BookingWorld.step dist) w₀ tr w) (hr' : Run (BookingWorld.step dist) w tr' w') :
    (∀ a ∈ w.db.rides, ∀ b ∈ w'.db.rides, a.scope = b.scope → a.id = b.id) ∧
    (∀ a ∈ w.db.rides, w₀.db.rides.get a.id = none → ∃ row ∈ w.db.outbox,
      row.dedupeKey = a.creationKey ∧ ∀ row' ∈ w.db.outbox, row'.IsCreation →
        row'.dedupeKey.aggregateId = a.id → row' = row) ∧
    (∀ row ∈ w.db.outbox, row.IsCreation → (w.db.rides.get row.dedupeKey.aggregateId).isSome) ∧
    (∀ i r response, w.requests i = some (r, .succeeded response) →
      ∃ key, parseIdempotencyKey r.rawKey = .ok key ∧ Names w.db r key response) ∧
    (∀ i r phase key, w.requests i = some (r, phase) → parseIdempotencyKey r.rawKey = .ok key →
      Differs w.db r key → Differs w'.db r key ∧ ∀ env : SoloEnv,
        (w.next dist (.run i env)).db = w.db ∧ (env.fault = .none →
          (phase = .lookup key ∨ phase = .read key → (w.next dist (.run i env)).requests i =
            some (r, .failed .idempotencyKeyConflict)) ∧
          ∀ fare, phase = .insert key fare →
            (w.next dist (.run i env)).requests i = some (r, .read key))) ∧
    (∀ (env : SoloEnv) r phase db₁ db₂,
      (∀ key, phase.key = some key →
        findByIdempotencyScope db₁ r.passengerId r.operation.operation key =
          findByIdempotencyScope db₂ r.passengerId r.operation.operation key) →
      (db₁.rides.get env.newId).isSome = (db₂.rides.get env.newId).isSome →
        (soloStatementFaulty env db₁ r phase).2 = (soloStatementFaulty env db₂ r phase).2) ∧
    ∀ i r phase (env : SoloEnv) p op key, w.requests i = some (r, phase) →
      (p, op) ≠ (r.passengerId, r.operation.operation) →
        findByIdempotencyScope (w.next dist (.run i env)).db p op key =
          findByIdempotencyScope w.db p op key := by
  obtain ⟨hi, -⟩ := (BookingInv.initial h₀).run hr
  obtain ⟨hi', hgrow⟩ := hi.run hr'
  have hnext : ∀ i r phase env, w.requests i = some (r, phase) →
      w.next dist (.run i env) = ⟨(soloStatementFaulty env w.db r phase).1,
        Function.update w.requests i (some (r, (soloStatementFaulty env w.db r phase).2))⟩ := by
    intro i r phase env hreq
    simp only [BookingWorld.next, hreq]
  refine ⟨fun a ha b hb hs ↦ ?_, fun a ha hnew ↦ ?_, fun row hrow hc ↦ ?_, fun i r response h ↦ ?_,
    fun i r phase key hreq hkey hd ↦ ⟨hd.grow hgrow, fun env ↦ ⟨?_, fun hfault ↦ ?_⟩⟩,
    fun env r phase db₁ db₂ ↦ soloStatementFaulty_congr,
    fun i r phase env p op key hreq hne ↦ ?_⟩
  · obtain ⟨c, hc, hcid, hbook⟩ := hgrow a ha
    have hs' : c.scope = b.scope := (Booking.mk.inj hbook).1.trans hs
    obtain rfl := hi'.scopes c hc b hb trivial trivial hs'
    exact hcid.symm
  · exact (hi.enqueued a.id hnew).existsUnique (Table.get_of_mem ha)
  · cases hold : w₀.db.rides.get row.dedupeKey.aggregateId with
    | none => exact (hi.enqueued _ hold).exists_ride hrow hc rfl
    | some a =>
        obtain ⟨-, hgrow₀⟩ := (BookingInv.initial h₀).run hr
        obtain ⟨b, hb, hbid, -⟩ := hgrow₀ a (Table.mem_of_get hold)
        rw [← Table.key_of_get hold, ← hbid, Table.get_of_mem hb]
        rfl
  · exact (hi.requests i r _ h).named response rfl
  · rw [hnext i r phase env hreq]
    exact hd.db_eq (hi.requests i r phase hreq) hkey
  · obtain ⟨hlookup, hread, hinsert⟩ := hd.soloStatement_eq hi.scopes hfault
    rw [hnext i r phase env hreq]
    dsimp only
    rw [Function.update_self]
    refine ⟨?_, ?_⟩
    · rintro (rfl | rfl)
      · rw [hlookup]
      · rw [hread]
    · rintro fare rfl
      rw [hinsert fare]
  · rw [hnext i r phase env hreq]
    rcases soloStatementFaulty_db env w.db r phase with hdb | ⟨k, fare, -, hins⟩
    · dsimp only
      rw [hdb]
    · exact hins.find_ne hne key

/-- The bookings of passenger 10 under one key, for different intents. -/
def sampleSolo (fingerprint : String) : SoloRequest where
  passengerId := 10
  rawKey := some "k"
  operation := .solo
  fingerprint := fingerprint
  origin := ⟨0, 0⟩
  dest := ⟨1, 1⟩
  quoted := true
  scheduledFor := none

def sampleSoloEnv : SoloEnv where
  t := ⟨0, 0⟩
  dateNow := 0
  quote := .ok 500
  newId := 2

def sampleBooked : Ride := ((sampleSolo "f").params "k" 500 1).row

/-- One of them has been booked. -/
def sampleBookings : BookingWorld where
  db := { Db.empty with rides := Table.empty.insert sampleBooked }
  requests _ := none

/-- The distance of any two points. -/
def sampleApart : Point → Point → ℕ := fun _ _ ↦ 0

theorem sampleBookings_initial : sampleBookings.Initial where
  requests _ := rfl
  scopes := Table.UniqueOn.empty.insert rfl fun _ ⟨_, h, _⟩ ↦ Table.notMem_empty _ h
  fresh _ _ := by
    refine ⟨Set.eq_empty_of_forall_notMem ?_, Set.eq_empty_of_forall_notMem ?_⟩
    · rintro g ⟨⟩
    · rintro g ⟨⟩

theorem fingerprintMatches_sample : ¬ FingerprintMatches (some "f") "g" := by
  simp [FingerprintMatches]

theorem parseIdempotencyKey_sampleSolo {fingerprint : String} :
    parseIdempotencyKey (sampleSolo fingerprint).rawKey = .ok "k" := by
  have hlength : "k".length = 1 := rfl
  simp [parseIdempotencyKey, sampleSolo, KeyPattern, hlength]

/-- The other arrives and is about to look the key up: it will be told of the conflict. -/
theorem sampleBookings_conflict : ∃ tr w, Run (BookingWorld.step sampleApart) sampleBookings tr w ∧
    w.requests 1 = some (sampleSolo "g", .lookup "k") ∧
    (w.next sampleApart (.run 1 sampleSoloEnv)).requests 1 =
      some (sampleSolo "g", .failed .idempotencyKeyConflict) := by
  let w₁ : BookingWorld := sampleBookings.next sampleApart (.arrive 1 (sampleSolo "g"))
  have h₁ : sampleBookings.step sampleApart (.arrive 1 (sampleSolo "g")) w₁ := ⟨rfl, rfl⟩
  have hreceive : receive (sampleSolo "g") = .lookup "k" := by
    rw [receive, parseIdempotencyKey_sampleSolo]
    rfl
  let w₂ : BookingWorld := w₁.next sampleApart (.run 1 sampleSoloEnv)
  have h₂ : w₁.step sampleApart (.run 1 sampleSoloEnv) w₂ :=
    ⟨⟨_, _, rfl, by rintro ⟨⟩⟩, rfl⟩
  have hreq : w₂.requests 1 = some (sampleSolo "g", .lookup "k") := by
    rw [← hreceive]
    rfl
  have hdiffers : Differs w₂.db (sampleSolo "g") "k" :=
    ⟨sampleBooked, List.mem_singleton_self _, rfl, fingerprintMatches_sample⟩
  have hr := (Run.single h₁).snoc h₂
  obtain ⟨-, -, -, -, hconflict, -⟩ := one_ride_per_key sampleApart sampleBookings_initial hr .nil
  obtain ⟨-, hrun⟩ := hconflict 1 _ _ "k" hreq parseIdempotencyKey_sampleSolo hdiffers
  exact ⟨_, _, hr, hreq, ((hrun sampleSoloEnv).2 rfl).1 (Or.inl rfl)⟩

end OneRide

end Rcab.Rides
