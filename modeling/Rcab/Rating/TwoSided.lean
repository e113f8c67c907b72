import Mathlib.Logic.Function.Basic
import Rcab.Rating.Service
import Rcab.Rides.Lifecycle

/-!
# Each party rates the other once

Any number of rating requests over one database, each advancing statement by statement between
those of the others, and any transaction of the trips at any point.  The read that finds the ride
completed and the insert are two statements; nothing locks the ride between them, and nothing has
to, since a completed ride stays as it is (`completed_kept`).
-/

universe u

namespace Rcab.Rating

/-! ## The system -/

/-- The trips, the ratings and the requests that have arrived. -/
structure RatingWorld where
  db : Db
  ratings : Ratings
  requests : ℕ → Option (RateRequest × RatePhase)

inductive RatingEvent where
  | arrive (i : ℕ) (request : RateRequest)
  | run (i : ℕ) (env : RateEnv)
  /-- A transaction of the trips. -/
  | trips (e : Step)

/-- A new request has a slot of its own, and an answered one does nothing more. -/
def RatingEvent.Allowed (noShowWaitMs : Time) (w : RatingWorld) : RatingEvent → Prop
  | .arrive i _ => w.requests i = none
  | .run i _ => ∃ request phase, w.requests i = some (request, phase) ∧ ¬ phase.Finished
  | .trips e => e.Calls (Rides.controllerCalls noShowWaitMs)

/-- No trips, no ratings and no requests. -/
structure RatingWorld.Initial (w : RatingWorld) : Prop where
  noTrips : w.db.NoTrips
  ratings : ∀ a, a ∉ w.ratings
  requests : ∀ i, w.requests i = none

section Step

variable {D : Type u} [LinearOrder D] (dist : Point → Point → D) (noShowWaitMs : Time)

def RatingWorld.next (w : RatingWorld) : RatingEvent → RatingWorld
  | .arrive i request =>
      { w with requests := Function.update w.requests i (some (request, .received)) }
  | .run i env =>
      match w.requests i with
      | none => w
      | some (request, phase) =>
          let (ratings, phase) := statementFaulty env w.db w.ratings request phase
          { w with ratings, requests := Function.update w.requests i (some (request, phase)) }
  | .trips e => { w with db := exec dist w.db e }

/-- The system. -/
def step (w : RatingWorld) (e : RatingEvent) (w' : RatingWorld) : Prop :=
  e.Allowed noShowWaitMs w ∧ w.next dist e = w'

end Step

/-! ## Who may rate whom -/

/-- The two parties of a completed ride, in either order. -/
structure Parties (db : Db) (rideId : RideId) (raterId subjectId : Uuid) : Prop where
  ride : ∃ r, db.rides.get rideId = some r ∧ r.status = .completed ∧
    ((r.passengerId = raterId ∧ r.driverId = some subjectId) ∨
      (r.driverId = some raterId ∧ r.passengerId = subjectId ∧ raterId ≠ r.passengerId))

variable {w : Time} {db db' : Db} {ratings ratings' : Ratings} {request : RateRequest}
  {phase : RatePhase} {rideId : RideId} {raterId subjectId subjectId' : Uuid}

/-- The ride says who the other party is. -/
theorem Parties.subject_unique (h : Parties db rideId raterId subjectId)
    (h' : Parties db rideId raterId subjectId') : subjectId = subjectId' := by
  obtain ⟨r, hr, -, hp⟩ := h.ride
  obtain ⟨r', hr', -, hp'⟩ := h'.ride
  obtain rfl := Option.some.inj (hr.symm.trans hr')
  rcases hp with ⟨hpass, hd⟩ | ⟨-, hs, hne⟩ <;> rcases hp' with ⟨hpass', hd'⟩ | ⟨-, hs', hne'⟩
  · exact Option.some.inj (hd.symm.trans hd')
  · exact absurd hpass.symm hne'
  · exact absurd hpass'.symm hne
  · exact hs.symm.trans hs'

/-- The parties of a completed ride stay its parties. -/
theorem Parties.rideRows (h : Parties db rideId raterId subjectId)
    (hi : ∀ r ∈ db.rides, r.Consistent w) (hr : RideRows (Rides.controllerCalls w) db db') :
    Parties db' rideId raterId subjectId := by
  obtain ⟨r, hget, hs, hp⟩ := h.ride
  exact ⟨r, completed_kept hi hr hget hs, hs, hp⟩

theorem parties_of_receive (h : receive (db.rides.get request.rideId) request = .insert subjectId) :
    Parties db request.rideId request.raterId subjectId := by
  unfold receive at h
  cases hr : db.rides.get request.rideId with
  | none => simp [hr] at h
  | some r =>
    rw [hr] at h
    dsimp only at h
    split_ifs at h with hs
    cases hsub : subjectOf r request.raterId with
    | none => simp [hsub] at h
    | some s =>
      rw [hsub] at h
      obtain rfl := RatePhase.insert.inj h
      refine ⟨r, hr, not_not.mp hs, ?_⟩
      unfold subjectOf at hsub
      split_ifs at hsub with hpass hdriver
      · exact Or.inl ⟨hpass.symm, hsub⟩
      · exact Or.inr ⟨hdriver, Option.some.inj hsub, hpass⟩

/-- Nothing is rated before the insert. -/
theorem receive_ne {ride : Option Ride} :
    (∀ a, receive ride request ≠ .done (.ok a)) ∧ receive ride request ≠ .done .alreadyRated := by
  unfold receive
  cases ride with
  | none => exact ⟨nofun, nofun⟩
  | some r =>
    dsimp only
    split_ifs
    · exact ⟨nofun, nofun⟩
    · cases subjectOf r request.raterId <;> exact ⟨nofun, nofun⟩

/-! ## What a run keeps -/

/-- What is so of a request at a phase. -/
structure PhaseInv (db : Db) (ratings : Ratings) (request : RateRequest) (phase : RatePhase) :
    Prop where
  insert : ∀ subjectId, phase = .insert subjectId →
    Parties db request.rideId request.raterId subjectId
  ok : ∀ a, phase = .done (.ok a) → a ∈ ratings ∧ a.Records request a.subjectId
  alreadyRated : phase = .done .alreadyRated →
    ∃ a ∈ ratings, a.rideId = request.rideId ∧ a.raterId = request.raterId

theorem PhaseInv.mono (h : PhaseInv db ratings request phase)
    (hdb : ∀ subjectId, Parties db request.rideId request.raterId subjectId →
      Parties db' request.rideId request.raterId subjectId)
    (hr : ∀ a ∈ ratings, a ∈ ratings') : PhaseInv db' ratings' request phase where
  insert s hs := hdb s (h.insert s hs)
  ok a ha := ⟨hr a (h.ok a ha).1, (h.ok a ha).2⟩
  alreadyRated hp := by
    obtain ⟨a, ha, hrec⟩ := h.alreadyRated hp
    exact ⟨a, hr a ha, hrec⟩

theorem PhaseInv.trivial (hi : ∀ s, phase ≠ .insert s) (hok : ∀ a, phase ≠ .done (.ok a))
    (ha : phase ≠ .done .alreadyRated) : PhaseInv db ratings request phase :=
  ⟨fun s h ↦ absurd h (hi s), fun a h ↦ absurd h (hok a), fun h ↦ absurd h ha⟩

structure Inv (noShowWaitMs : Time) (w : RatingWorld) : Prop where
  rides : ∀ r ∈ w.db.rides, r.Consistent noShowWaitMs
  parties : ∀ a ∈ w.ratings, Parties w.db a.rideId a.raterId a.subjectId
  unique : w.ratings.UniqueOn (fun _ ↦ True) RatingRow.direction
  /-- Nobody rates in another's name. -/
  asked : ∀ a ∈ w.ratings, ∃ i request phase, w.requests i = some (request, phase) ∧
    a.Records request a.subjectId
  phases : ∀ i request phase, w.requests i = some (request, phase) →
    PhaseInv w.db w.ratings request phase

/-- What a statement adds to the ratings. -/
structure Adds (db : Db) (ratings ratings' : Ratings) (request : RateRequest) (a : RatingRow) :
    Prop where
  free : ratings.get a.id = none
  direction : ¬ ratings.Any fun b ↦ b.direction = a.direction
  inserted : ratings' = ratings.insert a
  records : a.Records request a.subjectId
  parties : Parties db a.rideId a.raterId a.subjectId

/-- A statement adds nothing, or a row of a direction that was free. -/
theorem statement_inv (env : RateEnv) (h : PhaseInv db ratings request phase) :
    ((statement env db ratings request phase).1 = ratings ∨
      ∃ a, Adds db ratings (statement env db ratings request phase).1 request a) ∧
    PhaseInv db (statement env db ratings request phase).1 request
      (statement env db ratings request phase).2 := by
  cases phase with
  | received =>
    obtain ⟨hok, hal⟩ := receive_ne
    exact ⟨Or.inl rfl, fun s hs ↦ parties_of_receive hs, fun a ha ↦ absurd ha (hok a),
      fun ha ↦ absurd ha hal⟩
  | insert subjectId =>
    have hp := h.insert subjectId rfl
    unfold statement
    dsimp only
    cases hins : insert env.newId ratings request subjectId with
    | error e => exact ⟨Or.inl rfl, .trivial nofun nofun nofun⟩
    | ok result =>
      obtain ⟨ratings', result⟩ := result
      obtain ⟨-, ⟨rfl, rfl, a, ha, hdir⟩ | ⟨a, rfl, hrec, hfree, hdir, rfl⟩⟩ := insert_eq_ok hins
      · refine ⟨Or.inl rfl, nofun, nofun, fun _ ↦ ⟨a, ha, ?_⟩⟩
        obtain ⟨hride, hd⟩ := Prod.mk.inj hdir
        exact ⟨hride, (Prod.mk.inj hd).1⟩
      · refine ⟨Or.inr ⟨a, hfree, hdir, rfl, { hrec with subjectId := rfl }, ?_⟩, nofun, fun b hb ↦ ?_, nofun⟩
        · rw [hrec.rideId, hrec.raterId, hrec.subjectId]
          exact hp
        · obtain rfl := RateResult.ok.inj (RatePhase.done.inj hb)
          exact ⟨(Table.mem_insert hfree).mpr (Or.inr rfl), { hrec with subjectId := rfl }⟩
  | done result => exact ⟨Or.inl rfl, h⟩
  | failed => exact ⟨Or.inl rfl, h⟩
  | crashed => exact ⟨Or.inl rfl, h⟩

theorem statementFaulty_inv (env : RateEnv) (h : PhaseInv db ratings request phase) :
    ((statementFaulty env db ratings request phase).1 = ratings ∨
      ∃ a, Adds db ratings (statementFaulty env db ratings request phase).1 request a) ∧
    PhaseInv db (statementFaulty env db ratings request phase).1 request
      (statementFaulty env db ratings request phase).2 := by
  obtain ⟨hadd, hphase⟩ := statement_inv env h
  unfold statementFaulty
  dsimp only
  cases env.fault with
  | none => exact ⟨hadd, hphase⟩
  | failed committed => cases committed with
    | true => exact ⟨hadd, .trivial nofun nofun nofun⟩
    | false => exact ⟨Or.inl rfl, .trivial nofun nofun nofun⟩
  | crashed committed => cases committed with
    | true => exact ⟨hadd, .trivial nofun nofun nofun⟩
    | false => exact ⟨Or.inl rfl, .trivial nofun nofun nofun⟩

namespace Adds

variable {a : RatingRow}

theorem mem (h : Adds db ratings ratings' request a) {b : RatingRow} :
    b ∈ ratings' ↔ b ∈ ratings ∨ b = a := by
  rw [h.inserted, Table.mem_insert h.free]

end Adds

section Run

variable {D : Type u} [LinearOrder D] {dist : Point → Point → D} {w₀ v v' : RatingWorld}
  {e : RatingEvent}

theorem Inv.of_initial (h : v.Initial) : Inv w v where
  rides r hr := absurd hr (h.noTrips.rides r)
  parties a ha := absurd ha (h.ratings a)
  unique a ha := absurd ha (h.ratings a)
  asked a ha := absurd ha (h.ratings a)
  phases i request phase hi := by
    rw [h.requests i] at hi
    cases hi

/-- One step keeps the invariant, and every row. -/
theorem Inv.step (h : Inv w v) (hst : step dist w v e v') :
    Inv w v' ∧ ∀ a ∈ v.ratings, a ∈ v'.ratings := by
  obtain ⟨hal, rfl⟩ := hst
  cases e with
  | arrive i request =>
    refine ⟨⟨h.rides, h.parties, h.unique, fun a ha ↦ ?_, fun j request' phase hj ↦ ?_⟩,
      fun _ ha ↦ ha⟩
    · obtain ⟨j, request', phase, hj, hrec⟩ := h.asked a ha
      have hji : j ≠ i := by
        rintro rfl
        rw [show v.requests j = none from hal] at hj
        cases hj
      exact ⟨j, request', phase, by simpa [RatingWorld.next, hji] using hj, hrec⟩
    · simp only [RatingWorld.next, Function.update_apply] at hj
      split_ifs at hj with hji
      · obtain ⟨rfl, rfl⟩ := Prod.mk.inj (Option.some.inj hj)
        exact .trivial nofun nofun nofun
      · exact h.phases j request' phase hj
  | run i env =>
    obtain ⟨request, phase, hi, -⟩ := hal
    have hst := statementFaulty_inv env (h.phases i request phase hi)
    simp only [RatingWorld.next, hi]
    rcases hst with ⟨hadd, hphase⟩
    have hgrow : ∀ a ∈ v.ratings, a ∈ (statementFaulty env v.db v.ratings request phase).1 := by
      rcases hadd with heq | ⟨b, hb⟩
      · rw [heq]
        exact fun _ ha ↦ ha
      · exact fun a ha ↦ hb.mem.mpr (Or.inl ha)
    refine ⟨⟨h.rides, ?_, ?_, ?_, fun j request' phase' hj ↦ ?_⟩, hgrow⟩
    · intro a ha
      rcases hadd with heq | ⟨b, hb⟩
      · exact h.parties a (heq ▸ ha)
      · rcases hb.mem.mp ha with ha | rfl
        · exact h.parties a ha
        · exact hb.parties
    · rcases hadd with heq | ⟨b, hb⟩
      · dsimp only
        rw [heq]
        exact h.unique
      · dsimp only
        rw [hb.inserted]
        exact h.unique.insert hb.free fun _ hany ↦ hb.direction (by simpa using hany)
    · have hold : ∀ a ∈ v.ratings, ∃ j request' phase', Function.update v.requests i
          (some (request, (statementFaulty env v.db v.ratings request phase).2)) j =
            some (request', phase') ∧ a.Records request' a.subjectId := by
        intro a ha
        obtain ⟨j, request', phase', hj, hrec⟩ := h.asked a ha
        by_cases hji : j = i
        · subst hji
          obtain ⟨rfl, rfl⟩ := Prod.mk.inj (Option.some.inj (hi.symm.trans hj))
          exact ⟨j, request, _, Function.update_self .., hrec⟩
        · exact ⟨j, request', phase', by simpa [hji] using hj, hrec⟩
      intro a ha
      rcases hadd with heq | ⟨b, hb⟩
      · exact hold a (heq ▸ ha)
      · rcases hb.mem.mp ha with ha | rfl
        · exact hold a ha
        · exact ⟨i, request, _, Function.update_self .., hb.records⟩
    · simp only [Function.update_apply] at hj
      split_ifs at hj with hji
      · obtain ⟨rfl, rfl⟩ := Prod.mk.inj (Option.some.inj hj)
        exact hphase
      · exact (h.phases j request' phase' hj).mono (fun _ hp ↦ hp) hgrow
  | trips e =>
    have hrows : RideRows _ v.db (exec dist v.db e) := rideRows_exec dist hal
    refine ⟨⟨hrows.forall_mem (fun params _ ↦ .row params) (fun _ _ hch h ↦ h.changes hch) h.rides,
      fun a ha ↦ (h.parties a ha).rideRows h.rides hrows, h.unique, h.asked,
      fun i request phase hi ↦ ?_⟩,
      fun _ ha ↦ ha⟩
    exact (h.phases i request phase hi).mono (fun _ hp ↦ hp.rideRows h.rides hrows) fun _ ha ↦ ha

theorem Inv.of_reachable (h₀ : w₀.Initial) (h : Reachable (Rating.step dist w) w₀ v) : Inv w v :=
  h.invariant (fun _ _ _ hi hst ↦ (hi.step hst).1) (.of_initial h₀)

/-- **Every rating is one party's of the other, for a completed ride, and the only one in its
direction, as its rater asked for it.  What a request was told of its rating is so, and no rating is
changed or removed.** -/
theorem two_sided (h₀ : w₀.Initial) (h : Reachable (Rating.step dist w) w₀ v) :
    (∀ a ∈ v.ratings, Parties v.db a.rideId a.raterId a.subjectId) ∧
    (∀ a ∈ v.ratings, ∀ b ∈ v.ratings, a.rideId = b.rideId → a.raterId = b.raterId → a = b) ∧
    (∀ a ∈ v.ratings, ∃ i request phase, v.requests i = some (request, phase) ∧
      a.Records request a.subjectId) ∧
    (∀ i request a, v.requests i = some (request, .done (.ok a)) →
      a ∈ v.ratings ∧ a.Records request a.subjectId) ∧
    (∀ i request, v.requests i = some (request, .done .alreadyRated) →
      ∃ a ∈ v.ratings, a.rideId = request.rideId ∧ a.raterId = request.raterId) ∧
    ∀ v', Reachable (Rating.step dist w) v v' → ∀ a ∈ v.ratings, a ∈ v'.ratings := by
  have hi := Inv.of_reachable h₀ h
  refine ⟨hi.parties, fun a ha b hb hride hrater ↦ ?_, hi.asked, fun i request a hr ↦ ?_,
    fun i request hr ↦ ?_, fun v' hr ↦ ?_⟩
  · have hpa := hi.parties a ha
    rw [hride, hrater] at hpa
    refine hi.unique a ha b hb True.intro True.intro ?_
    unfold RatingRow.direction
    rw [hride, hrater, hpa.subject_unique (hi.parties b hb)]
  · exact (hi.phases i request _ hr).ok a rfl
  · exact (hi.phases i request _ hr).alreadyRated rfl
  · refine (hr.invariant (I := fun v' ↦ Inv w v' ∧ ∀ a ∈ v.ratings, a ∈ v'.ratings)
      (fun _ _ _ ih hst ↦ ?_) ⟨hi, fun _ ha ↦ ha⟩).2
    exact ⟨(ih.1.step hst).1, fun a ha ↦ (ih.1.step hst).2 a (ih.2 a ha)⟩

end Run

/-- The passenger rates driver 7 after the trip. -/
def samplePraise : RateRequest := ⟨1, 10, { stars := 5, stars_mem := ⟨by decide, le_rfl⟩ }⟩

def sampleBefore : RatingWorld := ⟨.empty, .empty, fun _ ↦ none⟩

def sampleEvents : List RatingEvent :=
  [.trips (.createRide ⟨0, 0⟩ sampleMissed), .trips (.claimSolo ⟨5, 5⟩ 1 7),
    .trips (.transition 50 1 7 .startEnRoute), .trips (.transition 100 1 7 .markArrived),
    .trips (.transition 150 1 7 .startRide), .trips (.transition 900 1 7 .endRide),
    .arrive 0 samplePraise, .run 0 {}, .run 0 { newId := 31 }]

def sampleRated : RatingWorld :=
  sampleEvents.foldl (RatingWorld.next (D := ℕ) fun _ _ ↦ 0) sampleBefore

theorem reachable_sampleRated :
    Reachable (step (D := ℕ) (fun _ _ ↦ 0) Rides.defaultNoShowWaitMs) sampleBefore sampleRated := by
  have hok : Enabled (RatingEvent.Allowed Rides.defaultNoShowWaitMs)
      (RatingWorld.next (D := ℕ) fun _ _ ↦ 0) sampleBefore sampleEvents :=
    ⟨trivial, trivial, trivial, trivial, trivial, trivial, rfl, ⟨_, _, rfl, by decide⟩,
      ⟨_, _, rfl, by decide⟩, trivial⟩
  exact ⟨_, Run.of_enabled _ (fun _ _ h ↦ ⟨h, rfl⟩) sampleEvents hok⟩

theorem sampleRated_parties :
    ∃ a ∈ sampleRated.ratings, Parties sampleRated.db a.rideId a.raterId a.subjectId := by
  have h : sampleRated.ratings.Any fun a ↦ a.stars = 5 := by decide
  obtain ⟨a, ha, -⟩ := h
  exact ⟨a, ha, (two_sided ⟨Db.empty_noTrips, Table.notMem_empty, fun _ ↦ rfl⟩
    reachable_sampleRated).1 a ha⟩

end Rcab.Rating
