import Rcab.Rides.SharedCreate

/-!
# Rating the other party

`RatingController.rate` with `RatingService.rate` and `RatingRepository.insert`: one read of the
ride and one insert, nothing between them locked.
-/

namespace Rcab.Rating

open Rides (Fault)

abbrev RatingId := Uuid

/-- A row of `ratings`.  The two checks of the table are fields. -/
structure RatingRow where
  id : RatingId
  rideId : RideId
  raterId : Uuid
  subjectId : Uuid
  stars : ℕ
  text : Option String
  /-- `CHECK (stars BETWEEN 1 AND 5)`. -/
  stars_mem : 1 ≤ stars ∧ stars ≤ 5
  /-- `ratings_no_self_check`. -/
  no_self : raterId ≠ subjectId
deriving DecidableEq, Repr

/-- The columns of `ratings_unique_direction`. -/
def RatingRow.direction (a : RatingRow) : RideId × Uuid × Uuid := (a.rideId, a.raterId, a.subjectId)

abbrev Ratings := Table RatingRow.id

/-- `CreateRatingDto`, validated. -/
structure CreateRatingDto where
  stars : ℕ
  text : Option String := none
  stars_mem : 1 ≤ stars ∧ stars ≤ 5
deriving DecidableEq, Repr

/-- The rater is the subject of the access token. -/
structure RateRequest where
  rideId : RideId
  raterId : Uuid
  dto : CreateRatingDto
deriving DecidableEq, Repr

/-- The constraints an insert can violate. -/
inductive RatingError where
  | pkey | noSelfCheck
deriving DecidableEq, Repr

/-- The row of a request for a subject. -/
def RateRequest.row (request : RateRequest) (newId : RatingId) (subjectId : Uuid)
    (h : request.raterId ≠ subjectId) : RatingRow where
  id := newId
  rideId := request.rideId
  raterId := request.raterId
  subjectId
  stars := request.dto.stars
  text := request.dto.text
  stars_mem := request.dto.stars_mem
  no_self := h

/-- `INSERT … ON CONFLICT (ride_id, rater_id, subject_id) DO NOTHING RETURNING`. -/
def insert (newId : RatingId) (ratings : Ratings) (request : RateRequest) (subjectId : Uuid) :
    Except RatingError (Ratings × Option RatingRow) :=
  if h : request.raterId = subjectId then .error .noSelfCheck
  else if ratings.Any fun a ↦ a.direction = (request.rideId, request.raterId, subjectId) then
    .ok (ratings, none)
  else if (ratings.get newId).isSome then .error .pkey
  else .ok (ratings.insert (request.row newId subjectId h), some (request.row newId subjectId h))

/-- What the row records of its request. -/
structure RatingRow.Records (a : RatingRow) (request : RateRequest) (subjectId : Uuid) : Prop where
  rideId : a.rideId = request.rideId
  raterId : a.raterId = request.raterId
  subjectId : a.subjectId = subjectId
  stars : a.stars = request.dto.stars
  text : a.text = request.dto.text

/-- An insert adds the request's row where its direction is free, or nothing. -/
theorem insert_eq_ok {newId : RatingId} {ratings ratings' : Ratings} {request : RateRequest}
    {subjectId : Uuid} {result : Option RatingRow}
    (h : insert newId ratings request subjectId = .ok (ratings', result)) :
    request.raterId ≠ subjectId ∧
      ((result = none ∧ ratings' = ratings ∧
          ∃ a ∈ ratings, a.direction = (request.rideId, request.raterId, subjectId)) ∨
        ∃ a, result = some a ∧ a.Records request subjectId ∧ ratings.get a.id = none ∧
          (¬ ratings.Any fun b ↦ b.direction = a.direction) ∧ ratings' = ratings.insert a) := by
  unfold insert at h
  split_ifs at h with hself hany hid
  · obtain ⟨rfl, rfl⟩ := Prod.mk.inj (Except.ok.inj h)
    obtain ⟨a, ha, hdir⟩ := hany
    exact ⟨hself, Or.inl ⟨rfl, rfl, a, ha, hdir⟩⟩
  · obtain ⟨rfl, rfl⟩ := Prod.mk.inj (Except.ok.inj h)
    exact ⟨hself, Or.inr ⟨_, rfl, ⟨rfl, rfl, rfl, rfl, rfl⟩, Option.not_isSome_iff_eq_none.mp hid,
      hany, rfl⟩⟩

/-! ## The request -/

/-- `RateResult`. -/
inductive RateResult where
  | ok (rating : RatingRow)
  | notFound | notAParty | notCompleted | alreadyRated
deriving DecidableEq, Repr

inductive RatePhase where
  /-- Before `findById`. -/
  | received
  /-- Before the insert. -/
  | insert (subjectId : Uuid)
  | done (result : RateResult)
  /-- 500: a statement threw. -/
  | failed
  | crashed
deriving DecidableEq, Repr

def RatePhase.Finished : RatePhase → Prop
  | .received | .insert _ => False
  | _ => True

instance : DecidablePred RatePhase.Finished := fun phase ↦ by
  cases phase <;> unfold RatePhase.Finished <;> infer_instance

/-- The party that is not the rater. -/
def subjectOf (ride : Ride) (raterId : Uuid) : Option Uuid :=
  if raterId = ride.passengerId then ride.driverId
  else if ride.driverId = some raterId then some ride.passengerId
  else none

/-- What the service makes of the ride. -/
def receive (ride : Option Ride) (request : RateRequest) : RatePhase :=
  match ride with
  | none => .done .notFound
  | some ride =>
  if ride.status ≠ .completed then .done .notCompleted
  else match subjectOf ride request.raterId with
  | none => .done .notAParty
  | some subjectId => .insert subjectId

/-- What a statement meets outside the database. -/
structure RateEnv where
  newId : RatingId := 0
  fault : Fault := .none
deriving DecidableEq, Repr

/-- The next statement of a request. -/
def statement (env : RateEnv) (db : Db) (ratings : Ratings) (request : RateRequest) :
    RatePhase → Ratings × RatePhase
  | .received => (ratings, receive (db.rides.get request.rideId) request)
  | .insert subjectId =>
      match insert env.newId ratings request subjectId with
      | .error _ => (ratings, .failed)
      | .ok (ratings, none) => (ratings, .done .alreadyRated)
      | .ok (ratings, some rating) => (ratings, .done (.ok rating))
  | phase => (ratings, phase)

/-- The statement and what befalls it: a response can be lost, or the process. -/
def statementFaulty (env : RateEnv) (db : Db) (ratings : Ratings) (request : RateRequest)
    (phase : RatePhase) : Ratings × RatePhase :=
  let (ratings', phase') := statement env db ratings request phase
  match env.fault with
  | .none => (ratings', phase')
  | .failed true => (ratings', .failed)
  | .failed false => (ratings, .failed)
  | .crashed true => (ratings', .crashed)
  | .crashed false => (ratings, .crashed)

end Rcab.Rating
