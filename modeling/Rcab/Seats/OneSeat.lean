import Rcab.Seats.System

/-!
# One seat for a key

Whatever a keyed booking goes through, reclaims, releases, failures and retries included,
its key produces at most one seat, and every success tells that seat's pool and fare.
-/

universe u

namespace Rcab

open Rides Matching

section OneSeat

variable {D : Type u} [LinearOrder D] {dist : Point → Point → D} {w₀ w w' : World}
  {tr tr' : List (World × Event)}

theorem SeatsInv.run (h : SeatsInv w) (hr : Run (World.step dist) w tr w') : SeatsInv w' :=
  hr.invariant (fun _ _ _ hi hst ↦ hi.step hst) h

/-- A seat is there for the rest of a run. -/
theorem seat_of_run {m : PoolMember} (hi : SeatsInv w) (hm : m ∈ w.db.poolMember)
    (hr : Run (World.step dist) w tr w') : ∃ m' ∈ w'.db.poolMember, SameSeat m m' := by
  have h : SeatsInv w' ∧ ∃ m' ∈ w'.db.poolMember, SameSeat m m' := by
    refine hr.invariant (I := fun w' ↦ SeatsInv w' ∧ ∃ m' ∈ w'.db.poolMember, SameSeat m m') ?_
      ⟨hi, m, hm, .refl⟩
    rintro w₁ e w₂ ⟨hi, m₁, hm₁, h₁⟩ hst
    obtain ⟨new, hs⟩ := hi.seatStep hst
    obtain ⟨m₂, hm₂, h₂⟩ := hs.kept m₁ hm₁
    exact ⟨hi.step hst, m₂, hm₂, h₁.trans h₂⟩
  exact h.2

/-- A key has one seat ever, every success describes it, and no seat is without an agreed
fare. -/
theorem one_seat_per_key (dist : Point → Point → D) (h₀ : w₀.Initial)
    (hr : Run (World.step dist) w₀ tr w) (hr' : Run (World.step dist) w tr' w') :
    (∀ m ∈ w.db.poolMember, ∀ m' ∈ w'.db.poolMember, ∀ k, m.idempotencyKey = some k →
      m'.idempotencyKey = some k → m.passengerId = m'.passengerId → SameSeat m m') ∧
    (∀ i r response, w.requests i = some (r, .succeeded response) → ∃ m ∈ w.db.poolMember,
      m.passengerId = r.passengerId ∧ m.idempotencyKey = some r.key ∧
        m.poolId = response.sharedRideId ∧
        m.agreedFareCents = some response.perSeatPrice.amount) ∧
    ∀ m ∈ w.db.poolMember, m.agreedFareCents ≠ none := by
  have hi : SeatsInv w := (SeatsInv.initial h₀).run hr
  refine ⟨fun m hm m' hm' k hk hk' hp ↦ ?_, fun i r response h ↦ ?_, hi.seats.fare⟩
  · -- The first row is still there, and is the second.
    obtain ⟨m₁, hm₁, e⟩ := seat_of_run hi hm hr'
    have h₁ : SeatOf w'.db m'.passengerId k m₁ :=
      ⟨hm₁, e.passengerId.trans hp, e.idempotencyKey.trans hk⟩
    obtain rfl := h₁.unique (hi.run hr').seats ⟨hm', rfl, hk'⟩
    exact e
  · obtain ⟨m, ⟨hm, hp, hk⟩, hpool, hfare⟩ : Describes w.db r.passengerId r.key response :=
      hi.phases i r _ h
    exact ⟨m, hm, hp, hk, hpool, hfare⟩

/-- A booking of passenger 10. -/
def sampleRequest : SharedRequest where
  passengerId := 10
  key := "k"
  fingerprint := "f"
  origin := ⟨0, 0⟩
  dest := ⟨1, 1⟩
  key_ne := by decide

/-- A seat for 500. -/
def sampleQuote : SeatQuote := ⟨⟨500, "INR"⟩, 1, 1, "fixed_at_join"⟩

/-- A statement at an instant. -/
def sampleEnv (now : Time) (newPoolId : PoolId) : Env where
  t := ⟨now, now⟩
  dateNow := now
  quoteFare := fun _ ↦ some sampleQuote
  newPoolId := newPoolId

def sampleWorld : World := ⟨.empty, fun _ ↦ none⟩

theorem sampleWorld_initial : sampleWorld.Initial where
  requests _ := rfl
  seats := Table.notMem_empty
  records := Table.notMem_empty

/-- The passenger opens a pool. -/
def sampleBooking : List Event :=
  [.arrive 0 sampleRequest, .run 0 (sampleEnv 0 1), .run 0 (sampleEnv 5 1),
    .run 0 (sampleEnv 6 1), .run 0 (sampleEnv 7 1)]

/-- The distance of any two points. -/
def sampleDist : Point → Point → ℕ := fun _ _ ↦ 0

theorem sampleBooking_seat :
    ∃ m ∈ (sampleBooking.foldl (World.next sampleDist) sampleWorld).db.poolMember,
      m.passengerId = 10 ∧ m.idempotencyKey = some "k" ∧ m.poolId = 1 ∧
        m.agreedFareCents = some 500 := by
  have hok : Enabled Event.Allowed (World.next sampleDist) sampleWorld sampleBooking := by
    decide +kernel
  have hr := Run.of_enabled (World.step sampleDist) (fun _ _ he ↦ ⟨he, rfl⟩)
    sampleBooking hok
  have hsucc : ((sampleBooking.foldl (World.next sampleDist) sampleWorld).requests 0) =
      some (sampleRequest, .succeeded (toResponse 10 ⟨1, .opened, .open_, 1, sampleQuote⟩)) := by
    decide +kernel
  exact (one_seat_per_key sampleDist sampleWorld_initial hr .nil).2.1 0 _ _ hsucc

end OneSeat

end Rcab
