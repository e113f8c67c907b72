import Rcab.RideLifecycle.ConfirmStop

/-!
# A rule for the stop confirmation

A confirmation stamps a stop and writes its pool, at most three times.  A relation that each
of these writes keeps to, the confirmation keeps to.
-/

namespace Rcab

open RideLifecycle

/-- A relation that the writes of a confirmation keep to. -/
structure ConfirmRule (t : TxClock) (poolId : PoolId) (R : Db → Db → Prop) : Prop where
  refl : ∀ db, R db db
  trans : ∀ db db' db'', R db db' → R db' db'' → R db db''
  stamp : ∀ db db' sequenceIndex s, Matching.confirm t db poolId sequenceIndex = (db', s) → R db db'
  start : ∀ db, (∃ s ∈ db.sharedRides, s.rideId = poolId ∧ s.poolState.Claimable) →
    R db (db.updatePool t.now poolId SharedRide.start SharedRide.start_rideId)
  complete : ∀ db, R db (db.updatePool t.now poolId (SharedRide.complete t.now)
    (SharedRide.complete_rideId t.now))
  guards : ∀ db driverActiveAssignment, R db { db with driverActiveAssignment }
  touch : ∀ db, R db (db.updatePool t.now poolId fun s ↦ s)

namespace ConfirmRule

variable {t : TxClock} {input : StopConfirmInput} {R : Db → Db → Prop} {db db' : Db}
  {r : StopConfirmResult}

theorem confirmPending (hR : ConfirmRule t input.rideId R) {stops : List RideStop}
    (h : confirmPending t db input stops = .ok (db', r)) : R db db' := by
  obtain ⟨db₁, updated, db₂, _, db₃, u, version, h₁, h₂, -, h₃, h₄, -⟩ := confirmPending_cases h
  have hstart : R db₁ db₂ := by
    rcases h₂ with rfl | rfl
    · exact hR.refl _
    rcases Matching.markRideStarted_cases t db₁ input.rideId with he | ⟨hs, he⟩ <;> rw [he]
    · exact hR.refl _
    · exact hR.start db₁ hs
  have hdone : R db₂ db₃ := by
    rcases completeWhenDone_cases h₃ with rfl | ⟨-, rfl⟩
    · exact hR.refl _
    · exact hR.trans _ _ _ (hR.complete db₂) (hR.guards _ _)
  obtain ⟨rfl, -⟩ := Prod.mk.inj h₄
  exact hR.trans _ _ _ (hR.trans _ _ _ (hR.stamp _ _ _ _ h₁) hstart)
    (hR.trans _ _ _ hdone (hR.touch db₃))

theorem confirmStop (hR : ConfirmRule t input.rideId R)
    (h : confirmStop t db input = .ok (db', r)) : R db db' := by
  rcases confirmStop_cases h with rfl | ⟨-, -, -, h⟩
  · exact hR.refl _
  · exact hR.confirmPending h

end ConfirmRule

end Rcab
