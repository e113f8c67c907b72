import Rcab.Realtime.Order

/-!
# What the ride rooms are told

A `ride_state_changed` names the status its transaction left the ride in.
-/

universe u

namespace Rcab.Realtime

open Dispatch

variable {t : TxClock} {db db' : Db} {rideId : RideId} {event : RideStateChanged}

theorem valid_changed {actor : String} (h : event ∈ Rides.changed db rideId actor) :
    Message.Valid db (.rideStateChanged event) := by
  obtain ⟨row, hrow, rfl⟩ := List.mem_map.mp h
  exact ⟨⟨row, row.status, Option.mem_toList.mp hrow, rfl, .refl⟩, rfl⟩

/-- An accept leaves the ride as it is, or accepted. -/
theorem acceptInTx_row {accounts : Accounts} {offerId : OfferId} {driverId : DriverId}
    {trip : TripRef} {out : AcceptOutcome}
    (h : acceptInTx t db accounts offerId driverId trip = .ok (db', out)) {r : Ride}
    (hr : db'.rides.get rideId = some r) :
    r.status = .accepted ∨ db.rides.get rideId = some r := by
  refine AcceptRule.acceptInTx (R := fun db db' ↦ ∀ r, db'.rides.get rideId = some r →
    r.status = .accepted ∨ db.rides.get rideId = some r)
    { refl := fun _ _ hr ↦ Or.inr hr
      trans := fun _ _ _ h h' r hr ↦ (h' r hr).elim Or.inl (h r)
      offers := fun _ _ _ hr ↦ Or.inr hr
      guards := fun _ _ _ hr ↦ Or.inr hr
      claim := ?_ } h r hr
  rintro db db' generation u h - r hr
  cases trip with
  | solo id =>
      simp only [claimRow, claimSoloRow] at h
      split_ifs at h
      obtain ⟨rfl, -⟩ := Tx.ok_inj h
      rw [Table.get_update] at hr
      obtain ⟨r₀, hr₀, rfl⟩ := Option.map_eq_some_iff.mp hr
      split_ifs
      · exact Or.inl rfl
      · exact Or.inr hr₀
  | shared id =>
      simp only [claimRow, claimSharedRow] at h
      split_ifs at h
      obtain ⟨rfl, -⟩ := Tx.ok_inj h
      exact Or.inr hr

theorem valid_accepted {accounts : Accounts} {offerId : OfferId} {driverId : DriverId}
    {trip : TripRef} {out : AcceptOutcome}
    (h : acceptInTx t db accounts offerId driverId trip = .ok (db', out))
    (hev : event ∈ out.result.rideEvents) : Message.Valid db' (.rideStateChanged event) := by
  cases acceptInTx_eq_ok h with
  | refused reason => exact absurd hev List.not_mem_nil
  | replayed o ho hd ha => cases trip <;> exact absurd hev List.not_mem_nil
  | resolved o ho hd hl target ht reason => exact absurd hev List.not_mem_nil
  | bound o _ revoked ho hd hl hp hg hm hu =>
      cases trip with
      | shared poolId => exact absurd hev List.not_mem_nil
      | solo rideId =>
          obtain rfl := List.mem_singleton.mp hev
          -- The driver holds the ride now, and nobody did before.
          have hphase : db'.phase (.solo rideId) = .held driverId := by
            rw [← market_phase, hm]
            simp
          cases hr : db'.rides.get rideId with
          | none => simp [Db.phase, hr] at hphase
          | some r =>
              rw [phase_solo hr, Ride.phase_eq_held] at hphase
              rcases acceptInTx_row h hr with hs | hr₀
              · exact ⟨⟨r, r.status, hr, by rw [hs]; rfl, .refl⟩, rfl⟩
              · rw [phase_solo hr₀, Ride.phase_eq_window, hphase.1] at hp
                cases hp.2.1

/-- A hard-fail that ends the ride says so. -/
theorem valid_failSolo {generation : Option ℕ} {db' : Db} {notices : List Notice}
    (h : failSolo t db rideId generation = (db', notices))
    (hev : event ∈ notices.filterMap Notice.rideEvent?) :
    Message.Valid db' (.rideStateChanged event) := by
  unfold failSolo at h
  split at h
  · obtain ⟨rfl, rfl⟩ := Prod.mk.inj h
    exact absurd hev List.not_mem_nil
  rename_i db₁ revoked h₁
  obtain ⟨rfl, rfl⟩ := Prod.mk.inj h
  have hevent : event = ⟨rideId, "no_driver", "system", some (rideStatusVersion "no_driver")⟩ := by
    obtain ⟨notice, hn, hsome⟩ := List.mem_filterMap.mp hev
    rcases List.mem_append.mp hn with hn | hn
    · rcases List.mem_append.mp hn with hn | hn
      · obtain ⟨r, -, rfl⟩ := List.mem_map.mp hn
        cases hsome
      · obtain ⟨r, -, rfl⟩ := List.mem_map.mp hn
        cases hsome
    · obtain rfl := List.mem_singleton.mp hn
      exact (Option.some.inj hsome).symm
  subst hevent
  obtain h | ⟨ride, _, hride, -, h⟩ := Rides.markNoDriver_cases t db rideId _ <;> rw [h] at h₁
  · cases (Prod.mk.inj h₁).2
  obtain ⟨rfl, -⟩ := Prod.mk.inj h₁
  have hget : db.rides.get rideId = some ride := hride
  have hrow : (db.rides.update (fun r ↦ r.id = rideId)
      (fun r ↦ { r with status := .noDriver }) fun _ ↦ rfl).get rideId =
        some { ride with status := .noDriver } := by
    rw [Table.get_update, hget, Option.map_some, if_pos (Table.key_of_get hget)]
  exact ⟨⟨_, .noDriver, hrow, rfl, .refl⟩, rfl⟩

section Exec

variable {D : Type u} [LinearOrder D] (dist : Point → Point → D)

/-- **The ride rooms are told the truth**. -/
theorem valid_rideEvents (e : Step) (hev : event ∈ e.rideEvents db) :
    Message.Valid (exec dist db e) (.rideStateChanged event) := by
  cases e with
  | acceptInTx t accounts offerId driverId trip =>
      obtain ⟨out, hout, hev⟩ := List.mem_flatMap.mp hev
      cases h : acceptInTx t db accounts offerId driverId trip with
      | error e =>
          rw [h] at hout
          exact absurd hout List.not_mem_nil
      | ok r =>
          obtain ⟨db', out'⟩ := r
          rw [h] at hout
          obtain rfl := List.mem_singleton.mp hout
          simp only [exec, h, Tx.commit_ok]
          exact valid_accepted h hev
  | transition dateNow rideId driverId ev =>
      simp only [Step.rideEvents, Rides.apply] at hev
      simp only [exec]
      split at hev
      · rename_i db' h
        rw [h]
        exact valid_changed hev
      · exact absurd hev List.not_mem_nil
  | cancel t dateNow params =>
      simp only [Step.rideEvents, Rides.cancelRide] at hev
      simp only [exec]
      split at hev
      · rename_i db' revoked h
        rw [h]
        exact valid_changed hev
      · exact absurd hev List.not_mem_nil
  | markNoDriver t rideId generation =>
      have hfst : (failSolo t db rideId generation).1 =
          (Rides.markNoDriver t db rideId generation).1 := by
        unfold failSolo
        split <;> rename_i h <;> rw [h]
      simp only [exec, ← hfst]
      exact valid_failSolo rfl hev
  | _ => exact absurd hev List.not_mem_nil

end Exec

end Rcab.Realtime
