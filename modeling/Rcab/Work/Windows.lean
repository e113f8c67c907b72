import Rcab.Work.Intents

/-!
# The windows of a scheduled ride

A scheduled ride without a driver goes from window to window.  Two closers race to re-arm it, the
hard-fail worker and the reconciler, against an accept, a cancellation and the wake.  Each window
is closed once, by whoever comes first, and the passenger hears of the first re-arm only
(`windows_in_order`).
-/

universe u

namespace Rcab

open Dispatch (AcceptOutcome Live Notice)
open Outbox (Windows)
open Scheduled (ScheduledRetryResult Retryable)

/-! ## A ride that is no longer requested -/

theorem RideStep.not_requested {wakes : ℕ → Prop} {v v' : RideView} (hst : RideStep wakes v v')
    (h : ∃ r, v.row = some r ∧ r.status ≠ .requested) :
    ∃ r, v'.row = some r ∧ r.status ≠ .requested := by
  obtain ⟨r, hrow, hs⟩ := h
  have hsame : ∀ {r' : Ride}, v.row = some r' → r' = r := fun h ↦
    Option.some.inj (h.symm.trans hrow)
  cases hst with
  | created r' hnone =>
      rw [hrow] at hnone
      cases hnone
  | booked r' hnone =>
      rw [hrow] at hnone
      cases hnone
  | woken r' g hrow' hs' => exact absurd (hsame hrow' ▸ hs') hs
  | rearmed r' hrow' hret => exact absurd (hsame hrow' ▸ hret.status) hs
  | moved r₀ r' hrow' hm => exact ⟨r', rfl, hm.status.ne_requested⟩

/-- An accept that binds the ride has it accepted. -/
theorem Dispatch.acceptInTx_not_requested {t : TxClock} {db db' : Db} {accounts : Dispatch.Accounts}
    {offerId : OfferId} {driverId : DriverId} {rideId : RideId} {g : ℕ}
    {revoked : List Dispatch.RevokedOffer}
    (h : Dispatch.acceptInTx t db accounts offerId driverId (.solo rideId) =
      .ok (db', ⟨.ok (.solo rideId) g false, revoked⟩)) :
    ∃ r, db'.rides.get rideId = some r ∧ r.status ≠ .requested := by
  have hphase : db'.phase (.solo rideId) = .held driverId := by
    generalize hout : (⟨.ok (.solo rideId) g false, revoked⟩ : AcceptOutcome) = out at h
    cases acceptInTx_eq_ok h with
    | refused reason => cases hout
    | replayed o ho hd ha => cases hout
    | resolved o ho hd hl target ht reason => cases hout
    | bound o _ revoked' ho hd hl hp hg hm hu =>
        rw [← market_phase, hm]
        simp
  cases hr : db'.rides.get rideId with
  | none => simp [Db.phase, hr] at hphase
  | some r =>
      rw [phase_solo hr, Ride.phase_eq_held] at hphase
      refine ⟨r, rfl, fun hs ↦ ?_⟩
      rw [hs] at hphase
      exact hphase.2

/-- A cancellation that is granted has the ride cancelled. -/
theorem Rides.cancel_not_requested {t : TxClock} {db : Db} {dateNow : Time}
    {params : Rides.CancelRide} {revoked : List Dispatch.RevokedOffer}
    (h : (Rides.cancel t db dateNow params).2 = .ok revoked) :
    ∃ r, (Rides.cancel t db dateNow params).1.rides.get params.rideId = some r ∧
      r.status ≠ .requested := by
  unfold Rides.cancel at h ⊢
  cases hr : db.rides.get params.rideId with
  | none => simp [hr] at h
  | some current =>
      simp only [hr] at h ⊢
      split_ifs at h ⊢ with hown
      have hid : current.id = params.rideId := Table.key_of_get hr
      cases htarget : Rides.cancelTarget params dateNow current with
      | error refusal =>
          -- A refusal is not a grant.
          simp only [htarget] at h
          unfold Rides.cancelTarget at htarget
          split_ifs at htarget
          · cases (Except.error.inj htarget).trans h
          · split at htarget
            · cases (Except.error.inj htarget).trans h
            · split_ifs at htarget
              cases (Except.error.inj htarget).trans h
          · cases (Except.error.inj htarget).trans h
      | ok target =>
          have hne := (Rides.cancelTarget_advances htarget).ne_requested
          refine ⟨{ current with
            status := target
            cancelledAt := some dateNow
            cancelledBy := some params.actor
            cancelReason := params.reason }, ?_, hne⟩
          dsimp only
          cases hd : current.driverId <;>
            simp [Dispatch.release, Dispatch.revokeLiveForTrip, Dispatch.resolveWhere, hr, hid, hd]

namespace Work

/-! ## Re-arms -/

/-- The re-arm of the ride an event performs, if it performs one. -/
def rearmOf (rideId : RideId) : System × Event → Option ScheduledRetryResult
  | (s, .trip (.rearmScheduledRide t id expected)) =>
      if id = rideId then (Scheduled.rearmScheduledRide t s.db id expected).2 else none
  | (s, .hardFail t (.solo id) generation _) =>
      if id = rideId then (Scheduled.rearmScheduledRide t s.db id generation).2 else none
  | _ => none

/-- The event closes the window `g` of the ride by a re-arm. -/
def closes (rideId : RideId) (g : ℕ) (p : System × Event) : Bool :=
  (rearmOf rideId p).map ScheduledRetryResult.previousGeneration = some g

/-- The event is an accept or a cancellation of the ride, and it commits. -/
def Taken (rideId : RideId) : System × Event → Prop
  | (s, .trip (.acceptInTx t accounts offerId driverId (.solo id))) =>
      id = rideId ∧ ∃ db' g revoked,
        Dispatch.acceptInTx t s.db accounts offerId driverId (.solo id) =
          .ok (db', ⟨.ok (.solo id) g false, revoked⟩)
  | (s, .trip (.cancel t dateNow params)) =>
      params.rideId = rideId ∧ ∃ revoked, (Rides.cancel t s.db dateNow params).2 = .ok revoked
  | _ => False

/-- The event delivers a hard-fail, a reconciler's re-arm or a wake of a generation that is over. -/
def Superseded (rideId : RideId) : System × Event → Prop
  | (s, .hardFail _ (.solo id) (some g) _) | (s, .trip (.rearmScheduledRide _ id (some g)))
  | (s, .trip (.wakeScheduled id g)) =>
      id = rideId ∧ ∃ r, s.db.rides.get id = some r ∧ g < r.dispatchGeneration
  | _ => False

/-- The window of the ride was closed and the next one opened, with its intent. -/
def Reopened (rideId : RideId) (res : ScheduledRetryResult) (db db' : Db) : Prop :=
  ∃ r, db.rides.get rideId = some r ∧ res.previousGeneration = r.dispatchGeneration ∧
    res.generation = r.dispatchGeneration + 1 ∧
    db'.rides.get rideId = some { r with dispatchGeneration := r.dispatchGeneration + 1 } ∧
    (∀ o ∈ db'.dispatchOffer, o.trip = .solo rideId → ¬ Live o) ∧
    db.outbox.get ⟨.rideDispatchRequested, rideId, r.dispatchGeneration + 1⟩ = none ∧
    Outbox.IntentPending db' ⟨.rideDispatchRequested, rideId, r.dispatchGeneration + 1⟩

def isRetry (rideId : RideId) : Notice → Bool
  | .rideDispatchRetry _ id _ => id = rideId
  | _ => false

section Steps

variable {D : Type u} [LinearOrder D] {dist : Point → Point → D} {cfg : Windows} {s s' : System}
  {e : Event} {rideId : RideId} {res : ScheduledRetryResult}

/-- What a ride's row keeps through the machine's steps it keeps through the system's. -/
theorem keeps_row {P : Option Ride → Prop} (hst : step dist cfg s e s')
    (hP : ∀ v v', RideStep (fun _ ↦ True) v v' → P v.row → P v'.row) (id : RideId)
    (h : P (s.db.rides.get id)) : P (s'.db.rides.get id) := by
  obtain ⟨-, rfl⟩ := hst
  have hexec : ∀ e : Step, P ((exec dist s.db e).rides.get id) := by
    intro e
    have hwakes : e.WakesIn fun _ ↦ True := by cases e <;> trivial
    exact (rideSim_exec dist e hwakes).keeps (P := fun v ↦ P v.row) hP id h
  cases e with
  | trip e => exact hexec e
  | hardFail t trip generation told =>
      obtain ⟨e, -, he⟩ := handleHardFail_exec dist t s.db trip generation
      show P ((Dispatch.handleHardFail t s.db trip generation).1.rides.get id)
      rw [he]
      exact hexec e
  | outbox e => exact h
  | query answer => exact h

/-- A re-arm is of a ride that is waiting, and for its generation. -/
theorem rearmOf_eq_some (h : rearmOf rideId (s, e) = some res) :
    ∃ r, s.db.rides.get rideId = some r ∧ Retryable r ∧
      res.previousGeneration = r.dispatchGeneration ∧
      res.generation = r.dispatchGeneration + 1 := by
  have hsome : ∃ t expected,
      (Scheduled.rearmScheduledRide t s.db rideId expected).2 = some res := by
    unfold rearmOf at h
    split at h
    · rename_i s t id expected heq
      obtain ⟨rfl, rfl⟩ := Prod.mk.inj heq
      split_ifs at h with hid
      exact ⟨t, expected, hid ▸ h⟩
    · rename_i s t id generation told heq
      obtain ⟨rfl, rfl⟩ := Prod.mk.inj heq
      split_ifs at h with hid
      exact ⟨t, generation, hid ▸ h⟩
    · cases h
  obtain ⟨t, expected, hres⟩ := hsome
  obtain ⟨r, hr, hret, -, hprev, hgen, -⟩ := Scheduled.rearmScheduledRide_eq_some hres
  exact ⟨r, hr, hret, hprev, hgen⟩

/-- What it writes, be it the reconciler's or a hard-fail worker's. -/
theorem next_rearmOf (dist : Point → Point → D) (h : rearmOf rideId (s, e) = some res) {r : Ride}
    (hr : s.db.rides.get rideId = some r) :
    ∃ t, (next dist s e).db = Scheduled.rearmed t s.db rideId r.dispatchGeneration := by
  have hwrites : ∀ {t : TxClock} {expected : Option ℕ},
      (Scheduled.rearmScheduledRide t s.db rideId expected).2 = some res →
      (Scheduled.rearmScheduledRide t s.db rideId expected).1 =
        Scheduled.rearmed t s.db rideId r.dispatchGeneration := by
    intro t expected hres
    obtain ⟨r', hr', -, hdb, -⟩ := Scheduled.rearmScheduledRide_eq_some hres
    obtain rfl := Option.some.inj (hr.symm.trans hr')
    exact hdb
  unfold rearmOf at h
  split at h
  · rename_i s t id expected heq
    obtain ⟨rfl, rfl⟩ := Prod.mk.inj heq
    split_ifs at h with hid
    subst hid
    exact ⟨t, hwrites h⟩
  · rename_i s t id generation told heq
    obtain ⟨rfl, rfl⟩ := Prod.mk.inj heq
    split_ifs at h with hid
    subst hid
    refine ⟨t, (Eq.trans ?_ (hwrites h))⟩
    obtain ⟨r, hr, hret, -⟩ := Scheduled.rearmScheduledRide_eq_some h
    have hany : s.db.rides.Any fun r ↦ r.id = id ∧ r.type = .scheduled :=
      ⟨r, Table.mem_of_get hr, Table.key_of_get hr, hret.type⟩
    show (Dispatch.handleHardFail t s.db (.solo id) generation).1 = _
    simp only [Dispatch.handleHardFail, hany, ↓reduceIte, Dispatch.retryScheduledRide]
    split <;> rename_i heq <;> rw [heq]
  · cases h

theorem reopened (hi : Consistent s) (h : rearmOf rideId (s, e) = some res) :
    Reopened rideId res s.db (next dist s e).db := by
  obtain ⟨r, hr, -, hprev, hgen⟩ := rearmOf_eq_some h
  obtain ⟨t, hdb⟩ := next_rearmOf dist h hr
  rw [hdb]
  -- No intent is ahead of the ride.
  have hfresh : s.db.outbox.get ⟨.rideDispatchRequested, rideId, r.dispatchGeneration + 1⟩ =
      none := by
    by_contra hne
    obtain ⟨r', hr', hle⟩ := (hi.rides rideId).upTo (r.dispatchGeneration + 1)
      (Option.isSome_iff_ne_none.mpr hne)
    obtain rfl := Option.some.inj (hr.symm.trans hr')
    omega
  refine ⟨r, hr, hprev, hgen, Scheduled.get_rearmed hr,
    fun o ho htrip ↦ Scheduled.not_live_rearmed ho htrip, hfresh, ?_⟩
  refine Outbox.enqueueOutbox_pending fun row hrow ↦ ?_
  exact absurd (hrow.symm.trans hfresh) (by simp)

/-- Nothing comes of a delivery for a generation that is over. -/
theorem next_superseded (h : Superseded rideId (s, e)) : next dist s e = s := by
  unfold Superseded at h
  split at h
  · rename_i s t id g told heq
    obtain ⟨rfl, rfl⟩ := Prod.mk.inj heq
    obtain ⟨-, r, hr, hg⟩ := h
    have hstale : Dispatch.handleHardFail t s.db (.solo id) (some g) = (s.db, []) := by
      have hmark : Rides.markNoDriver t s.db id (some g) = (s.db, none) := by
        unfold Rides.markNoDriver Dispatch.lockSoloTrip
        simp only [hr]
        split_ifs with hfree hstale
        · rfl
        · rfl
        · exact absurd (by simpa using Nat.ne_of_lt hg) hstale
      simp only [Dispatch.handleHardFail, Dispatch.retryScheduledRide, Dispatch.failSolo, hmark,
        Scheduled.rearmScheduledRide_of_ne t hr (Nat.ne_of_lt hg), ite_self]
    simp [next, hstale]
  · rename_i s t id g heq
    obtain ⟨rfl, rfl⟩ := Prod.mk.inj heq
    obtain ⟨-, r, hr, hg⟩ := h
    simp [next, exec, Scheduled.rearmScheduledRide_of_ne t hr (Nat.ne_of_lt hg)]
  · rename_i s id g heq
    obtain ⟨rfl, rfl⟩ := Prod.mk.inj heq
    obtain ⟨-, r, hr, hg⟩ := h
    have hno : ∀ r' ∈ s.db.rides, ¬ Scheduled.Wakeable id g r' := by
      rintro r' hr' ⟨hid, -, -, hgen⟩
      obtain rfl : r' = r :=
        Table.unique hr' (Table.mem_of_get hr) (hid.trans (Table.key_of_get hr).symm)
      omega
    simp only [next, exec, Scheduled.wakeScheduled, Table.update_eq_self hno]
  · exact h.elim

/-- A ride whose window `g` was closed is past it. -/
theorem past_of_closes {g : ℕ} (hst : step dist cfg s e s') (h : closes rideId g (s, e) = true) :
    ∃ r, s'.db.rides.get rideId = some r ∧ g < r.dispatchGeneration := by
  obtain ⟨-, rfl⟩ := hst
  obtain ⟨res, hres, hg⟩ := Option.map_eq_some_iff.mp (of_decide_eq_true h)
  obtain ⟨r, hr, -, hprev, -⟩ := rearmOf_eq_some hres
  obtain ⟨t, hdb⟩ := next_rearmOf dist hres hr
  rw [hdb]
  refine ⟨_, Scheduled.get_rearmed hr, ?_⟩
  show g < r.dispatchGeneration + 1
  omega

/-- No window of a ride is closed that the ride is past. -/
theorem not_closes_of_past {g : ℕ}
    (h : ∃ r, s.db.rides.get rideId = some r ∧ g < r.dispatchGeneration) :
    closes rideId g (s, e) = false := by
  obtain ⟨r, hr, hlt⟩ := h
  refine decide_eq_false fun hc ↦ ?_
  obtain ⟨res, hres, hg⟩ := Option.map_eq_some_iff.mp hc
  obtain ⟨r', hr', -, hprev, -⟩ := rearmOf_eq_some hres
  obtain rfl := Option.some.inj (hr.symm.trans hr')
  omega

/-- Nor is any of a ride that is no longer requested. -/
theorem rearmOf_of_not_requested
    (h : ∃ r, s.db.rides.get rideId = some r ∧ r.status ≠ .requested) :
    rearmOf rideId (s, e) = none := by
  obtain ⟨r, hr, hs⟩ := h
  cases hres : rearmOf rideId (s, e) with
  | none => rfl
  | some res =>
      obtain ⟨r', hr', hret, -⟩ := rearmOf_eq_some hres
      obtain rfl := Option.some.inj (hr.symm.trans hr')
      exact absurd hret.status hs

theorem not_requested_of_taken (hst : step dist cfg s e s') (h : Taken rideId (s, e)) :
    ∃ r, s'.db.rides.get rideId = some r ∧ r.status ≠ .requested := by
  obtain ⟨-, rfl⟩ := hst
  unfold Taken at h
  split at h
  · rename_i s t accounts offerId driverId id heq
    obtain ⟨rfl, rfl⟩ := Prod.mk.inj heq
    obtain ⟨rfl, db', g, revoked, hok⟩ := h
    have hdb : exec dist s.db (.acceptInTx t accounts offerId driverId (.solo id)) = db' := by
      simp only [exec, hok, Tx.commit_ok]
    show ∃ r, (exec dist s.db _).rides.get id = some r ∧ _
    rw [hdb]
    exact Dispatch.acceptInTx_not_requested hok
  · rename_i s t dateNow params heq
    obtain ⟨rfl, rfl⟩ := Prod.mk.inj heq
    obtain ⟨rfl, revoked, hok⟩ := h
    exact Rides.cancel_not_requested hok
  · exact h.elim

/-! ## Notices -/

theorem countP_notifyRevoked (trip : TripRef) (revoked : List Dispatch.RevokedOffer) :
    (Dispatch.notifyRevoked trip revoked).countP (isRetry rideId) = 0 :=
  List.countP_eq_zero.mpr fun n hn ↦ by
    obtain ⟨r, -, rfl⟩ := List.mem_map.mp hn
    simp [isRetry]

/-- A hard-fail that closes no window tells nobody of a retry. -/
theorem countP_failSolo (t : TxClock) (db : Db) (id : RideId) (generation : Option ℕ) :
    (Dispatch.failSolo t db id generation).2.countP (isRetry rideId) = 0 := by
  unfold Dispatch.failSolo
  split
  · rfl
  · simp [countP_notifyRevoked, isRetry, Function.comp_def]

/-- A retry is told of when the first window is closed, and then once. -/
theorem countP_handleHardFail (rideId : RideId) (s : System) (t : TxClock) (trip : TripRef)
    (generation : Option ℕ)
    (told : Bool) : (Dispatch.handleHardFail t s.db trip generation).2.countP (isRetry rideId) ≤
      if closes rideId 1 (s, .hardFail t trip generation told) then 1 else 0 := by
  cases trip with
  | shared poolId =>
      simp only [Dispatch.handleHardFail]
      split
      · exact Nat.zero_le _
      · exact (countP_notifyRevoked _ _).le.trans (Nat.zero_le _)
  | solo id =>
      simp only [Dispatch.handleHardFail]
      by_cases hany : s.db.rides.Any fun r ↦ r.id = id ∧ r.type = .scheduled
      swap
      · rw [if_neg hany]
        exact (countP_failSolo t s.db id generation).le.trans (Nat.zero_le _)
      rw [if_pos hany]
      unfold Dispatch.retryScheduledRide
      split
      · exact Nat.zero_le _
      rename_i db res heq
      have hres : (Scheduled.rearmScheduledRide t s.db id generation).2 = some res := by rw [heq]
      obtain ⟨r, -, -, -, hprev, -, -, hfirst⟩ := Scheduled.rearmScheduledRide_eq_some hres
      rw [List.countP_append, countP_notifyRevoked, Nat.zero_add]
      by_cases hf : res.firstRetry = true ∧ id = rideId
      · obtain ⟨hf, rfl⟩ := hf
        have hcloses : closes id 1 (s, .hardFail t (.solo id) generation told) = true := by
          have h1 : r.dispatchGeneration = 1 := of_decide_eq_true (hfirst ▸ hf)
          simp [closes, rearmOf, hres, hprev, h1]
        rw [if_pos hcloses]
        exact List.countP_le_length.trans (by rw [if_pos hf]; rfl)
      · -- Nobody is told, or somebody else is.
        refine le_of_eq_of_le (List.countP_eq_zero.mpr fun n hn ↦ ?_) (Nat.zero_le _)
        split_ifs at hn with hfirst'
        · rw [List.mem_singleton.mp hn]
          simpa [isRetry] using fun hid ↦ hf ⟨hfirst', hid⟩
        · cases hn

end Steps

/-! ## Runs -/

/-- What any run keeps to, for one ride. -/
structure WindowsInOrder {D : Type u} [LinearOrder D] (dist : Point → Point → D) (rideId : RideId)
    (tr : List (System × Event)) (s : System) : Prop where
  /-- Each window is closed once at most. -/
  once : ∀ g, tr.countP (closes rideId g) ≤ 1
  /-- Who closes a window opens the next. -/
  reopens : ∀ p ∈ tr, ∀ res, rearmOf rideId p = some res →
    Reopened rideId res p.1.db (next dist p.1 p.2).db
  /-- A late delivery changes nothing. -/
  superseded : ∀ p ∈ tr, Superseded rideId p → next dist p.1 p.2 = p.1
  /-- Once the ride is taken or given up, its windows are over. -/
  ended : ∀ tr₁ p tr₂, tr = tr₁ ++ p :: tr₂ → Taken rideId p → ∀ q ∈ tr₂, rearmOf rideId q = none
  /-- The passenger hears of one re-arm at most. -/
  retry : s.sent.countP (isRetry rideId) ≤ 1

section Runs

variable {D : Type u} [LinearOrder D] {dist : Point → Point → D} {cfg : Windows}
  {s₀ s : System} {tr : List (System × Event)} {rideId : RideId}

/-- Each window of the ride is closed once. -/
theorem closes_once (hr : Run (step dist cfg) s₀ tr s) (g : ℕ) :
    tr.countP (closes rideId g) ≤ 1 := by
  refine hr.countP_le_one (I := fun _ ↦ True)
    (Q := fun s ↦ ∃ r, s.db.rides.get rideId = some r ∧ g < r.dispatchGeneration) trivial
    (fun _ _ _ _ _ ↦ trivial) (fun _ _ _ _ hst hc ↦ past_of_closes hst hc) ?_
    fun _ _ _ _ _ hq ↦ not_closes_of_past hq
  intro s e s' _ hst hq
  refine keeps_row (P := fun row ↦ ∃ r, row = some r ∧ g < r.dispatchGeneration) hst ?_ rideId hq
  rintro v v' hride ⟨r, hrow, hlt⟩
  obtain ⟨r', hrow', -, -, hle⟩ := hride.kept hrow
  exact ⟨r', hrow', hlt.trans_le hle⟩

/-- No re-arm comes after a state in which the ride is no longer requested. -/
theorem rearmOf_none_after (hr : Run (step dist cfg) s₀ tr s)
    (h : ∃ r, s₀.db.rides.get rideId = some r ∧ r.status ≠ .requested) :
    ∀ q ∈ tr, rearmOf rideId q = none := by
  have hno := hr.none_after (I := fun _ ↦ True)
    (Q := fun s ↦ ∃ r, s.db.rides.get rideId = some r ∧ r.status ≠ .requested)
    (p := fun q ↦ (rearmOf rideId q).isSome) trivial (fun _ _ _ _ _ ↦ trivial)
    (fun _ _ _ _ hst hq ↦ keeps_row (P := fun row ↦ ∃ r, row = some r ∧ r.status ≠ .requested)
      hst (fun _ _ hride hq ↦ hride.not_requested hq) rideId hq)
    (fun _ _ _ _ _ hq ↦ by rw [rearmOf_of_not_requested hq]; rfl) h
  intro q hq
  simpa using hno q hq

/-- The passenger hears of a retry as often as the first window is closed. -/
theorem countP_sent (h₀ : s₀.sent = []) (hr : Run (step dist cfg) s₀ tr s) :
    s.sent.countP (isRetry rideId) ≤ tr.countP (closes rideId 1) := by
  refine hr.invariant_trace (I := fun tr s ↦
    s.sent.countP (isRetry rideId) ≤ tr.countP (closes rideId 1)) ?_ (by simp [h₀])
  rintro tr s e s' hle ⟨-, rfl⟩
  rw [List.countP_append, List.countP_singleton]
  cases e with
  | trip e => exact hle.trans (Nat.le_add_right _ _)
  | hardFail t trip generation told =>
      have hnew := countP_handleHardFail rideId s t trip generation told
      cases told with
      | false => exact hle.trans (Nat.le_add_right _ _)
      | true =>
          show ((Dispatch.handleHardFail t s.db trip generation).2 ++ s.sent).countP _ ≤ _
          rw [List.countP_append, Nat.add_comm]
          exact Nat.add_le_add hle hnew
  | outbox e => exact hle.trans (Nat.le_add_right _ _)
  | query answer => exact hle.trans (Nat.le_add_right _ _)

/-- **Every window once**: in any interleaving of hard-fails, reconcilers, wakes, offers, accepts
and cancellations, each window of a ride is closed by one re-arm at most, which opens the next
one with its intent and leaves no live offer; late deliveries change nothing, no re-arm follows
an accept or a cancellation, and the passenger hears of one re-arm. -/
theorem windows_in_order (dist : Point → Point → D) (cfg : Windows) (h₀ : s₀.Initial)
    (hr : Run (step dist cfg) s₀ tr s) (rideId : RideId) : WindowsInOrder dist rideId tr s where
  once := closes_once hr
  reopens p hp res hres := by
    obtain ⟨tr₁, tr₂, rfl⟩ := List.append_of_mem hp
    have hi := (Consistent.initial h₀).run hr.step_of_split.1
    exact reopened hi hres
  superseded _ _ hsup := next_superseded hsup
  ended tr₁ p tr₂ htr htaken := by
    subst htr
    obtain ⟨-, s₁, hst, hr₂⟩ := hr.step_of_split
    exact rearmOf_none_after hr₂ (not_requested_of_taken hst htaken)
  retry := (countP_sent h₀.sent hr).trans (closes_once hr 1)

end Runs

/-- The sample ride's passenger hears of its retry. -/
theorem sampleRetried_windows : sampleRetried.sent = [.rideDispatchRetry 2 1 1] ∧
    WindowsInOrder (D := ℕ) (fun _ _ ↦ 0) 1
      (traceOf (next (D := ℕ) fun _ _ ↦ 0) sampleSystem sampleWindow) sampleRetried := by
  have hrun := Run.of_enabled (step (D := ℕ) (fun _ _ ↦ 0) .default) step_next sampleWindow
    (s := sampleSystem) (by decide +kernel)
  exact ⟨by decide +kernel, windows_in_order _ .default sampleSystem_initial hrun 1⟩

end Work

end Rcab
