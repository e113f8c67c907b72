import Rcab.Drivers.Presence

/-!
# Who is in `active_drivers`

A location packet adds its driver to the index without asking whether they are online, and the sweep
does not look at `last_seen` again before it removes.  Where neither a packet nor a `goOnline` comes
between (`Event.Safe`), an offline driver is not in the index and only silent drivers are swept
(`kept_iff_safe`).
-/

namespace Rcab.Drivers

/-! ## What an operation is about to do -/

/-- `GEOADD` of the driver is next. -/
def Op.Adds (d : DriverId) : Op → Prop
  | .goOnline d' _ _ (.adding _) | .location _ d' _ _ .adding => d' = d
  | _ => False

/-- `HSET` of this `last_seen` is next. -/
def Op.Sees (d : DriverId) (v : Time) : Op → Prop
  | .goOnline d' _ _ (.setting now) | .location _ d' _ now .setting => d' = d ∧ now = v
  | _ => False

/-- A `goOffline` of the driver has done its `ZREM` and not yet returned. -/
def Op.Removed (d : DriverId) : Op → Prop
  | .goOffline d' phase | .sweep (.takingOffline _ d' phase _) => d' = d ∧ phase ≠ .removing
  | _ => False

/-- The sweep removes the driver next. -/
def Op.Sweeps (d : DriverId) : Op → Prop
  | .sweep (.takingOffline _ d' phase _) => d' = d ∧ phase ≠ .updating
  | _ => False

/-- When the sweep looked at its clock. -/
def Op.sweepTime : Op → Option Time
  | .sweep (.reading nowMs _) | .sweep (.takingOffline nowMs _ _ _) => some nowMs
  | _ => none

/-- The driver was not seen for as long as the threshold. -/
def State.Silent (s : State) (d : DriverId) : Prop :=
  ∀ v ∈ (s.driverState d).lastSeen, autoOfflineThresholdMs ≤ s.clock - v

/-- The step adds nobody who is offline or being taken offline, and sees nobody whom a sweep found
silent, unless it is as long ago. -/
def Event.Safe (s : State) : Event → Prop
  | .advance i =>
      (∀ d, (s.ops i).Adds d → s.offline d = false ∧ ∀ j, ¬ (s.ops j).Removed d) ∧
      ∀ d v, (s.ops i).Sees d v → (∃ j, (s.ops j).Sweeps d) →
        autoOfflineThresholdMs ≤ s.clock - v
  | _ => True

/-- Offline drivers are not in the index. -/
def State.Clean (s : State) : Prop := ∀ d, s.offline d = true → s.activeDrivers d = none

/-- The step is no command of a sweep that removes a driver who was seen. -/
def Event.Spares (s : State) (e : Event) : Prop :=
  ∀ i d, e = .advance i → (s.ops i).Sweeps d → s.Silent d

/-! ## The invariant -/

structure Inv (s : State) : Prop where
  clean : s.Clean
  removed : ∀ i d, (s.ops i).Removed d → s.activeDrivers d = none
  sweeps : ∀ i d, (s.ops i).Sweeps d → s.Silent d
  sweepTime : ∀ i, ∀ t ∈ (s.ops i).sweepTime, t ≤ s.clock

/-- Nobody is online and nothing goes on. -/
structure State.Fresh (s : State) : Prop where
  ops : ∀ i, s.ops i = .idle
  offline : ∀ d, s.offline d = false

section Inv

variable {s s' : State} {i : ℕ} {op : Op} {d : DriverId} {p : Point}

theorem State.Fresh.inv (h : s.Fresh) : Inv s where
  clean d hd := absurd ((h.offline d).symm.trans hd) Bool.false_ne_true
  removed i d hi := by
    rw [h.ops i] at hi
    cases hi
  sweeps i d hi := by
    rw [h.ops i] at hi
    cases hi
  sweepTime i t ht := by
    rw [h.ops i] at ht
    cases ht

theorem ops_setOp (s : State) (i : ℕ) (op : Op) (j : ℕ) :
    (s.setOp i op).ops j = if j = i then op else s.ops j := Function.update_apply _ _ _ _

/-- What holds of every operation. -/
theorem forall_setOp {P : Op → Prop} (h : ∀ j, P (s.ops j)) (hop : P op) (j : ℕ) :
    P ((s.setOp i op).ops j) := by
  rw [ops_setOp]
  split_ifs
  · exact hop
  · exact h j

/-- What an operation does next matters only by what it commits to. -/
theorem Inv.setOp (h : Inv s) (i : ℕ) (hremoved : ∀ d, op.Removed d → s.activeDrivers d = none)
    (hsweeps : ∀ d, op.Sweeps d → s.Silent d) (htime : ∀ t ∈ op.sweepTime, t ≤ s.clock) :
    Inv (s.setOp i op) where
  clean := h.clean
  removed := forall_setOp (P := fun o ↦ ∀ d, o.Removed d → s.activeDrivers d = none) h.removed
    hremoved
  sweeps := forall_setOp (P := fun o ↦ ∀ d, o.Sweeps d → s.Silent d) h.sweeps hsweeps
  sweepTime := forall_setOp (P := fun o ↦ ∀ t ∈ o.sweepTime, t ≤ s.clock) h.sweepTime htime

/-- Most phases commit to nothing. -/
theorem Inv.setOp_of_not (h : Inv s) (i : ℕ) (hremoved : ∀ d, ¬ op.Removed d)
    (hsweeps : ∀ d, ¬ op.Sweeps d) (htime : op.sweepTime = none) : Inv (s.setOp i op) :=
  h.setOp i (fun d hd ↦ absurd hd (hremoved d)) (fun d hd ↦ absurd hd (hsweeps d))
    fun t ht ↦ by rw [htime] at ht; cases ht

theorem Inv.geoadd (h : Inv s) (hoffline : s.offline d = false)
    (hremoved : ∀ j, ¬ (s.ops j).Removed d) : Inv (s.geoadd d p) where
  clean d' hd' := by
    have hne : d' ≠ d := by
      rintro rfl
      exact Bool.false_ne_true (hoffline.symm.trans hd')
    exact (Function.update_of_ne hne _ _).trans (h.clean d' hd')
  removed j d' hj := by
    have hne : d' ≠ d := by
      rintro rfl
      exact hremoved j hj
    exact (Function.update_of_ne hne _ _).trans (h.removed j d' hj)
  sweeps := h.sweeps
  sweepTime := h.sweepTime

theorem activeDrivers_zrem (d' : DriverId) (h : d' = d ∨ s.activeDrivers d' = none) :
    (s.zrem d).activeDrivers d' = none := by
  simp only [State.zrem, Function.update_apply]
  split_ifs with hd
  · rfl
  · exact h.resolve_left hd

theorem Inv.zrem (h : Inv s) (d : DriverId) : Inv (s.zrem d) where
  clean d' hd' := activeDrivers_zrem d' (Or.inr (h.clean d' hd'))
  removed j d' hj := activeDrivers_zrem d' (Or.inr (h.removed j d' hj))
  sweeps := h.sweeps
  sweepTime := h.sweepTime

theorem Inv.hset (h : Inv s) {v : Presence} (hv : (∃ j, (s.ops j).Sweeps d) →
    ∀ t ∈ v.lastSeen, autoOfflineThresholdMs ≤ s.clock - t) : Inv (s.hset d v) where
  clean := h.clean
  removed := h.removed
  sweeps j d' hj t ht := by
    by_cases hd : d' = d
    · subst hd
      simp only [State.hset, Function.update_self] at ht
      exact hv ⟨j, hj⟩ t ht
    · simp only [State.hset, Function.update_of_ne hd] at ht
      exact h.sweeps j d' hj t ht
  sweepTime := h.sweepTime

theorem Inv.del (h : Inv s) (d : DriverId) : Inv (s.del d) :=
  h.hset fun _ t ht ↦ by cases ht

theorem Inv.completeOffline (h : Inv s) (hd : s.activeDrivers d = none) :
    Inv (s.completeOffline d) where
  clean d' hd' := by
    by_cases hdd : d' = d
    · exact hdd ▸ hd
    · exact h.clean d' (Function.update_of_ne hdd true s.offline ▸ hd')
  removed := h.removed
  sweeps := h.sweeps
  sweepTime := h.sweepTime

/-! ## Steps -/

/-- A step of `goOffline`; once it has done its `ZREM`, the driver is not in the index. -/
theorem Inv.goOffline (h : Inv s) {phase : GoingOffline}
    (hd : phase ≠ .removing → s.activeDrivers d = none) :
    Inv (s.goOffline d phase).1 ∧ (s.goOffline d phase).1.clock = s.clock ∧
      ∀ phase' ∈ (s.goOffline d phase).2, (s.goOffline d phase).1.activeDrivers d = none ∧
        (phase' ≠ .updating → phase ≠ .updating ∧
          (s.goOffline d phase).1.driverState = s.driverState) := by
  cases phase with
  | removing =>
    refine ⟨h.zrem d, rfl, fun phase' _ ↦ ⟨activeDrivers_zrem d (Or.inl rfl), fun _ ↦ ?_⟩⟩
    exact ⟨GoingOffline.noConfusion, rfl⟩
  | deleting =>
    refine ⟨h.del d, rfl, fun phase' hp ↦ ⟨hd GoingOffline.noConfusion, fun hne ↦ ?_⟩⟩
    exact absurd (Option.some.inj hp).symm hne
  | updating =>
    exact ⟨h.completeOffline (hd GoingOffline.noConfusion), rfl, fun _ hp ↦ by cases hp⟩

theorem Inv.advance (h : Inv s) (hsafe : (Event.advance i).Safe s) :
    Inv ((s.advance (s.ops i)).1.setOp i (s.advance (s.ops i)).2) := by
  obtain ⟨hadds, hsees⟩ := hsafe
  have hremoved := h.removed i
  have hsweeps := h.sweeps i
  have htime := h.sweepTime i
  generalize s.ops i = op at hadds hsees hremoved hsweeps htime ⊢
  have hnot {s' : State} (h' : Inv s') (op' : Op) (hr : ∀ d, ¬ op'.Removed d)
      (hs : ∀ d, ¬ op'.Sweeps d) (ht : op'.sweepTime = none) : Inv (s'.setOp i op') :=
    h'.setOp_of_not i hr hs ht
  cases op with
  | idle => exact h.setOp_of_not i (fun _ ↦ id) (fun _ ↦ id) rfl
  | goOnline d p sessionId phase =>
    cases phase with
    | selecting =>
      simp only [State.advance, State.goOnline]
      split_ifs <;> exact h.setOp_of_not i (fun _ ↦ id) (fun _ ↦ id) rfl
    | stamping => exact h.setOp_of_not i (fun _ ↦ id) (fun _ ↦ id) rfl
    | adding nowMs =>
      obtain ⟨hoffline, hno⟩ := hadds d rfl
      exact (h.geoadd hoffline hno).setOp_of_not i (fun _ ↦ id) (fun _ ↦ id) rfl
    | setting nowMs =>
      refine Inv.setOp_of_not (h.hset fun hsweep t ht ↦ ?_) i (fun _ ↦ id) (fun _ ↦ id) rfl
      obtain rfl := Option.some.inj ht
      exact hsees d _ ⟨rfl, rfl⟩ hsweep
    | updating =>
      have hrow : Inv { s with availability := Function.update s.availability d .online } :=
        ⟨h.clean, h.removed, h.sweeps, h.sweepTime⟩
      exact hrow.setOp_of_not i (fun _ ↦ id) (fun _ ↦ id) rfl
  | goOffline d phase =>
    obtain ⟨hinv, -, hphase⟩ := h.goOffline fun hp ↦ hremoved d ⟨rfl, hp⟩
    simp only [State.advance]
    cases hnext : (s.goOffline d phase).2 with
    | none => exact hinv.setOp_of_not i (fun _ ↦ id) (fun _ ↦ id) rfl
    | some phase' =>
      obtain ⟨hnone, -⟩ := hphase phase' hnext
      refine hinv.setOp i (fun d' hd' ↦ ?_) (fun d' hd' ↦ hd'.elim) fun t ht ↦ by cases ht
      exact hd'.1 ▸ hnone
  | location node d p now phase =>
    cases phase with
    | reading => exact h.setOp_of_not i (fun _ ↦ id) (fun _ ↦ id) rfl
    | throttling =>
      have hthrottle : Inv (s.setThrottle node d now) :=
        ⟨h.clean, h.removed, h.sweeps, h.sweepTime⟩
      simp only [State.advance, State.location]
      split_ifs
      · exact h.setOp_of_not i (fun _ ↦ id) (fun _ ↦ id) rfl
      · exact hthrottle.setOp_of_not i (fun _ ↦ id) (fun _ ↦ id) rfl
    | adding =>
      obtain ⟨hoffline, hno⟩ := hadds d rfl
      exact (h.geoadd hoffline hno).setOp_of_not i (fun _ ↦ id) (fun _ ↦ id) rfl
    | setting =>
      refine Inv.setOp_of_not (h.hset fun hsweep t ht ↦ ?_) i (fun _ ↦ id) (fun _ ↦ id) rfl
      obtain rfl := Option.some.inj ht
      exact hsees d _ ⟨rfl, rfl⟩ hsweep
  | sweep phase =>
    cases phase with
    | listing => exact h.setOp_of_not i (fun _ ↦ id) (fun _ ↦ id) rfl
    | stamping keys =>
      simp only [State.advance, State.sweep]
      split_ifs
      · exact h.setOp_of_not i (fun _ ↦ id) (fun _ ↦ id) rfl
      · refine h.setOp i (fun d hd ↦ hd.elim) (fun d hd ↦ hd.elim) fun t ht ↦ ?_
        exact (Option.some.inj ht).symm.le
    | reading nowMs keys =>
      have hnow : nowMs ≤ s.clock := htime nowMs rfl
      have hreading (keys : List DriverId) : Inv (s.setOp i (.sweep (.reading nowMs keys))) :=
        h.setOp i (fun d hd ↦ hd.elim) (fun d hd ↦ hd.elim) htime
      cases keys with
      | nil => exact h.setOp_of_not i (fun _ ↦ id) (fun _ ↦ id) rfl
      | cons d keys =>
        simp only [State.advance, State.sweep]
        split
        · exact hreading keys
        · rename_i lastSeen hseen
          split_ifs with hage
          · exact hreading keys
          · refine h.setOp i (fun d' hd' ↦ absurd rfl hd'.2) (fun d' hd' v hv ↦ ?_) htime
            obtain rfl : d = d' := hd'.1
            obtain rfl := Option.some.inj (hseen.symm.trans hv)
            exact (not_lt.mp hage).trans (Int.sub_le_sub_right hnow _)
    | takingOffline nowMs d phase keys =>
      obtain ⟨hinv, hclock, hphase⟩ := h.goOffline fun hp ↦ hremoved d ⟨rfl, hp⟩
      have htime' : ∀ t ∈ some nowMs, t ≤ (s.goOffline d phase).1.clock := hclock ▸ htime
      simp only [State.advance, State.sweep]
      cases hnext : (s.goOffline d phase).2 with
      | none => exact hinv.setOp i (fun d hd ↦ hd.elim) (fun d hd ↦ hd.elim) htime'
      | some phase' =>
        obtain ⟨hnone, hstate⟩ := hphase phase' hnext
        refine hinv.setOp i (fun d' hd' ↦ hd'.1 ▸ hnone) (fun d' hd' ↦ ?_) htime'
        obtain ⟨rfl, hne⟩ := hd'
        obtain ⟨hne', hsame⟩ := hstate hne
        have hsilent := hsweeps d ⟨rfl, hne'⟩
        rw [State.Silent] at hsilent ⊢
        rwa [hsame, hclock]

theorem Inv.next (h : Inv s) {e : Event} (hsafe : e.Safe s) : Inv (next s e) := by
  cases e with
  | tick ms =>
    have hle : s.clock ≤ s.clock + ms := Int.le_add_of_nonneg_right (Int.natCast_nonneg ms)
    refine ⟨h.clean, h.removed, fun i d hd v hv ↦ ?_, fun i t ht ↦ (h.sweepTime i t ht).trans hle⟩
    exact (h.sweeps i d hd v hv).trans (Int.sub_le_sub_right hle v)
  | setCurrentVehicle d vehicleId => exact ⟨h.clean, h.removed, h.sweeps, h.sweepTime⟩
  | goOnline i d p sessionId =>
    have honline : Inv { s with offline := Function.update s.offline d false } := by
      refine ⟨fun d' hd' ↦ h.clean d' ?_, h.removed, h.sweeps, h.sweepTime⟩
      have hd'' : Function.update s.offline d false d' = true := hd'
      rw [Function.update_apply] at hd''
      split_ifs at hd''
      exact hd''
    exact honline.setOp_of_not i (fun _ ↦ id) (fun _ ↦ id) rfl
  | goOffline i d =>
    exact h.setOp i (fun d' hd' ↦ absurd rfl hd'.2) (fun d' hd' ↦ hd'.elim) fun t ht ↦ by cases ht
  | location i node d p => exact h.setOp_of_not i (fun _ ↦ id) (fun _ ↦ id) rfl
  | sweep i => exact h.setOp_of_not i (fun _ ↦ id) (fun _ ↦ id) rfl
  | keys i found => exact h.setOp_of_not i (fun _ ↦ id) (fun _ ↦ id) rfl
  | advance i => exact h.advance hsafe

end Inv

/-! ## What an unsafe step leads to -/

/-- `goOffline` of the driver is in this phase. -/
def Op.Taking (d : DriverId) (phase : GoingOffline) : Op → Prop
  | .goOffline d' phase' | .sweep (.takingOffline _ d' phase' _) => d' = d ∧ phase' = phase
  | _ => False

section Unsafe

variable {s : State} {i j : ℕ} {op : Op} {d : DriverId} {v : Time} {phase : GoingOffline}

theorem Op.Removed.taking (h : op.Removed d) : op.Taking d .deleting ∨ op.Taking d .updating := by
  have hphase {phase' : GoingOffline} (hne : phase' ≠ .removing) :
      phase' = .deleting ∨ phase' = .updating := by
    cases phase' with
    | removing => exact absurd rfl hne
    | deleting => exact Or.inl rfl
    | updating => exact Or.inr rfl
  cases op with
  | goOffline d' phase' => exact (hphase h.2).imp (⟨h.1, ·⟩) (⟨h.1, ·⟩)
  | sweep phase =>
    cases phase with
    | takingOffline nowMs d' phase' keys => exact (hphase h.2).imp (⟨h.1, ·⟩) (⟨h.1, ·⟩)
    | listing | stamping | reading => cases h
  | idle | goOnline | location => cases h

theorem Op.Sweeps.taking (h : op.Sweeps d) : ∃ phase, op.Taking d phase := by
  cases op with
  | sweep phase =>
    cases phase with
    | takingOffline nowMs d' phase' keys => exact ⟨phase', h.1, rfl⟩
    | listing | stamping | reading => cases h
  | idle | goOnline | goOffline | location => cases h

/-- Taking a driver offline is a safe step. -/
theorem Op.Taking.safe (h : (s.ops j).Taking d phase) :
    (Event.advance j).Possible s ∧ (Event.advance j).Safe s := by
  simp only [Event.Possible, Event.Safe]
  generalize s.ops j = op at h ⊢
  cases op with
  | goOffline => exact ⟨Op.noConfusion, fun _ hd ↦ hd.elim, fun _ _ hd ↦ hd.elim⟩
  | sweep phase =>
    refine ⟨?_, fun _ hd ↦ hd.elim, fun _ _ hd ↦ hd.elim⟩
    rintro hlist
    rw [Op.sweep.inj hlist] at h
    cases h
  | idle | goOnline | location => cases h

theorem advance_ops (s : State) (op : Op) : (s.advance op).1.ops = s.ops := by
  cases op with
  | idle => rfl
  | goOnline d p sessionId phase => cases phase <;> rfl
  | goOffline d phase => cases phase <;> rfl
  | location node d p now phase =>
    cases phase with
    | throttling =>
      simp only [State.advance, State.location]
      split_ifs <;> rfl
    | reading | adding | setting => rfl
  | sweep phase =>
    cases phase with
    | listing | stamping => rfl
    | takingOffline nowMs d phase keys => cases phase <;> rfl
    | reading nowMs keys =>
      cases keys with
      | nil => rfl
      | cons d keys =>
        simp only [State.advance, State.sweep]
        split
        · rfl
        · split_ifs <;> rfl

/-- The other operations stay where they are. -/
theorem ops_advance (hne : j ≠ i) : (next s (.advance i)).ops j = s.ops j := by
  rw [next, ops_setOp, if_neg hne, advance_ops]

/-- The last step of `goOffline`. -/
theorem Op.Taking.completes (h : (s.ops j).Taking d .updating) :
    (next s (.advance j)).offline d = true ∧
      (next s (.advance j)).activeDrivers = s.activeDrivers := by
  simp only [next]
  generalize s.ops j = op at h ⊢
  cases op with
  | goOffline d' phase' =>
    obtain ⟨rfl, rfl⟩ := h
    exact ⟨Function.update_self _ _ _, rfl⟩
  | sweep phase =>
    cases phase with
    | takingOffline nowMs d' phase' keys =>
      obtain ⟨rfl, rfl⟩ := h
      exact ⟨Function.update_self _ _ _, rfl⟩
    | listing | stamping | reading => cases h
  | idle | goOnline | location => cases h

theorem Op.Taking.deletes (h : (s.ops j).Taking d .deleting) :
    ((next s (.advance j)).ops j).Taking d .updating ∧
      (next s (.advance j)).activeDrivers = s.activeDrivers := by
  simp only [next, ops_setOp, if_true]
  generalize s.ops j = op at h ⊢
  cases op with
  | goOffline d' phase' =>
    obtain ⟨rfl, rfl⟩ := h
    exact ⟨⟨rfl, rfl⟩, rfl⟩
  | sweep phase =>
    cases phase with
    | takingOffline nowMs d' phase' keys =>
      obtain ⟨rfl, rfl⟩ := h
      exact ⟨⟨rfl, rfl⟩, rfl⟩
    | listing | stamping | reading => cases h
  | idle | goOnline | location => cases h

theorem Op.Adds.adds (h : (s.ops i).Adds d) :
    (next s (.advance i)).activeDrivers d ≠ none ∧ (next s (.advance i)).offline = s.offline := by
  simp only [next]
  generalize s.ops i = op at h ⊢
  cases op with
  | goOnline d' p sessionId phase =>
    cases phase with
    | adding nowMs =>
      obtain rfl : d' = d := h
      refine ⟨?_, rfl⟩
      simp only [State.advance, State.goOnline, State.geoadd, State.setOp, Function.update_self]
      exact Option.some_ne_none _
    | selecting | stamping | setting | updating => cases h
  | location node d' p now phase =>
    cases phase with
    | adding =>
      obtain rfl : d' = d := h
      refine ⟨?_, rfl⟩
      simp only [State.advance, State.location, State.geoadd, State.setOp, Function.update_self]
      exact Option.some_ne_none _
    | reading | throttling | setting => cases h
  | idle | goOffline | sweep => cases h

theorem Op.Sees.sees (h : (s.ops i).Sees d v) :
    ((next s (.advance i)).driverState d).lastSeen = some v ∧
      (next s (.advance i)).clock = s.clock := by
  simp only [next]
  generalize s.ops i = op at h ⊢
  cases op with
  | goOnline d' p sessionId phase =>
    cases phase with
    | setting nowMs =>
      obtain ⟨rfl, rfl⟩ := h
      simp only [State.advance, State.goOnline, State.hset, State.setOp, Function.update_self]
      exact ⟨trivial, trivial⟩
    | selecting | stamping | adding | updating => cases h
  | location node d' p now phase =>
    cases phase with
    | setting =>
      obtain ⟨rfl, rfl⟩ := h
      simp only [State.advance, State.location, State.hset, State.setOp, Function.update_self]
      exact ⟨trivial, trivial⟩
    | reading | throttling | adding => cases h
  | idle | goOffline | sweep => cases h

/-- A `goOffline` that has done its `ZREM` completes. -/
theorem Op.Removed.completes (h : (s.ops j).Removed d) :
    ∃ tr s', Run (only step fun s e ↦ e.Safe s) s tr s' ∧ s'.offline d = true ∧
      s'.activeDrivers = s.activeDrivers := by
  have hlast {s : State} (h : (s.ops j).Taking d .updating) :
      Run (only step fun s e ↦ e.Safe s) s [(s, .advance j)] (next s (.advance j)) :=
    .single ⟨⟨h.safe.1, rfl⟩, h.safe.2⟩
  rcases h.taking with h | h
  · obtain ⟨hnext, hactive⟩ := h.deletes
    refine ⟨_, _, .cons ⟨⟨h.safe.1, rfl⟩, h.safe.2⟩ (hlast hnext), hnext.completes.1, ?_⟩
    exact hnext.completes.2.trans hactive
  · exact ⟨_, _, hlast h, h.completes⟩

end Unsafe

/-! ## Runs -/

/-- What is wanted of a run: whoever is offline is not in the index, and no sweep removed a driver
who was seen. -/
def Kept (tr : List (State × Event)) (s : State) : Prop := s.Clean ∧ ∀ x ∈ tr, x.2.Spares x.1

section Runs

variable {s₀ s s' : State} {tr tr' : List (State × Event)} {e : Event}

theorem inv_of_safe (h₀ : s₀.Fresh) (hr : Run (only step fun s e ↦ e.Safe s) s₀ tr s) :
    Inv s ∧ Kept tr s := by
  have key : Inv s ∧ ∀ x ∈ tr, x.2.Spares x.1 := by
    refine hr.invariant_trace (I := fun tr s ↦ Inv s ∧ ∀ x ∈ tr, x.2.Spares x.1) ?_
      ⟨h₀.inv, fun x hx ↦ absurd hx List.not_mem_nil⟩
    rintro tr s e s' ⟨hinv, hspares⟩ ⟨⟨-, rfl⟩, hsafe⟩
    refine ⟨hinv.next hsafe, fun x hx ↦ ?_⟩
    rcases List.mem_append.mp hx with hx | hx
    · exact hspares x hx
    · rw [List.mem_singleton.mp hx]
      exact fun i d _ hi ↦ hinv.sweeps i d hi
  exact ⟨key.1, key.1.clean, key.2⟩

/-- An unsafe step is followed by a loss, whatever was before. -/
theorem not_kept_of_not_safe (hsafe : ¬ e.Safe s) :
    ∃ tr s', Run (only step fun s e ↦ e.Safe s) (next s e) tr s' ∧ ¬ Kept tr s' := by
  cases e with
  | advance i =>
    rcases not_and_or.mp hsafe with hadds | hsees
    · push Not at hadds
      obtain ⟨d, hadd, hlost⟩ := hadds
      obtain ⟨hactive, hoffline⟩ := hadd.adds
      by_cases hd : s.offline d = true
      · exact ⟨[], _, .nil, fun hkept ↦ hactive (hkept.1 d (hoffline ▸ hd))⟩
      · obtain ⟨j, hj⟩ := hlost (eq_false_of_ne_true hd)
        have hne : j ≠ i := by
          rintro rfl
          generalize s.ops j = op at hadd hj
          cases op <;> first | exact hadd | exact hj
        obtain ⟨tr, s', hr, hoff, hsame⟩ := Op.Removed.completes (ops_advance (s := s) hne ▸ hj)
        exact ⟨tr, s', hr, fun hkept ↦ hactive (hsame ▸ hkept.1 d hoff)⟩
    · push Not at hsees
      obtain ⟨d, v, hsee, ⟨j, hj⟩, hfresh⟩ := hsees
      obtain ⟨hlast, hclock⟩ := hsee.sees
      have hne : j ≠ i := by
        rintro rfl
        generalize s.ops j = op at hsee hj
        cases op <;> first | exact hsee | exact hj
      have hj' : ((next s (.advance i)).ops j).Sweeps d := ops_advance (s := s) hne ▸ hj
      obtain ⟨phase, htaking⟩ := hj'.taking
      refine ⟨_, _, .single ⟨⟨htaking.safe.1, rfl⟩, htaking.safe.2⟩, fun hkept ↦ ?_⟩
      have hsilent := hkept.2 _ (List.mem_singleton.mpr rfl) j d rfl hj' v hlast
      rw [hclock] at hsilent
      exact absurd hsilent (not_le.mpr hfresh)
  | tick | setCurrentVehicle | goOnline | goOffline | location | sweep | keys =>
    exact absurd trivial hsafe

/-- **Presence.**

In a run of safe steps an offline driver is not in the index and only silent drivers are swept; and
a step is safe exactly if that stays so however the run goes on by safe steps. -/
theorem kept_iff_safe (h₀ : s₀.Fresh) (hr : Run (only step fun s e ↦ e.Safe s) s₀ tr s) :
    Kept tr s ∧ ∀ e, e.Possible s → (e.Safe s ↔ ∀ tr' s',
      Run (only step fun s e ↦ e.Safe s) (next s e) tr' s' → Kept (tr ++ (s, e) :: tr') s') := by
  refine ⟨(inv_of_safe h₀ hr).2, fun e he ↦ ⟨fun hsafe tr' s' hr' ↦ ?_, fun hall ↦ ?_⟩⟩
  · have hstep : only step (fun s e ↦ e.Safe s) s e (next s e) := ⟨⟨he, rfl⟩, hsafe⟩
    exact (inv_of_safe h₀ (hr.trans (.cons hstep hr'))).2
  · by_contra hsafe
    obtain ⟨tr', s', hr', hlost⟩ := not_kept_of_not_safe hsafe
    obtain ⟨hclean, hspares⟩ := hall tr' s' hr'
    refine hlost ⟨hclean, fun x hx ↦ hspares x ?_⟩
    exact List.mem_append_right _ (List.mem_cons_of_mem _ hx)

end Runs

/-- A morning at the api. -/
def sampleMorning : State where
  clock := 100000
  activeDrivers _ := none
  driverState _ := {}
  currentVehicleId _ := some 1
  availability _ := .offline
  geoThrottle _ _ := 0
  ops _ := .idle
  offline _ := false

theorem sampleMorning_fresh : sampleMorning.Fresh := ⟨fun _ ↦ rfl, fun _ ↦ rfl⟩

/-- A driver goes offline. -/
def sampleOffline : List Event := [.goOffline 0 7, .advance 0, .advance 0, .advance 0]

theorem sampleOffline_kept : Kept (traceOf next sampleMorning sampleOffline)
    (sampleOffline.foldl next sampleMorning) := by
  have hr : Run (only step fun s e ↦ e.Safe s) sampleMorning
      (traceOf next sampleMorning sampleOffline) (sampleOffline.foldl next sampleMorning) := by
    refine .cons ⟨⟨rfl, rfl⟩, trivial⟩ (.cons ?_ (.cons ?_ (.single ?_)))
    all_goals
      refine ⟨⟨Op.noConfusion, rfl⟩, fun _ h ↦ h.elim, fun _ _ h ↦ h.elim⟩
  exact (kept_iff_safe sampleMorning_fresh hr).1

/-- A packet that is on its way meanwhile brings the driver back. -/
theorem sampleOffline_brought_back : ¬ ∀ (s₀ : State) (tr : List (State × Event)) (s : State),
    s₀.Fresh → Run step s₀ tr s → Kept tr s := by
  intro h
  let events := sampleOffline ++ [.location 1 0 7 ⟨0, 0⟩, .advance 1, .advance 1, .advance 1]
  have hr : Run step sampleMorning (traceOf next sampleMorning events)
      (events.foldl next sampleMorning) := by
    refine Run.of_enabled step (fun _ _ h ↦ ⟨h, rfl⟩) events ?_
    refine ⟨rfl, ?_, ?_, ?_, rfl, ?_, ?_, ?_, trivial⟩ <;> exact Op.noConfusion
  have hnone := (h sampleMorning _ _ sampleMorning_fresh hr).1 7 rfl
  revert hnone
  decide

end Rcab.Drivers
