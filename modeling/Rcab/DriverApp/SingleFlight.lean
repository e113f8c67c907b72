import Rcab.DriverApp.Session

/-!
# One refresh at a time

What a step can do (`does_of_step`), and that refreshes do not overlap: the one that is not over is
the shared future (`Flight`).  Without a sign-in or a sign-out of the driver the stored token is
then the one to post next, and a rotated one is not posted again (`refreshes_once`).
-/

namespace Rcab.DriverApp.Session

/-- What a step can do. -/
inductive Does (s : State) : Event → State → Prop
  | refuse {i sent} (h : s.handlers i = .idle) (hr : s.retried i = true) : Does s (.fail i sent) s
  | fail {i sent} (h : s.handlers i = .idle) (hr : s.retried i = false) :
      Does s (.fail i sent) (s.setHandler i (.reading sent))
  | readJwt {i sent} (h : s.handlers i = .reading sent) :
      Does s (.readJwt i) (s.setHandler i (.comparing sent s.store.jwt))
  | retry {i sent current} (h : s.handlers i = .comparing sent current) :
      Does s (.compareJwt i) (s.resend i)
  | join {i sent current k} (h : s.handlers i = .comparing sent current)
      (hk : s.inFlight = some k) : Does s (.compareJwt i) (s.setHandler i (.awaiting k))
  | start {i sent current} (h : s.handlers i = .comparing sent current) (hk : s.inFlight = none) :
      Does s (.compareJwt i) (({ s with inFlight := some s.started, started := s.started + 1
        }.setRefresh s.started .reading).setHandler i (.awaiting s.started))
  | resume {i k a} (h : s.handlers i = .awaiting k) (hr : s.refreshes k = .completed (some a)) :
      Does s (.resume i) (s.resend i)
  | giveUp {i k} (h : s.handlers i = .awaiting k) (hr : s.refreshes k = .completed none) :
      Does s (.resume i) (s.setHandler i .idle)
  | post {k t} (h : s.refreshes k = .reading) (ht : s.store.refresh = some t) :
      Does s (.readRefresh k)
        ({ s with before := Function.update s.before k (s.landed.filter (· ≤ t.session))
          }.setRefresh k (.posting t))
  | leave {k} (h : s.refreshes k = .reading) (ht : s.store.refresh = none) :
      Does s (.readRefresh k)
        ({ s with before := Function.update s.before k s.landed }.setRefresh k
          (.signingOut .reading))
  | checkSame {k t} (h : s.refreshes k = .checking t) (ht : s.store.refresh = some t) :
      Does s (.readRefresh k) (s.setRefresh k (.signingOut .reading))
  | checkOther {k t} (h : s.refreshes k = .checking t) (ht : s.store.refresh ≠ some t) :
      Does s (.readRefresh k) (s.setRefresh k (.returned none))
  | recheckSame {k t ses} (h : s.refreshes k = .rechecking t ses)
      (ht : s.store.refresh = some t) : Does s (.readRefresh k) (s.setRefresh k (.saving ses .both))
  | recheckOther {k t ses} (h : s.refreshes k = .rechecking t ses)
      (ht : s.store.refresh ≠ some t) : Does s (.readRefresh k) (s.setRefresh k (.returned none))
  | rotate {k t ses} (h : s.refreshes k = .posting t) (hs : ses.session = t.session)
      (hf : ses.refreshToken ∉ s.issued) :
      Does s (.answer k (.body (some ses)))
        ({ s with issued := ses.accessToken :: ses.refreshToken :: s.issued
                  rotated := t :: s.rotated }.setRefresh k (.rechecking t ses))
  | reject {k t a} (h : s.refreshes k = .posting t) :
      Does s (.answer k a) (s.setRefresh k (.checking t))
  | lose {k t a} (h : s.refreshes k = .posting t) :
      Does s (.answer k a) (s.setRefresh k (.returned none))
  | saveOne {k ses f} (h : s.refreshes k = .saving ses .both) :
      Does s (.save k f) ((s.write ses f).setRefresh k (.saving ses (.only f.other)))
  | saveLast {k ses f} (h : s.refreshes k = .saving ses (.only f)) :
      Does s (.save k f) ((s.write ses f).setRefresh k (.returned (some ses.accessToken)))
  | dropSession {k f phase} (h : s.refreshes k = .signingOut phase) (hf : phase.Awaits f) :
      Does s (.dropSession k f) ((s.signOut f phase).1.setRefresh k
        (((s.signOut f phase).2.map Refresh.signingOut).getD (.returned none)))
  | complete {k result} (h : s.refreshes k = .returned result) :
      Does s (.complete k) ({ s with inFlight := none }.setRefresh k (.completed result))
  | signIn {j} (h : s.signIns j = .idle) : Does s (.signIn j) (s.setSignIn j .posting)
  | refuseExchange {j} (h : s.signIns j = .posting) :
      Does s (.exchange j none) (s.setSignIn j .idle)
  | exchange {j ses} (h : s.signIns j = .posting) (hf : ∀ t ∈ s.issued, t.session < ses.session) :
      Does s (.exchange j (some ses))
        ({ s with issued := ses.accessToken :: ses.refreshToken :: s.issued }.setSignIn j
          (.saving ses .both))
  | saveSignInOne {j ses f} (h : s.signIns j = .saving ses .both) :
      Does s (.saveSignIn j f) ((s.write ses f).setSignIn j (.saving ses (.only f.other)))
  | saveSignInLast {j ses f} (h : s.signIns j = .saving ses (.only f)) :
      Does s (.saveSignIn j f) ((s.write ses f).setSignIn j (.saved ses.session))
  | signedIn {j session} (h : s.signIns j = .saved session) :
      Does s (.signedIn j) ({ s with auth := some session }.setSignIn j .idle)
  | signOut {j} (h : s.signOuts j = none) : Does s (.signOut j) (s.setSignOut j (some .reading))
  | clear {j f phase} (h : s.signOuts j = some phase) (hf : phase.Awaits f) :
      Does s (.clear j f) ((s.signOut f phase).1.setSignOut j (s.signOut f phase).2)

variable {s s' : State} {i j k : ℕ} {f : Field} {t : Token} {ses : NativeSession}

theorem rest_cases {rest : Rest} (h : rest.Has f) : rest = .both ∨ rest = .only f := by
  cases rest with
  | both => exact Or.inl rfl
  | only g =>
    obtain rfl : g = f := h
    exact Or.inr rfl

theorem does_compareJwt {sent current : Option Token}
    (h : s.handlers i = .comparing sent current) :
    Does s (.compareJwt i) (s.compareJwt i sent current) := by
  unfold State.compareJwt State.joinRefresh
  split_ifs
  · exact .retry h
  · cases hk : s.inFlight with
    | some k => exact .join h hk
    | none => exact .start h hk

theorem does_readRefresh (h : s.readRefresh k (s.refreshes k) = some s') :
    Does s (.readRefresh k) s' := by
  unfold State.readRefresh at h
  split at h
  · rename_i hk
    split at h
    · rename_i t ht
      obtain rfl := Option.some.inj h
      exact .post hk ht
    · rename_i ht
      obtain rfl := Option.some.inj h
      exact .leave hk ht
  · rename_i t hk
    obtain rfl := Option.some.inj h
    split_ifs with ht
    · exact .checkSame hk ht
    · exact .checkOther hk ht
  · rename_i t ses hk
    obtain rfl := Option.some.inj h
    split_ifs with ht
    · exact .recheckSame hk ht
    · exact .recheckOther hk ht
  · cases h

theorem does_answered {a : Answer} (hk : s.refreshes k = .posting t) (hf : a.Fresh s t) :
    Does s (.answer k a) (s.answered k t a) := by
  have hother : Does s (.answer k a)
      (s.setRefresh k (if a.Transient then .returned none else .checking t)) := by
    split_ifs
    · exact .lose hk
    · exact .reject hk
  cases a with
  | error status => exact hother
  | body ses =>
    cases ses with
    | none => exact hother
    | some ses => exact .rotate hk hf.1 hf.2

theorem does_of_step {e : Event} (h : step s e s') : Does s e s' := by
  cases e with
  | fail i sent =>
    simp only [step, next] at h
    split at h
    · rename_i hi
      split_ifs at h with hr
      · obtain rfl := Option.some.inj h
        exact .refuse hi hr
      · obtain rfl := Option.some.inj h
        exact .fail hi (eq_false_of_ne_true hr)
    · cases h
  | readJwt i =>
    simp only [step, next] at h
    split at h
    · rename_i sent hi
      obtain rfl := Option.some.inj h
      exact .readJwt hi
    · cases h
  | compareJwt i =>
    simp only [step, next] at h
    split at h
    · rename_i sent current hi
      obtain rfl := Option.some.inj h
      exact does_compareJwt hi
    · cases h
  | resume i =>
    simp only [step, next] at h
    split at h
    · rename_i k hi
      split at h
      · rename_i hr
        obtain rfl := Option.some.inj h
        exact .resume hi hr
      · rename_i hr
        obtain rfl := Option.some.inj h
        exact .giveUp hi hr
      · cases h
    · cases h
  | readRefresh k => exact does_readRefresh h
  | answer k a =>
    simp only [step, next] at h
    split at h
    · rename_i t hk
      split_ifs at h with hf
      obtain rfl := Option.some.inj h
      exact does_answered hk hf
    · cases h
  | save k f =>
    simp only [step, next] at h
    split at h
    · rename_i ses rest hk
      split_ifs at h with hf
      obtain rfl := Option.some.inj h
      rcases rest_cases hf with rfl | rfl
      · exact .saveOne hk
      · exact .saveLast hk
    · cases h
  | dropSession k f =>
    simp only [step, next] at h
    split at h
    · rename_i phase hk
      split_ifs at h with hf
      obtain rfl := Option.some.inj h
      have hdoes := Does.dropSession hk hf
      cases hnext : (s.signOut f phase).2 with
      | some phase' => rwa [hnext] at hdoes
      | none => rwa [hnext] at hdoes
    · cases h
  | complete k =>
    simp only [step, next] at h
    split at h
    · rename_i result hk
      obtain rfl := Option.some.inj h
      exact .complete hk
    · cases h
  | signIn j =>
    simp only [step, next] at h
    split at h
    · rename_i hj
      obtain rfl := Option.some.inj h
      exact .signIn hj
    · cases h
  | exchange j ses =>
    simp only [step, next] at h
    split at h
    · rename_i hj
      obtain rfl := Option.some.inj h
      exact .refuseExchange hj
    · rename_i ses hj
      split_ifs at h with hf
      obtain rfl := Option.some.inj h
      exact .exchange hj hf
    · cases h
  | saveSignIn j f =>
    simp only [step, next] at h
    split at h
    · rename_i ses rest hj
      split_ifs at h with hf
      obtain rfl := Option.some.inj h
      rcases rest_cases hf with rfl | rfl
      · exact .saveSignInOne hj
      · exact .saveSignInLast hj
    · cases h
  | signedIn j =>
    simp only [step, next] at h
    split at h
    · rename_i session hj
      obtain rfl := Option.some.inj h
      exact .signedIn hj
    · cases h
  | signOut j =>
    simp only [step, next] at h
    split at h
    · rename_i hj
      obtain rfl := Option.some.inj h
      exact .signOut hj
    · cases h
  | clear j f =>
    simp only [step, next] at h
    split at h
    · rename_i phase hj
      split_ifs at h with hf
      obtain rfl := Option.some.inj h
      exact .clear hj hf
    · cases h

/-! ## What a sign-out leaves alone -/

/-- What a step of a sign-out does to the store and the records of it. -/
theorem signOut_cases (s : State) (f : Field) (phase : SigningOut) :
    (s.signOut f phase).1 = s ∨ (s.signOut f phase).1 = { s with auth := none } ∨
      ∃ signedOut, (s.signOut f phase).1 = { s.delete f with signedOut } := by
  cases phase with
  | reading | loggingOut => exact Or.inl rfl
  | leaving => exact Or.inr (Or.inl rfl)
  | clearing refresh rest =>
    cases rest with
    | both => exact Or.inr (Or.inr ⟨s.signedOut, rfl⟩)
    | only g => exact Or.inr (Or.inr ⟨_, rfl⟩)

section SignOut

variable (s : State) (f : Field) (phase : SigningOut)

@[simp] theorem signOut_refreshes : (s.signOut f phase).1.refreshes = s.refreshes := by
  rcases signOut_cases s f phase with h | h | ⟨_, h⟩ <;> simp only [h, State.delete]

@[simp] theorem signOut_inFlight : (s.signOut f phase).1.inFlight = s.inFlight := by
  rcases signOut_cases s f phase with h | h | ⟨_, h⟩ <;> simp only [h, State.delete]

@[simp] theorem signOut_started : (s.signOut f phase).1.started = s.started := by
  rcases signOut_cases s f phase with h | h | ⟨_, h⟩ <;> simp only [h, State.delete]

@[simp] theorem signOut_issued : (s.signOut f phase).1.issued = s.issued := by
  rcases signOut_cases s f phase with h | h | ⟨_, h⟩ <;> simp only [h, State.delete]

@[simp] theorem signOut_rotated : (s.signOut f phase).1.rotated = s.rotated := by
  rcases signOut_cases s f phase with h | h | ⟨_, h⟩ <;> simp only [h, State.delete]

@[simp] theorem signOut_signIns : (s.signOut f phase).1.signIns = s.signIns := by
  rcases signOut_cases s f phase with h | h | ⟨_, h⟩ <;> simp only [h, State.delete]

@[simp] theorem signOut_handlers : (s.signOut f phase).1.handlers = s.handlers := by
  rcases signOut_cases s f phase with h | h | ⟨_, h⟩ <;> simp only [h, State.delete]

@[simp] theorem signOut_retried : (s.signOut f phase).1.retried = s.retried := by
  rcases signOut_cases s f phase with h | h | ⟨_, h⟩ <;> simp only [h, State.delete]

@[simp] theorem signOut_resent : (s.signOut f phase).1.resent = s.resent := by
  rcases signOut_cases s f phase with h | h | ⟨_, h⟩ <;> simp only [h, State.delete]

@[simp] theorem signOut_landed : (s.signOut f phase).1.landed = s.landed := by
  rcases signOut_cases s f phase with h | h | ⟨_, h⟩ <;> simp only [h, State.delete]

@[simp] theorem signOut_before : (s.signOut f phase).1.before = s.before := by
  rcases signOut_cases s f phase with h | h | ⟨_, h⟩ <;> simp only [h, State.delete]

@[simp] theorem signOut_signOuts : (s.signOut f phase).1.signOuts = s.signOuts := by
  rcases signOut_cases s f phase with h | h | ⟨_, h⟩ <;> simp only [h, State.delete]

end SignOut

theorem get_set (store : TokenStore) (v : Option Token) (f g : Field) :
    (store.set v f).get g = if g = f then v else store.get g := by
  cases f <;> cases g <;> rfl

/-- What a sign-out leaves stored was stored. -/
theorem get_signOut {phase : SigningOut} {g : Field} {u : Token}
    (hu : u ∈ (s.signOut f phase).1.store.get g) : u ∈ s.store.get g := by
  rcases signOut_cases s f phase with h | h | ⟨_, h⟩ <;> rw [h] at hu
  · exact hu
  · exact hu
  · have hget : u ∈ (s.store.set none f).get g := hu
    rw [get_set] at hget
    split_ifs at hget
    · cases hget
    · exact hget

/-- Nobody is signed in by signing out. -/
theorem auth_signOut {phase : SigningOut} {S : ℕ} (hS : S ∈ (s.signOut f phase).1.auth) :
    S ∈ s.auth := by
  rcases signOut_cases s f phase with h | h | ⟨_, h⟩ <;> rw [h] at hS
  · exact hS
  · cases hS
  · exact hS

/-! ## Refreshes do not overlap -/

/-- The refresh was started and is not over. -/
def Refresh.Active : Refresh → Prop
  | .idle | .completed _ => False
  | _ => True

structure Flight (s : State) : Prop where
  flight : ∀ k, (s.refreshes k).Active → s.inFlight = some k
  unstarted : ∀ k, s.started ≤ k → s.refreshes k = .idle

theorem refreshes_setRefresh (s : State) (k : ℕ) (r : Refresh) (k' : ℕ) :
    (s.setRefresh k r).refreshes k' = if k' = k then r else s.refreshes k' :=
  Function.update_apply _ _ _ _

theorem Flight.unique (h : Flight s) {k' : ℕ} (hk : (s.refreshes k).Active)
    (hk' : (s.refreshes k').Active) : k' = k :=
  Option.some.inj ((h.flight k' hk').symm.trans (h.flight k hk))

theorem Flight.congr (h : Flight s) (hr : s'.refreshes = s.refreshes)
    (hi : s'.inFlight = s.inFlight) (hs : s'.started = s.started) : Flight s' where
  flight k hk := by
    rw [hr] at hk
    rw [hi]
    exact h.flight k hk
  unstarted k hk := by
    rw [hr]
    exact h.unstarted k (hs ▸ hk)

/-- A refresh goes on. -/
theorem Flight.set (h : Flight s) (hk : (s.refreshes k).Active) (r : Refresh) :
    Flight (s.setRefresh k r) where
  flight k' hk' := by
    rw [refreshes_setRefresh] at hk'
    split_ifs at hk' with hkk
    · exact hkk ▸ h.flight k hk
    · exact h.flight k' hk'
  unstarted k' hk' := by
    rw [refreshes_setRefresh, if_neg]
    · exact h.unstarted k' hk'
    · rintro rfl
      rw [h.unstarted k' hk'] at hk
      exact hk

theorem Flight.does (h : Flight s) {e : Event} (hd : Does s e s') : Flight s' := by
  have hset {k : ℕ} {r : Refresh} (hr : s.refreshes k = r) (hactive : r.Active) {s₁ : State}
      (h₁ : Flight s₁) (hs₁ : s₁.refreshes = s.refreshes) (r' : Refresh) :
      Flight (s₁.setRefresh k r') :=
    h₁.set (by rw [hs₁, hr]; exact hactive) r'
  cases hd with
  | refuse => exact h
  | start hi hnone =>
    have hidle : ∀ k, ¬ (s.refreshes k).Active := fun k hk ↦ by
      rw [h.flight k hk] at hnone
      cases hnone
    refine ⟨fun k hk ↦ ?_, fun k hk ↦ ?_⟩
    · have hk' : ((if k = s.started then Refresh.reading else s.refreshes k)).Active :=
        (refreshes_setRefresh _ s.started .reading k) ▸ hk
      split_ifs at hk' with hkk
      · exact congrArg some hkk.symm
      · exact absurd hk' (hidle k)
    · have hne : k ≠ s.started := (Nat.lt_of_succ_le hk).ne'
      exact (refreshes_setRefresh _ s.started .reading k).trans
        ((if_neg hne).trans (h.unstarted k (Nat.le_of_succ_le hk)))
  | post hk | leave hk | checkSame hk | checkOther hk | recheckSame hk | recheckOther hk
  | rotate hk | reject hk | lose hk | saveOne hk | saveLast hk =>
    refine hset hk trivial ?_ ?_ _
    · exact h.congr rfl rfl rfl
    · rfl
  | dropSession hk =>
    refine hset hk trivial (h.congr ?_ ?_ ?_) ?_ _
    · exact signOut_refreshes ..
    · exact signOut_inFlight ..
    · exact signOut_started ..
    · exact signOut_refreshes ..
  | complete hk =>
    rename_i k result
    have hactive : (s.refreshes k).Active := by
      rw [hk]
      trivial
    refine ⟨fun k' hk' ↦ ?_, fun k' hk' ↦ ?_⟩
    · have hk'' : (if k' = k then Refresh.completed result else s.refreshes k').Active :=
        (refreshes_setRefresh _ k _ k') ▸ hk'
      split_ifs at hk'' with hkk
      · exact hk''.elim
      · exact absurd (h.unique hactive hk'') hkk
    · have hne : k' ≠ k := by
        rintro rfl
        rw [h.unstarted k' hk'] at hactive
        exact hactive
      exact (refreshes_setRefresh _ k _ k').trans ((if_neg hne).trans (h.unstarted k' hk'))
  | clear => exact h.congr (signOut_refreshes ..) (signOut_inFlight ..) (signOut_started ..)
  | fail | readJwt | retry | join | resume | giveUp | signIn | refuseExchange | exchange
  | saveSignInOne | saveSignInLast | signedIn | signOut => exact h.congr rfl rfl rfl

/-! ## A rotated token is not posted again -/

/-- The stored refresh token is about to be replaced. -/
def Refresh.Replaces : Refresh → Prop
  | .rechecking _ _ => True
  | .saving _ rest => rest.Has .refresh
  | _ => False

/-- What a refresh knows of the store while nobody else writes there. -/
def Refresh.Owns (s : State) : Refresh → Prop
  | .posting t => s.store.refresh = some t ∧ t ∉ s.rotated
  | .rechecking t ses => s.store.refresh = some t ∧ ses.refreshToken ∈ s.issued ∧
      ses.refreshToken ∉ s.rotated
  | .saving ses rest => ses.refreshToken ∈ s.issued ∧ ses.refreshToken ∉ s.rotated ∧
      (rest = .only .jwt → s.store.refresh = some ses.refreshToken)
  | _ => True

theorem Refresh.Replaces.active {r : Refresh} (h : r.Replaces) : r.Active := by
  cases r with
  | rechecking | saving => trivial
  | idle | reading | posting | checking | signingOut | returned | completed => cases h

theorem Refresh.owns_of_not_active {r : Refresh} (h : ¬ r.Active) : r.Owns s := by
  cases r with
  | posting | rechecking | saving => exact absurd trivial h
  | idle | reading | checking | signingOut | returned | completed => trivial

structure Rotation (s : State) : Prop where
  flight : Flight s
  signIns : ∀ j, s.signIns j = .idle
  signOuts : ∀ j, s.signOuts j = none
  stored : ∀ t ∈ s.store.refresh, t ∈ s.issued
  rotated : ∀ t ∈ s.rotated, t ∈ s.issued
  replaced : ∀ t ∈ s.store.refresh, t ∈ s.rotated → ∃ k, (s.refreshes k).Replaces
  owns : ∀ k, (s.refreshes k).Owns s

section Rotation

variable {r r' : Refresh}

/-- Unless the refresh in flight is about to replace it, the stored token is not a rotated one. -/
theorem Rotation.notMem_rotated (h : Rotation s) (hk : s.refreshes k = r) (hactive : r.Active)
    (hr : ¬ r.Replaces) : ∀ t ∈ s.store.refresh, t ∉ s.rotated := by
  intro t ht hrot
  obtain ⟨k', hk'⟩ := h.replaced t ht hrot
  obtain rfl := h.flight.unique (hk ▸ hactive) hk'.active
  exact hr (hk ▸ hk')

theorem Rotation.owns_of (h : Rotation s) (hk : s.refreshes k = r) : r.Owns s := hk ▸ h.owns k

/-- A step of the refresh in flight. -/
theorem Rotation.set (h : Rotation s) (hflight : Flight (s'.setRefresh k r'))
    (hk : (s.refreshes k).Active) (hr : s'.refreshes = s.refreshes)
    (hins : s'.signIns = s.signIns) (houts : s'.signOuts = s.signOuts)
    (hstored : ∀ t ∈ s'.store.refresh, t ∈ s'.issued) (hrot : ∀ t ∈ s'.rotated, t ∈ s'.issued)
    (hreplaced : ∀ t ∈ s'.store.refresh, t ∈ s'.rotated → r'.Replaces) (howns : r'.Owns s') :
    Rotation (s'.setRefresh k r') where
  flight := hflight
  signIns j := (congrFun hins j).trans (h.signIns j)
  signOuts j := (congrFun houts j).trans (h.signOuts j)
  stored := hstored
  rotated := hrot
  replaced t ht hrot := by
    refine ⟨k, ?_⟩
    rw [refreshes_setRefresh, if_pos rfl]
    exact hreplaced t ht hrot
  owns k' := by
    rw [refreshes_setRefresh]
    split_ifs with hkk
    · cases r' <;> exact howns
    · refine Refresh.owns_of_not_active fun hactive ↦ hkk ?_
      rw [hr] at hactive
      exact h.flight.unique hk hactive

/-- The store and what the server did stay the same. -/
theorem Rotation.congr (h : Rotation s) (hr : s'.refreshes = s.refreshes)
    (hflight : s'.inFlight = s.inFlight ∧ s'.started = s.started) (hins : s'.signIns = s.signIns)
    (houts : s'.signOuts = s.signOuts) (hstore : s'.store = s.store)
    (hissued : s'.issued = s.issued) (hrot : s'.rotated = s.rotated) : Rotation s' where
  flight := h.flight.congr hr hflight.1 hflight.2
  signIns := hins ▸ h.signIns
  signOuts := houts ▸ h.signOuts
  stored := by rw [hstore, hissued]; exact h.stored
  rotated := by rw [hrot, hissued]; exact h.rotated
  replaced := by rw [hstore, hrot, hr]; exact h.replaced
  owns k := by
    have howns := h.owns k
    rw [hr]
    cases hk : s.refreshes k with
    | posting | rechecking | saving =>
      rw [hk] at howns
      simp only [Refresh.Owns, hstore, hissued, hrot] at howns ⊢
      exact howns
    | idle | reading | checking | signingOut | returned | completed => trivial

/-- The driver neither signs in nor out. -/
def Event.Unattended : Event → Prop
  | .signIn _ | .signOut _ => False
  | _ => True

instance : DecidablePred Event.Unattended := fun e ↦ by
  cases e with
  | signIn | signOut => exact inferInstanceAs (Decidable False)
  | _ => exact inferInstanceAs (Decidable True)

theorem Rotation.does (h : Rotation s) {e : Event} (he : e.Unattended) (hd : Does s e s') :
    Rotation s' := by
  have hflight := h.flight.does hd
  -- the refresh in flight keeps the store and goes on to what replaces nothing
  have hkeep {k : ℕ} {r r' : Refresh} {s₁ : State} (hk : s.refreshes k = r) (hactive : r.Active)
      (hr : ¬ r.Replaces) (hr' : r'.Owns s₁) (h₁ : s₁.refreshes = s.refreshes)
      (hins : s₁.signIns = s.signIns) (houts : s₁.signOuts = s.signOuts)
      (hstore : ∀ t ∈ s₁.store.refresh, t ∈ s.store.refresh) (hissued : s₁.issued = s.issued)
      (hrot : s₁.rotated = s.rotated) (hflight : Flight (s₁.setRefresh k r')) :
      Rotation (s₁.setRefresh k r') := by
    refine h.set hflight (hk ▸ hactive) h₁ hins houts (fun t ht ↦ ?_) ?_ (fun t ht hmem ↦ ?_) hr'
    · rw [hissued]
      exact h.stored t (hstore t ht)
    · rw [hrot, hissued]
      exact h.rotated
    · rw [hrot] at hmem
      exact absurd hmem (h.notMem_rotated hk hactive hr t (hstore t ht))
  cases hd with
  | refuse => exact h
  | fail | readJwt | retry | join | resume | giveUp =>
    exact h.congr rfl ⟨rfl, rfl⟩ rfl rfl rfl rfl rfl
  | start hi hnone =>
    have hidle : ∀ k, ¬ (s.refreshes k).Active := fun k hk ↦ by
      rw [h.flight.flight k hk] at hnone
      cases hnone
    refine ⟨hflight, h.signIns, h.signOuts, h.stored, h.rotated, fun t ht hrot ↦ ?_, fun k ↦ ?_⟩
    · obtain ⟨k, hk⟩ := h.replaced t ht hrot
      exact absurd hk.active (hidle k)
    · have hk : ∀ r, r = (if k = s.started then Refresh.reading else s.refreshes k) →
          r.Owns s := by
        rintro r rfl
        split_ifs
        · trivial
        · exact Refresh.owns_of_not_active (hidle k)
      have howns := hk _ (refreshes_setRefresh _ s.started .reading k)
      exact howns
  | post hk ht =>
    exact hkeep hk trivial id ⟨ht, h.notMem_rotated hk trivial id _ ht⟩ rfl rfl rfl
      (fun _ ↦ id) rfl rfl hflight
  | leave hk | checkSame hk | checkOther hk | reject hk | lose hk | complete hk =>
    exact hkeep hk trivial id trivial rfl rfl rfl (fun _ ↦ id) rfl rfl hflight
  | recheckSame hk ht =>
    obtain ⟨-, hissued, hrot⟩ := h.owns_of hk
    refine h.set hflight (by rw [hk]; trivial) rfl rfl rfl h.stored h.rotated
      (fun _ _ _ ↦ trivial) ?_
    exact ⟨hissued, hrot, fun hrest ↦ by cases hrest⟩
  | recheckOther hk ht => exact absurd (h.owns_of hk).1 ht
  | rotate hk hs hf =>
    obtain ⟨hstore, hnot⟩ := h.owns_of hk
    have hissued := h.stored _ hstore
    refine h.set hflight (by rw [hk]; trivial) rfl rfl rfl ?_ ?_ (fun _ _ _ ↦ trivial) ?_
    · exact fun t ht ↦ List.mem_cons_of_mem _ (List.mem_cons_of_mem _ (h.stored t ht))
    · intro t ht
      refine List.mem_cons_of_mem _ (List.mem_cons_of_mem _ ?_)
      rcases List.mem_cons.mp ht with rfl | ht
      · exact hissued
      · exact h.rotated t ht
    · refine ⟨hstore, List.mem_cons_of_mem _ List.mem_cons_self, fun hmem ↦ hf ?_⟩
      rcases List.mem_cons.mp hmem with heq | hmem
      · exact heq ▸ hissued
      · exact h.rotated _ hmem
  | saveOne hk =>
    rename_i k ses f
    obtain ⟨hissued, hnot, -⟩ := h.owns_of hk
    refine h.set hflight (by rw [hk]; trivial) rfl rfl rfl (fun t ht ↦ ?_) h.rotated
      (fun t ht hrot ↦ ?_) ⟨hissued, hnot, fun hrest ↦ ?_⟩
    · cases f with
      | jwt => exact h.stored t ht
      | refresh => exact Option.some.inj ht ▸ hissued
    · cases f with
      | jwt => exact rfl
      | refresh =>
        obtain rfl : ses.refreshToken = t := Option.some.inj ht
        exact absurd hrot hnot
    · cases f with
      | jwt => cases hrest
      | refresh => rfl
  | saveLast hk =>
    rename_i k ses f
    obtain ⟨hissued, hnot, hrest⟩ := h.owns_of hk
    have hstore : (s.write ses f).store.refresh = some ses.refreshToken := by
      cases f with
      | jwt => exact hrest rfl
      | refresh => rfl
    refine h.set hflight (by rw [hk]; trivial) rfl rfl rfl (fun t ht ↦ ?_) h.rotated
      (fun t ht hrot ↦ ?_) trivial
    · rw [hstore] at ht
      exact Option.some.inj ht ▸ hissued
    · rw [hstore] at ht
      exact absurd (Option.some.inj ht ▸ hrot) hnot
  | dropSession hk hf =>
    rename_i k f phase
    refine hkeep hk trivial id ?_ (signOut_refreshes ..) (signOut_signIns ..)
      (signOut_signOuts ..) (fun t ht ↦ ?_) (signOut_issued ..) (signOut_rotated ..) hflight
    · cases (s.signOut f phase).2 <;> trivial
    · exact @get_signOut s f phase .refresh t ht
  | signIn => exact he.elim
  | signOut => exact he.elim
  | refuseExchange hj | exchange hj | saveSignInOne hj | saveSignInLast hj | signedIn hj =>
    rw [h.signIns] at hj
    cases hj
  | clear hj =>
    rw [h.signOuts] at hj
    cases hj

/-! ## Resending -/

/-- A request that is being handled was not resent yet. -/
structure Resends (s : State) : Prop where
  resent : ∀ i, s.resent i = if s.retried i then 1 else 0
  handled : ∀ i, s.handlers i ≠ .idle → s.retried i = false

theorem handlers_setHandler (s : State) (i : ℕ) (h : Handler) (i' : ℕ) :
    (s.setHandler i h).handlers i' = if i' = i then h else s.handlers i' :=
  Function.update_apply _ _ _ _

theorem Resends.congr (h : Resends s) (hresent : s'.resent = s.resent)
    (hretried : s'.retried = s.retried) (hhandlers : s'.handlers = s.handlers) : Resends s' where
  resent := by rw [hresent, hretried]; exact h.resent
  handled := by rw [hhandlers, hretried]; exact h.handled

theorem Resends.set (h : Resends s) (hi : s.handlers i ≠ .idle ∨ s.retried i = false)
    (p : Handler) : Resends (s.setHandler i p) where
  resent := h.resent
  handled i' hi' := by
    rw [handlers_setHandler] at hi'
    split_ifs at hi' with hii
    · rw [hii]
      exact hi.elim (h.handled i) id
    · exact h.handled i' hi'

theorem Resends.resend (h : Resends s) (hi : s.handlers i ≠ .idle) : Resends (s.resend i) where
  resent i' := by
    by_cases hii : i' = i
    · subst hii
      simp only [State.resend, State.setHandler, Function.update_self, h.resent i',
        h.handled i' hi, Bool.false_eq_true, if_false, if_true]
    · simp only [State.resend, State.setHandler, Function.update_of_ne hii]
      exact h.resent i'
  handled i' hi' := by
    have hne : i' ≠ i := by
      rintro rfl
      simp only [State.resend, State.setHandler, Function.update_self, ne_eq,
        not_true_eq_false] at hi'
    simp only [State.resend, State.setHandler, Function.update_of_ne hne] at hi' ⊢
    exact h.handled i' hi'

theorem Resends.does (h : Resends s) {e : Event} (hd : Does s e s') : Resends s' := by
  have hbusy {i : ℕ} {p : Handler} (hi : s.handlers i = p) (hp : p ≠ .idle) :
      s.handlers i ≠ .idle := hi ▸ hp
  cases hd with
  | refuse => exact h
  | fail hi hr => exact h.set (Or.inr hr) _
  | readJwt hi => exact h.set (Or.inl (hbusy hi Handler.noConfusion)) _
  | join hi => exact h.set (Or.inl (hbusy hi Handler.noConfusion)) _
  | giveUp hi => exact h.set (Or.inl (hbusy hi Handler.noConfusion)) _
  | start hi =>
    have h' : Resends ({ s with inFlight := some s.started, started := s.started + 1
        }.setRefresh s.started .reading) := h.congr rfl rfl rfl
    exact h'.set (Or.inl (hbusy hi Handler.noConfusion)) _
  | retry hi => exact h.resend (hbusy hi Handler.noConfusion)
  | resume hi => exact h.resend (hbusy hi Handler.noConfusion)
  | dropSession | clear =>
    exact h.congr (signOut_resent ..) (signOut_retried ..) (signOut_handlers ..)
  | post | leave | checkSame | checkOther | recheckSame | recheckOther | rotate | reject | lose
  | saveOne | saveLast | complete | signIn | refuseExchange | exchange | saveSignInOne
  | saveSignInLast | signedIn | signOut => exact h.congr rfl rfl rfl

end Rotation

/-! ## Runs -/

/-- Nothing goes on; what is stored is known. -/
structure State.AtRest (s : State) : Prop where
  inFlight : s.inFlight = none
  handlers : ∀ i, s.handlers i = .idle
  retried : ∀ i, s.retried i = false
  refreshes : ∀ k, s.refreshes k = .idle
  signIns : ∀ j, s.signIns j = .idle
  signOuts : ∀ j, s.signOuts j = none
  auth : ∀ session ∈ s.auth, session ∈ s.landed
  stored : ∀ f, ∀ t ∈ s.store.get f, t ∈ s.issued ∧ t.session ∈ s.landed
  landed : ∀ session ∈ s.landed, ∃ t ∈ s.issued, t.session = session
  rotated : s.rotated = []
  resent : ∀ i, s.resent i = 0
  before : ∀ k, s.before k = []
  signedOut : s.signedOut = []

theorem State.AtRest.flight (h : s.AtRest) : Flight s where
  flight k hk := by
    rw [h.refreshes] at hk
    cases hk
  unstarted k _ := h.refreshes k

theorem State.AtRest.rotation (h : s.AtRest) : Rotation s where
  flight := h.flight
  signIns := h.signIns
  signOuts := h.signOuts
  stored t ht := (h.stored .refresh t ht).1
  rotated t ht := by
    rw [h.rotated] at ht
    exact absurd ht List.not_mem_nil
  replaced t _ ht := by
    rw [h.rotated] at ht
    exact absurd ht List.not_mem_nil
  owns k := by
    rw [h.refreshes]
    trivial

theorem State.AtRest.resends (h : s.AtRest) : Resends s where
  resent i := by
    rw [h.resent, h.retried]
    rfl
  handled i hi := absurd (h.handlers i) hi

/-- **Refreshing once.**

While the driver neither signs in nor out, at most one refresh POST is in flight, none posts a token
that was rotated before, and no request is resent twice. -/
theorem refreshes_once {s₀ : State} {tr : List (State × Event)} (h₀ : s₀.AtRest)
    (hr : Run (only step fun _ e ↦ e.Unattended) s₀ tr s) :
    (∀ k k' t t', s.refreshes k = .posting t → s.refreshes k' = .posting t' → k = k') ∧
      (∀ k t, s.refreshes k = .posting t → t ∉ s.rotated) ∧ ∀ i, s.resent i ≤ 1 := by
  have hrotation : Rotation s :=
    hr.invariant (fun _ _ _ h hst ↦ h.does hst.2 (does_of_step hst.1)) h₀.rotation
  have hresends : Resends s :=
    hr.invariant (fun _ _ _ h hst ↦ h.does (does_of_step hst.1)) h₀.resends
  refine ⟨fun k k' t t' hk hk' ↦ ?_, fun k t hk ↦ ?_, fun i ↦ ?_⟩
  · refine (hrotation.flight.unique ?_ ?_).symm
    · rw [hk]
      trivial
    · rw [hk']
      trivial
  · exact (hrotation.owns_of hk).2
  · rw [hresends.resent]
    split_ifs <;> decide

/-- The app of a signed-in driver. -/
def sampleApp : State where
  store := ⟨some ⟨0, 0⟩, some ⟨0, 1⟩⟩
  inFlight := none
  handlers _ := .idle
  retried _ := false
  refreshes _ := .idle
  started := 0
  signIns _ := .idle
  signOuts _ := none
  auth := some 0
  issued := [⟨0, 0⟩, ⟨0, 1⟩]
  rotated := []
  resent _ := 0
  landed := [0]
  before _ := []
  signedOut := []

theorem sampleApp_atRest : sampleApp.AtRest where
  inFlight := rfl
  handlers _ := rfl
  retried _ := rfl
  refreshes _ := rfl
  signIns _ := rfl
  signOuts _ := rfl
  auth _ h := Option.some.inj h ▸ List.mem_cons_self
  stored f t ht := by
    cases f with
    | jwt =>
      obtain rfl : ⟨0, 0⟩ = t := Option.some.inj ht
      decide
    | refresh =>
      obtain rfl : ⟨0, 1⟩ = t := Option.some.inj ht
      decide
  landed := by decide
  rotated := rfl
  resent _ := rfl
  before _ := rfl
  signedOut := rfl

/-- Two requests fail and are resent with the tokens of one refresh. -/
def sampleShared : List Event :=
  [.fail 0 (some ⟨0, 0⟩), .fail 1 (some ⟨0, 0⟩), .readJwt 0, .compareJwt 0, .readJwt 1,
    .compareJwt 1, .readRefresh 0, .answer 0 (.body (some ⟨0, 2, 3⟩)), .readRefresh 0, .save 0 .jwt,
    .save 0 .refresh, .complete 0, .resume 0, .resume 1]

theorem sampleShared_refreshes :
    (sampleShared.foldl (nextD next) sampleApp).store = ⟨some ⟨0, 2⟩, some ⟨0, 3⟩⟩ ∧
      ∀ i, (sampleShared.foldl (nextD next) sampleApp).resent i ≤ 1 := by
  have hr : Run (only step fun _ e ↦ e.Unattended) sampleApp
      (traceOf (nextD next) sampleApp sampleShared) (sampleShared.foldl (nextD next) sampleApp) := by
    have hok : Enabled (fun s e ↦ (next s e).isSome ∧ e.Unattended) (nextD next) sampleApp
        sampleShared := by decide
    exact Run.of_enabled _ (fun _ _ h ↦ ⟨nextD_eq h.1, h.2⟩) sampleShared hok
  exact ⟨by decide, (refreshes_once sampleApp_atRest hr).2.2⟩

end Rcab.DriverApp.Session
