import Rcab.DriverApp.SingleFlight

/-!
# Signed-out sessions

A refresh looks at the stored refresh token and acts on what it saw in later steps, and the two
fields of the store are written and deleted one by one.  Where no other write or deletion comes in
between (`Event.Settled`), a session that was signed out is not stored again, and a refresh neither
overwrites nor signs out a later session (`kept_of_settled`).

Three invariants carry the proof: which sessions are known (`Known`), what a refresh that has looked
may still overwrite (`Window`), and what the sign-outs have deleted for good (`Cleared`).
-/

namespace Rcab.DriverApp.Session

/-! ## What is still to come -/

/-- The field is still to be written, with a token of the session. -/
def Refresh.Writes (f : Field) (S : ℕ) : Refresh → Prop
  | .saving ses rest => rest.Has f ∧ ses.session = S
  | _ => False

def SignIn.Writes (f : Field) (S : ℕ) : SignIn → Prop
  | .saving ses rest => rest.Has f ∧ ses.session = S
  | _ => False

/-- The field is still to be deleted. -/
def SigningOut.Clears (f : Field) : SigningOut → Prop
  | .reading | .loggingOut _ => True
  | .clearing _ rest => rest.Has f
  | .leaving => False

/-- A refresh that has looked at the store has still to write or to delete the field. -/
def Refresh.Touches (f : Field) : Refresh → Prop
  | .saving _ rest => rest.Has f
  | .signingOut phase => phase.Clears f
  | _ => False

def Refresh.SignsOut : Refresh → Prop
  | .signingOut _ => True
  | _ => False

/-- Nothing of the session is about to be written to the field. -/
def State.Unwritten (s : State) (f : Field) (S : ℕ) : Prop :=
  (∀ k, ¬ (s.refreshes k).Writes f S) ∧ ∀ j, ¬ (s.signIns j).Writes f S

/-- A sign-out of the session has deleted the jwt and not yet the refresh token. -/
def State.HalfCleared (s : State) (S : ℕ) : Prop :=
  ∃ j r, s.signOuts j = some (.clearing (some r) (.only .refresh)) ∧ r.session = S

/-- Nothing later is stored beside the token the refresh finds again, and no sign-out of its session
is half done. -/
def Refresh.Settled (s : State) (k : ℕ) : Refresh → Prop
  | .checking t => s.store.refresh = some t →
      (∀ u ∈ s.store.jwt, u.session ∈ s.before k) ∧ ∀ S ∈ s.auth, S ∈ s.before k
  | .rechecking t _ => s.store.refresh = some t →
      (∀ u ∈ s.store.jwt, u.session ∈ s.before k) ∧ ¬ s.HalfCleared t.session
  | _ => True

/-- The step does not come between a look at the store and what follows from it. -/
def Event.Settled (s : State) : Event → Prop
  | .readRefresh k => (s.refreshes k).Settled s k
  | .saveSignIn j f => ∀ ses rest, s.signIns j = .saving ses rest →
      ∀ k, (s.refreshes k).Touches f → ses.session ∈ s.before k
  | .signedIn j => ∀ S, s.signIns j = .saved S → ∀ k, (s.refreshes k).SignsOut → S ∈ s.before k
  | .dropSession k f => ∀ r rest, s.refreshes k = .signingOut (.clearing (some r) rest) →
      s.Unwritten f r.session
  | .clear j f => ∀ r rest, s.signOuts j = some (.clearing (some r) rest) →
      s.Unwritten f r.session
  | _ => True

/-! ## What is kept -/

/-- A refresh writes over no later session and signs none out. -/
def Event.Respects (s : State) : Event → Prop
  | .save k f => ∀ u ∈ s.store.get f, u.session ∈ s.before k
  | .dropSession k f =>
      match s.refreshes k with
      | .signingOut .reading => ∀ u ∈ s.store.refresh, u.session ∈ s.before k
      | .signingOut (.clearing _ _) => ∀ u ∈ s.store.get f, u.session ∈ s.before k
      | .signingOut .leaving => ∀ S ∈ s.auth, S ∈ s.before k
      | _ => True
  | _ => True

structure Kept (tr : List (State × Event)) (s : State) : Prop where
  signedOut : ∀ S ∈ s.signedOut, ∀ f, ∀ u ∈ s.store.get f, u.session ≠ S
  respects : ∀ x ∈ tr, x.2.Respects x.1

variable {s s' : State} {i j k : ℕ} {f g : Field} {t : Token} {ses : NativeSession} {S : ℕ}
  {e : Event}

theorem Refresh.Touches.active {r : Refresh} (h : r.Touches f) : r.Active := by
  cases r with
  | saving | signingOut => trivial
  | idle | reading | posting | checking | rechecking | returned | completed => cases h

theorem Refresh.SignsOut.active {r : Refresh} (h : r.SignsOut) : r.Active := by
  cases r with
  | signingOut => trivial
  | idle | reading | posting | checking | rechecking | saving | returned | completed => cases h

/-! ## Known sessions -/

def State.Issued (s : State) (S : ℕ) : Prop := ∃ t ∈ s.issued, t.session = S

def SigningOut.Known (s : State) : SigningOut → Prop
  | .loggingOut r | .clearing (some r) _ => s.Issued r.session
  | _ => True

def SignIn.Known (s : State) : SignIn → Prop
  | .saving ses _ => s.Issued ses.session
  | .saved S => S ∈ s.landed
  | _ => True

/-- The session of a refresh is one of those from before it. -/
def Refresh.Known (s : State) (k : ℕ) : Refresh → Prop
  | .posting t | .checking t => t.session ∈ s.before k
  | .rechecking t ses => t.session ∈ s.before k ∧ ses.session = t.session
  | .saving ses _ => ses.session ∈ s.before k
  | .signingOut phase => phase.Known s
  | _ => True

structure Known (s : State) : Prop where
  stored : ∀ f, ∀ u ∈ s.store.get f, u.session ∈ s.landed
  auth : ∀ S ∈ s.auth, S ∈ s.landed
  landed : ∀ S ∈ s.landed, s.Issued S
  before : ∀ k, ∀ S ∈ s.before k, S ∈ s.landed
  signIns : ∀ j, (s.signIns j).Known s
  refreshes : ∀ k, (s.refreshes k).Known s k
  signOuts : ∀ j, ∀ phase ∈ s.signOuts j, phase.Known s

/-- More is issued and saved. -/
structure Grows (s s' : State) : Prop where
  issued : ∀ t ∈ s.issued, t ∈ s'.issued
  landed : ∀ S ∈ s.landed, S ∈ s'.landed
  /-- A refresh that has not read its token yet has no past. -/
  before : ∀ k, s'.before k = s.before k ∨ s.refreshes k = .reading

theorem State.Issued.mono (h : s.Issued S) (hg : ∀ t ∈ s.issued, t ∈ s'.issued) : s'.Issued S := by
  obtain ⟨t, ht, hS⟩ := h
  exact ⟨t, hg t ht, hS⟩

theorem SigningOut.Known.mono {phase : SigningOut} (h : phase.Known s)
    (hg : ∀ t ∈ s.issued, t ∈ s'.issued) : phase.Known s' := by
  cases phase with
  | reading | leaving => trivial
  | loggingOut r => exact State.Issued.mono h hg
  | clearing r rest =>
    cases r with
    | none => trivial
    | some r => exact State.Issued.mono h hg

theorem SignIn.Known.mono {p : SignIn} (h : p.Known s) (hg : Grows s s') : p.Known s' := by
  cases p with
  | idle | posting => trivial
  | saving => exact State.Issued.mono h hg.issued
  | saved S => exact hg.landed S h

theorem Refresh.Known.mono {r : Refresh} (h : r.Known s k) (hg : Grows s s')
    (hr : s.refreshes k = r) : r.Known s' k := by
  rcases hg.before k with hb | hb
  · cases r with
    | signingOut phase => exact SigningOut.Known.mono h hg.issued
    | idle | reading | returned | completed => trivial
    | posting | checking | rechecking | saving =>
      simp only [Refresh.Known, hb] at h ⊢
      exact h
  · rw [← hr, hb]
    trivial

/-- What is stored, who is signed in and what was saved change; nobody moves on. -/
theorem Known.base (h : Known s) (hg : Grows s s')
    (hstored : ∀ f, ∀ u ∈ s'.store.get f, u.session ∈ s'.landed)
    (hauth : ∀ S ∈ s'.auth, S ∈ s'.landed) (hlanded : ∀ S ∈ s'.landed, s'.Issued S)
    (hbefore : ∀ k, ∀ S ∈ s'.before k, S ∈ s'.landed) (hins : s'.signIns = s.signIns)
    (hr : s'.refreshes = s.refreshes) (houts : s'.signOuts = s.signOuts) : Known s' where
  stored := hstored
  auth := hauth
  landed := hlanded
  before := hbefore
  signIns j := by
    rw [hins]
    exact (h.signIns j).mono hg
  refreshes k := by
    rw [hr]
    exact (h.refreshes k).mono hg rfl
  signOuts j phase hphase := by
    rw [houts] at hphase
    exact (h.signOuts j phase hphase).mono hg.issued

/-- Nothing of this changes. -/
theorem Known.congr (h : Known s) (hstore : s'.store = s.store) (hauth : s'.auth = s.auth)
    (hissued : s'.issued = s.issued) (hlanded : s'.landed = s.landed)
    (hbefore : s'.before = s.before) (hins : s'.signIns = s.signIns)
    (hr : s'.refreshes = s.refreshes) (houts : s'.signOuts = s.signOuts) : Known s' := by
  have hmem : ∀ t ∈ s.issued, t ∈ s'.issued := fun t ht ↦ hissued ▸ ht
  refine h.base ⟨hmem, fun S hS ↦ hlanded ▸ hS, fun k ↦ Or.inl (congrFun hbefore k)⟩ ?_ ?_ ?_ ?_
    hins hr houts
  · rw [hstore, hlanded]
    exact h.stored
  · rw [hauth, hlanded]
    exact h.auth
  · rw [hlanded]
    exact fun S hS ↦ (h.landed S hS).mono hmem
  · rw [hbefore, hlanded]
    exact h.before

theorem Known.setRefresh (h : Known s) {r : Refresh} (hr : r.Known s k) :
    Known (s.setRefresh k r) where
  stored := h.stored
  auth := h.auth
  landed := h.landed
  before := h.before
  signIns := h.signIns
  refreshes := (Function.forall_update_iff _ _).mpr ⟨hr, fun k' _ ↦ h.refreshes k'⟩
  signOuts := h.signOuts

theorem Known.setSignIn (h : Known s) {p : SignIn} (hp : p.Known s) :
    Known (s.setSignIn j p) where
  stored := h.stored
  auth := h.auth
  landed := h.landed
  before := h.before
  signIns := (Function.forall_update_iff _ _).mpr ⟨hp, fun j' _ ↦ h.signIns j'⟩
  refreshes := h.refreshes
  signOuts := h.signOuts

theorem Known.setSignOut (h : Known s) {p : Option SigningOut}
    (hp : ∀ phase ∈ p, phase.Known s) : Known (s.setSignOut j p) where
  stored := h.stored
  auth := h.auth
  landed := h.landed
  before := h.before
  signIns := h.signIns
  refreshes := h.refreshes
  signOuts := (Function.forall_update_iff _ fun _ p ↦ ∀ phase ∈ p, SigningOut.Known s phase).mpr
    ⟨hp, fun j' _ ↦ h.signOuts j'⟩

/-- A token of a known session is saved. -/
theorem Known.write (h : Known s) (hses : s.Issued ses.session) : Known (s.write ses f) := by
  refine h.base ⟨fun _ ↦ id, fun _ ↦ List.mem_cons_of_mem _, fun _ ↦ Or.inl rfl⟩ ?_ ?_ ?_ ?_
    rfl rfl rfl
  · intro g u hu
    change u ∈ (s.store.set (some (ses.token f)) f).get g at hu
    rw [get_set] at hu
    split_ifs at hu
    · obtain rfl := Option.some.inj hu
      cases f <;> exact List.mem_cons_self
    · exact List.mem_cons_of_mem _ (h.stored g u hu)
  · exact fun S hS ↦ List.mem_cons_of_mem _ (h.auth S hS)
  · intro S hS
    rcases List.mem_cons.mp hS with rfl | hS
    · exact hses
    · exact h.landed S hS
  · exact fun k S hS ↦ List.mem_cons_of_mem _ (h.before k S hS)

/-- A refresh reads its token. -/
theorem Known.setBefore (h : Known s) (hk : s.refreshes k = .reading) {b : List ℕ}
    (hb : ∀ S ∈ b, S ∈ s.landed) : Known { s with before := Function.update s.before k b } := by
  refine h.base ⟨fun _ ↦ id, fun _ ↦ id, ?_⟩ h.stored h.auth h.landed ?_ rfl rfl rfl
  · exact (Function.forall_update_iff _ fun k' b ↦ b = s.before k' ∨ _).mpr
      ⟨Or.inr hk, fun k' _ ↦ Or.inl rfl⟩
  · exact (Function.forall_update_iff _ fun _ b ↦ ∀ S ∈ b, S ∈ s.landed).mpr
      ⟨hb, fun k' _ ↦ h.before k'⟩

theorem Known.signOut (h : Known s) (phase : SigningOut) : Known (s.signOut f phase).1 := by
  have hissued : ∀ t ∈ s.issued, t ∈ (s.signOut f phase).1.issued := fun t ht ↦ by
    rwa [signOut_issued]
  refine h.base ⟨hissued, fun S hS ↦ ?_, fun k ↦ Or.inl ?_⟩ ?_ ?_ ?_ ?_ (signOut_signIns ..)
    (signOut_refreshes ..) (signOut_signOuts ..)
  · rwa [signOut_landed]
  · rw [signOut_before]
  · rw [signOut_landed]
    exact fun g u hu ↦ h.stored g u (get_signOut hu)
  · rw [signOut_landed]
    exact fun S hS ↦ h.auth S (auth_signOut hS)
  · rw [signOut_landed]
    exact fun S hS ↦ (h.landed S hS).mono hissued
  · rw [signOut_landed, signOut_before]
    exact h.before

/-- A sign-out goes on with the session it read. -/
theorem Known.signOut_next (h : Known s) {phase : SigningOut} (hp : phase.Known s) :
    ∀ phase' ∈ (s.signOut f phase).2, phase'.Known s := by
  intro phase' hphase'
  cases phase with
  | reading =>
    obtain rfl := Option.some.inj hphase'
    cases hr : s.store.refresh with
    | none => trivial
    | some r => exact h.landed _ (h.stored .refresh r hr)
  | loggingOut r =>
    obtain rfl := Option.some.inj hphase'
    exact hp
  | clearing r rest =>
    cases rest with
    | both =>
      obtain rfl := Option.some.inj hphase'
      cases r with
      | none => trivial
      | some r => exact hp
    | only g =>
      obtain rfl := Option.some.inj hphase'
      trivial
  | leaving => cases hphase'

theorem Known.does (h : Known s) (hd : Does s e s') : Known s' := by
  have hrefresh {k : ℕ} {r : Refresh} (hk : s.refreshes k = r) : r.Known s k := hk ▸ h.refreshes k
  have hsignIn {j : ℕ} {p : SignIn} (hj : s.signIns j = p) : p.Known s := hj ▸ h.signIns j
  have hissued {S k : ℕ} (hS : S ∈ s.before k) : s.Issued S := h.landed S (h.before k S hS)
  cases hd with
  | refuse => exact h
  | fail | readJwt | retry | join | resume | giveUp => exact h.congr rfl rfl rfl rfl rfl rfl rfl rfl
  | start hi hnone =>
    have hbase : Known { s with inFlight := some s.started, started := s.started + 1 } :=
      h.congr rfl rfl rfl rfl rfl rfl rfl rfl
    have hset : Known (({ s with inFlight := some s.started, started := s.started + 1
      } : State).setRefresh s.started .reading) := hbase.setRefresh trivial
    exact hset.congr rfl rfl rfl rfl rfl rfl rfl rfl
  | post hk ht =>
    rename_i k t
    have hbase := h.setBefore hk (b := s.landed.filter (· ≤ t.session)) fun S hS ↦
      (List.mem_filter.mp hS).1
    refine hbase.setRefresh ?_
    change t.session ∈ Function.update s.before k _ k
    rw [Function.update_self]
    exact List.mem_filter.mpr ⟨h.stored .refresh t ht, decide_eq_true le_rfl⟩
  | leave hk ht => exact (h.setBefore hk fun _ ↦ id).setRefresh trivial
  | checkSame hk | checkOther hk | recheckOther hk | lose hk => exact h.setRefresh trivial
  | reject hk =>
    have hbefore : _ ∈ s.before _ := hrefresh hk
    exact h.setRefresh hbefore
  | recheckSame hk =>
    obtain ⟨hbefore, hses⟩ := hrefresh hk
    exact h.setRefresh (hses ▸ hbefore : _ ∈ s.before _)
  | rotate hk hs hf =>
    rename_i k t ses
    have hmem : ∀ u ∈ s.issued, u ∈ ses.accessToken :: ses.refreshToken :: s.issued := fun u hu ↦
      List.mem_cons_of_mem _ (List.mem_cons_of_mem _ hu)
    have hbase : Known { s with issued := ses.accessToken :: ses.refreshToken :: s.issued
                                rotated := t :: s.rotated } :=
      h.base ⟨hmem, fun _ ↦ id, fun _ ↦ Or.inl rfl⟩ h.stored h.auth
        (fun S hS ↦ (h.landed S hS).mono hmem) h.before rfl rfl rfl
    exact hbase.setRefresh ⟨hrefresh hk, hs⟩
  | saveOne hk => exact (h.write (hissued (hrefresh hk))).setRefresh (hrefresh hk)
  | saveLast hk => exact (h.write (hissued (hrefresh hk))).setRefresh trivial
  | dropSession hk hf =>
    rename_i k f phase
    refine (h.signOut phase).setRefresh ?_
    have hnext := h.signOut_next (f := f) (hrefresh hk)
    cases hphase : (s.signOut f phase).2 with
    | none => trivial
    | some phase' =>
      exact (hnext phase' hphase).mono fun u hu ↦ by rwa [signOut_issued]
  | complete hk =>
    have hbase : Known { s with inFlight := none } := h.congr rfl rfl rfl rfl rfl rfl rfl rfl
    exact hbase.setRefresh trivial
  | signIn | refuseExchange => exact h.setSignIn trivial
  | exchange hj hf =>
    rename_i j ses
    have hmem : ∀ u ∈ s.issued, u ∈ ses.accessToken :: ses.refreshToken :: s.issued := fun u hu ↦
      List.mem_cons_of_mem _ (List.mem_cons_of_mem _ hu)
    have hbase : Known { s with issued := ses.accessToken :: ses.refreshToken :: s.issued } :=
      h.base ⟨hmem, fun _ ↦ id, fun _ ↦ Or.inl rfl⟩ h.stored h.auth
        (fun S hS ↦ (h.landed S hS).mono hmem) h.before rfl rfl rfl
    exact hbase.setSignIn ⟨ses.accessToken, List.mem_cons_self, rfl⟩
  | saveSignInOne hj => exact (h.write (hsignIn hj)).setSignIn (hsignIn hj)
  | saveSignInLast hj => exact (h.write (hsignIn hj)).setSignIn (List.mem_cons_self : _ ∈ _ :: _)
  | signedIn hj =>
    rename_i j session
    have hbase : Known { s with auth := some session } := by
      refine h.base ⟨fun _ ↦ id, fun _ ↦ id, fun _ ↦ Or.inl rfl⟩ h.stored ?_ h.landed h.before
        rfl rfl rfl
      exact fun S hS ↦ Option.some.inj hS ▸ hsignIn hj
    exact hbase.setSignIn trivial
  | signOut =>
    exact h.setSignOut fun phase hphase ↦ Option.some.inj hphase ▸ trivial
  | clear hj hf =>
    rename_i j f phase
    refine (h.signOut phase).setSignOut fun phase' hphase' ↦ ?_
    have hnext := h.signOut_next (f := f) (h.signOuts j phase hj)
    exact (hnext phase' hphase').mono fun u hu ↦ by rwa [signOut_issued]

/-! ## What a refresh may overwrite -/

/-- What a refresh that has looked is about to write over, delete or sign out is not later. -/
structure Window (s : State) : Prop where
  touched : ∀ k f, (s.refreshes k).Touches f → ∀ u ∈ s.store.get f, u.session ∈ s.before k
  auth : ∀ k, (s.refreshes k).SignsOut → ∀ S ∈ s.auth, S ∈ s.before k

theorem Window.base (h : Window s) (hr : s'.refreshes = s.refreshes)
    (hbefore : ∀ k, s'.before k = s.before k ∨ s.refreshes k = .reading)
    (hstored : ∀ f, ∀ u ∈ s'.store.get f, u ∈ s.store.get f ∨
      ∀ k, (s.refreshes k).Touches f → u.session ∈ s.before k)
    (hauth : ∀ S ∈ s'.auth, S ∈ s.auth ∨ ∀ k, (s.refreshes k).SignsOut → S ∈ s.before k) :
    Window s' where
  touched k f hk u hu := by
    rw [hr] at hk
    have hb : s'.before k = s.before k := (hbefore k).resolve_right fun hreading ↦ by
      rw [hreading] at hk
      cases hk
    rw [hb]
    exact (hstored f u hu).elim (h.touched k f hk u) fun hall ↦ hall k hk
  auth k hk S hS := by
    rw [hr] at hk
    have hb : s'.before k = s.before k := (hbefore k).resolve_right fun hreading ↦ by
      rw [hreading] at hk
      cases hk
    rw [hb]
    exact (hauth S hS).elim (h.auth k hk S) fun hall ↦ hall k hk

theorem Window.congr (h : Window s) (hr : s'.refreshes = s.refreshes)
    (hbefore : s'.before = s.before) (hstore : s'.store = s.store) (hauth : s'.auth = s.auth) :
    Window s' := by
  refine h.base hr (fun k ↦ Or.inl (congrFun hbefore k)) (fun f u hu ↦ Or.inl ?_)
    (fun S hS ↦ Or.inl ?_)
  · rwa [hstore] at hu
  · rwa [hauth] at hS

theorem Window.setRefresh (h : Window s) {r : Refresh}
    (htouched : ∀ f, r.Touches f → ∀ u ∈ s.store.get f, u.session ∈ s.before k)
    (hauth : r.SignsOut → ∀ S ∈ s.auth, S ∈ s.before k) : Window (s.setRefresh k r) where
  touched := (Function.forall_update_iff _ fun k r ↦ ∀ f, Refresh.Touches f r →
    ∀ u ∈ s.store.get f, u.session ∈ s.before k).mpr ⟨htouched, fun k' _ ↦ h.touched k'⟩
  auth := (Function.forall_update_iff _ fun k r ↦ Refresh.SignsOut r →
    ∀ S ∈ s.auth, S ∈ s.before k).mpr ⟨hauth, fun k' _ ↦ h.auth k'⟩

/-- The refresh goes on to what touches nothing. -/
theorem Window.setQuiet (h : Window s) {r : Refresh} (htouched : ∀ f, ¬ r.Touches f)
    (hout : ¬ r.SignsOut) : Window (s.setRefresh k r) :=
  h.setRefresh (fun f hf ↦ absurd hf (htouched f)) fun hr ↦ absurd hr hout

theorem Window.write (h : Window s)
    (hses : ∀ k, (s.refreshes k).Touches f → ses.session ∈ s.before k) :
    Window (s.write ses f) := by
  refine h.base rfl (fun _ ↦ Or.inl rfl) (fun g u hu ↦ ?_) fun _ ↦ Or.inl
  change u ∈ (s.store.set (some (ses.token f)) f).get g at hu
  rw [get_set] at hu
  split_ifs at hu with hgf
  · obtain rfl := Option.some.inj hu
    subst hgf
    refine Or.inr fun k hk ↦ ?_
    cases g <;> exact hses k hk
  · exact Or.inl hu

theorem Window.signOut (h : Window s) (phase : SigningOut) : Window (s.signOut f phase).1 := by
  refine h.base (signOut_refreshes ..) (fun k ↦ Or.inl ?_) (fun _ _ hu ↦ Or.inl (get_signOut hu))
    fun _ hS ↦ Or.inl (auth_signOut hS)
  rw [signOut_before]

/-- A sign-out deletes no more than it had set out to. -/
theorem SigningOut.Clears.of_next {phase phase' : SigningOut}
    (hnext : (s.signOut f phase).2 = some phase') (h : phase'.Clears g) :
    phase.Clears g := by
  cases phase with
  | reading | loggingOut => trivial
  | clearing r rest =>
    cases rest with
    | both => trivial
    | only f' =>
      obtain rfl := Option.some.inj hnext
      cases h
  | leaving => cases hnext

theorem Window.does (h : Window s) (hflight : Flight s) (hknown : Known s) (he : e.Settled s)
    (hd : Does s e s') : Window s' := by
  have hidle {k : ℕ} (hk : s.refreshes k = .reading) (b : List ℕ) :
      Window { s with before := Function.update s.before k b } := by
    refine h.base rfl ?_ (fun _ _ hu ↦ Or.inl hu) fun _ ↦ Or.inl
    exact (Function.forall_update_iff _ fun k' b ↦ b = s.before k' ∨ _).mpr
      ⟨Or.inr hk, fun k' _ ↦ Or.inl rfl⟩
  -- the refresh in flight is the only one that touches anything
  have hown {k : ℕ} {ses : NativeSession} {rest : Rest} (hk : s.refreshes k = .saving ses rest)
      (f : Field) : ∀ k', (s.refreshes k').Touches f → ses.session ∈ s.before k' := by
    intro k' hk'
    have hactive : (s.refreshes k).Active := by
      rw [hk]
      trivial
    obtain rfl := hflight.unique hactive hk'.active
    have hsession := hknown.refreshes k'
    rw [hk] at hsession
    exact hsession
  cases hd with
  | refuse => exact h
  | fail | readJwt | retry | join | resume | giveUp | signIn | refuseExchange | exchange
  | signOut => exact h.congr rfl rfl rfl rfl
  | start =>
    have hbase : Window { s with inFlight := some s.started, started := s.started + 1 } :=
      h.congr rfl rfl rfl rfl
    have hset := hbase.setQuiet (k := s.started) (r := .reading) (fun _ ↦ id) id
    exact hset.congr rfl rfl rfl rfl
  | post hk => exact (hidle hk _).setQuiet (fun _ ↦ id) id
  | leave hk ht =>
    refine (hidle hk _).setRefresh (fun f _ u hu ↦ ?_) fun _ S hS ↦ ?_
    · simp only [Function.update_self]
      exact hknown.stored f u hu
    · simp only [Function.update_self]
      exact hknown.auth S hS
  | checkSame hk ht =>
    rename_i k t
    have hbefore := hknown.refreshes k
    have hsettled : (s.refreshes k).Settled s k := he
    rw [hk] at hbefore hsettled
    refine h.setRefresh (fun f _ u hu ↦ ?_) fun _ ↦ (hsettled ht).2
    cases f with
    | jwt => exact (hsettled ht).1 u hu
    | refresh =>
      obtain rfl : t = u := Option.some.inj (ht.symm.trans hu)
      exact hbefore
  | recheckSame hk ht =>
    rename_i k t ses
    have hbefore := hknown.refreshes k
    have hsettled : (s.refreshes k).Settled s k := he
    rw [hk] at hbefore hsettled
    refine h.setRefresh (fun f _ u hu ↦ ?_) False.elim
    cases f with
    | jwt => exact (hsettled ht).1 u hu
    | refresh =>
      obtain rfl : t = u := Option.some.inj (ht.symm.trans hu)
      exact hbefore.1
  | checkOther | recheckOther | lose | reject => exact h.setQuiet (fun _ ↦ id) id
  | rotate hk =>
    refine Window.setQuiet ?_ (fun _ ↦ id) id
    exact h.congr rfl rfl rfl rfl
  | saveOne hk =>
    rename_i k ses f
    refine (h.write (hown hk f)).setRefresh (fun g _ ↦ ?_) False.elim
    have hwrite := (h.write (hown hk f)).touched k g
    refine hwrite ?_
    change (s.refreshes k).Touches g
    rw [hk]
    trivial
  | saveLast hk => exact (h.write (hown hk _)).setQuiet (fun _ ↦ id) id
  | dropSession hk hf =>
    rename_i k f phase
    have hout := h.signOut (f := f) phase
    have hr : (s.signOut f phase).1.refreshes k = .signingOut phase := by
      rw [signOut_refreshes, hk]
    cases hnext : (s.signOut f phase).2 with
    | none => exact hout.setQuiet (fun _ ↦ id) id
    | some phase' =>
      refine hout.setRefresh (fun g hg ↦ hout.touched k g ?_) fun _ ↦ hout.auth k ?_
      · rw [hr]
        exact SigningOut.Clears.of_next hnext hg
      · rw [hr]
        trivial
  | complete hk =>
    refine Window.setQuiet ?_ (fun _ ↦ id) id
    exact h.congr rfl rfl rfl rfl
  | saveSignInOne hj =>
    have hwrite := h.write (he _ _ hj)
    exact hwrite.congr rfl rfl rfl rfl
  | saveSignInLast hj =>
    have hwrite := h.write (he _ _ hj)
    exact hwrite.congr rfl rfl rfl rfl
  | signedIn hj =>
    rename_i j session
    refine h.base rfl (fun _ ↦ Or.inl rfl) (fun _ _ ↦ Or.inl) fun S hS ↦ Or.inr ?_
    obtain rfl := Option.some.inj hS
    exact he _ hj
  | clear hj hf =>
    rename_i j f phase
    have hout := h.signOut (f := f) phase
    exact hout.congr rfl rfl rfl rfl

/-- In a settled step a refresh respects the later sessions. -/
theorem Window.respects (h : Window s) (hd : Does s e s') : e.Respects s := by
  cases hd with
  | saveOne hk =>
    refine h.touched _ _ ?_
    rw [hk]
    trivial
  | saveLast hk =>
    refine h.touched _ _ ?_
    rw [hk]
    exact rfl
  | dropSession hk hf =>
    rename_i k f phase
    simp only [Event.Respects, hk]
    cases phase with
    | reading =>
      refine h.touched k .refresh ?_
      rw [hk]
      trivial
    | loggingOut => trivial
    | clearing r rest =>
      refine h.touched k f ?_
      rw [hk]
      exact hf
    | leaving =>
      refine h.auth k ?_
      rw [hk]
      trivial
  | refuse | fail | readJwt | retry | join | start | resume | giveUp | post | leave | checkSame
  | checkOther | recheckSame | recheckOther | rotate | reject | lose | complete | signIn
  | refuseExchange | exchange | saveSignInOne | saveSignInLast | signedIn | signOut | clear =>
    trivial

/-! ## What is deleted for good -/

/-- The field holds no token of the session, and none is about to be written. -/
structure Gone (s : State) (f : Field) (S : ℕ) : Prop where
  issued : s.Issued S
  stored : ∀ u ∈ s.store.get f, u.session ≠ S
  refreshes : ∀ k, ¬ (s.refreshes k).Writes f S
  signIns : ∀ j, ¬ (s.signIns j).Writes f S

theorem Gone.base (h : Gone s f S) (hissued : ∀ t ∈ s.issued, t ∈ s'.issued)
    (hstored : ∀ u ∈ s'.store.get f, u ∈ s.store.get f ∨ u.session ≠ S)
    (hr : s'.refreshes = s.refreshes) (hins : s'.signIns = s.signIns) : Gone s' f S where
  issued := h.issued.mono hissued
  stored u hu := (hstored u hu).elim (h.stored u) id
  refreshes := hr ▸ h.refreshes
  signIns := hins ▸ h.signIns

theorem Gone.congr (h : Gone s f S) (hissued : s'.issued = s.issued) (hstore : s'.store = s.store)
    (hr : s'.refreshes = s.refreshes) (hins : s'.signIns = s.signIns) : Gone s' f S := by
  refine h.base (fun t ht ↦ ?_) (fun u hu ↦ Or.inl ?_) hr hins
  · rwa [hissued]
  · rwa [hstore] at hu

theorem Gone.setRefresh (h : Gone s f S) {r : Refresh} (hr : ¬ r.Writes f S) :
    Gone (s.setRefresh k r) f S where
  issued := h.issued
  stored := h.stored
  refreshes := (Function.forall_update_iff _ fun _ r ↦ ¬ Refresh.Writes f S r).mpr
    ⟨hr, fun k' _ ↦ h.refreshes k'⟩
  signIns := h.signIns

theorem Gone.setSignIn (h : Gone s f S) {p : SignIn} (hp : ¬ p.Writes f S) :
    Gone (s.setSignIn j p) f S where
  issued := h.issued
  stored := h.stored
  refreshes := h.refreshes
  signIns := (Function.forall_update_iff _ fun _ p ↦ ¬ SignIn.Writes f S p).mpr
    ⟨hp, fun j' _ ↦ h.signIns j'⟩

theorem Gone.write (h : Gone s f S) (hses : g = f → ses.session ≠ S) :
    Gone (s.write ses g) f S := by
  refine h.base (fun _ ↦ id) (fun u hu ↦ ?_) rfl rfl
  change u ∈ (s.store.set (some (ses.token g)) g).get f at hu
  rw [get_set] at hu
  split_ifs at hu with hfg
  · obtain rfl := Option.some.inj hu
    subst hfg
    refine Or.inr ?_
    cases f <;> exact hses rfl
  · exact Or.inl hu

theorem Gone.signOut (h : Gone s f S) (phase : SigningOut) : Gone (s.signOut g phase).1 f S := by
  refine h.base (fun t ht ↦ ?_) (fun _ hu ↦ Or.inl (get_signOut hu)) (signOut_refreshes ..)
    (signOut_signIns ..)
  rwa [signOut_issued]

theorem other_other (f : Field) : f.other.other = f := by
  cases f <;> rfl

/-- A field stays without tokens of the session as long as no refresh of the session finds its token
again. -/
theorem Gone.does (h : Gone s f S) (hknown : Known s)
    (hrecheck : ∀ k t ses, e = .readRefresh k → s.refreshes k = .rechecking t ses →
      s.store.refresh = some t → t.session ≠ S) (hd : Does s e s') : Gone s' f S := by
  have hrefresh {k : ℕ} {r : Refresh} (hk : s.refreshes k = r) : ¬ r.Writes f S :=
    hk ▸ h.refreshes k
  have hsignIn {j : ℕ} {p : SignIn} (hj : s.signIns j = p) : ¬ p.Writes f S := hj ▸ h.signIns j
  cases hd with
  | refuse => exact h
  | fail | readJwt | retry | join | resume | giveUp | signOut => exact h.congr rfl rfl rfl rfl
  | start =>
    have hbase : Gone { s with inFlight := some s.started, started := s.started + 1 } f S :=
      h.congr rfl rfl rfl rfl
    have hset := hbase.setRefresh (k := s.started) (r := .reading) id
    exact hset.congr rfl rfl rfl rfl
  | post | leave | rotate | complete =>
    refine Gone.setRefresh ?_ id
    refine h.base (fun t ht ↦ ?_) (fun _ ↦ Or.inl) rfl rfl
    first
      | exact ht
      | exact List.mem_cons_of_mem _ (List.mem_cons_of_mem _ ht)
  | checkSame | checkOther | recheckOther | reject | lose => exact h.setRefresh id
  | recheckSame hk ht =>
    rename_i k t ses
    have hsession := hknown.refreshes k
    rw [hk] at hsession
    refine h.setRefresh fun hwrites ↦ hrecheck k t ses rfl hk ht ?_
    exact hsession.2.symm.trans hwrites.2
  | saveOne hk =>
    rename_i k ses g
    refine (h.write fun hgf hses ↦ hrefresh hk ⟨trivial, hses⟩).setRefresh fun hwrites ↦ ?_
    exact hrefresh hk ⟨trivial, hwrites.2⟩
  | saveLast hk =>
    rename_i k ses g
    exact (h.write fun hgf hses ↦ hrefresh hk ⟨hgf, hses⟩).setRefresh id
  | dropSession hk hf =>
    rename_i k g phase
    refine (h.signOut phase).setRefresh ?_
    cases (s.signOut g phase).2 <;> exact id
  | signIn | refuseExchange => exact h.setSignIn id
  | exchange hj hf =>
    rename_i j ses
    have hbase : Gone { s with issued := ses.accessToken :: ses.refreshToken :: s.issued } f S :=
      h.base (fun t ht ↦ List.mem_cons_of_mem _ (List.mem_cons_of_mem _ ht)) (fun _ ↦ Or.inl)
        rfl rfl
    refine hbase.setSignIn fun hwrites ↦ ?_
    obtain ⟨t, ht, hS⟩ := h.issued
    exact absurd (hS.trans hwrites.2.symm) (hf t ht).ne
  | saveSignInOne hj =>
    rename_i j ses g
    refine (h.write fun hgf hses ↦ hsignIn hj ⟨trivial, hses⟩).setSignIn fun hwrites ↦ ?_
    exact hsignIn hj ⟨trivial, hwrites.2⟩
  | saveSignInLast hj =>
    rename_i j ses g
    exact (h.write fun hgf hses ↦ hsignIn hj ⟨hgf, hses⟩).setSignIn id
  | signedIn =>
    refine Gone.setSignIn ?_ id
    exact h.congr rfl rfl rfl rfl
  | clear =>
    rename_i j g phase hj hg
    have hout := h.signOut (g := g) phase
    exact hout.congr rfl rfl rfl rfl

/-- A deletion no write is to follow is for good. -/
theorem gone_delete (hissued : s.Issued S) (hunwritten : s.Unwritten f S) :
    Gone (s.delete f) f S where
  issued := hissued
  stored u hu := by
    change u ∈ (s.store.set none f).get f at hu
    rw [get_set, if_pos rfl] at hu
    cases hu
  refreshes := hunwritten.1
  signIns := hunwritten.2

/-- A sign-out that has deleted one field has done so for good. -/
def SigningOut.Cleared (s : State) : SigningOut → Prop
  | .clearing (some r) (.only g) => Gone s g.other r.session
  | _ => True

structure Cleared (s : State) : Prop where
  signedOut : ∀ S ∈ s.signedOut, ∀ f, Gone s f S
  signOuts : ∀ j, ∀ phase ∈ s.signOuts j, phase.Cleared s
  refreshes : ∀ k phase, s.refreshes k = .signingOut phase → phase.Cleared s

/-- One step of a sign-out: what it has deleted is gone, and so is all of the session in the end. -/
theorem Cleared.signOut {phase : SigningOut} (hknown : phase.Known s) (hphase : phase.Cleared s)
    (hf : phase.Awaits f)
    (hsettled : ∀ r rest, phase = .clearing (some r) rest → s.Unwritten f r.session) :
    (∀ phase' ∈ (s.signOut f phase).2, phase'.Cleared (s.signOut f phase).1) ∧
      ∀ S ∈ (s.signOut f phase).1.signedOut, S ∈ s.signedOut ∨
        ∀ g, Gone (s.signOut f phase).1 g S := by
  cases phase with
  | reading =>
    refine ⟨fun phase' hphase' ↦ ?_, fun _ ↦ Or.inl⟩
    obtain rfl := Option.some.inj hphase'
    cases s.store.refresh <;> trivial
  | loggingOut r =>
    refine ⟨fun phase' hphase' ↦ ?_, fun _ ↦ Or.inl⟩
    obtain rfl := Option.some.inj hphase'
    trivial
  | clearing r rest =>
    cases r with
    | none =>
      refine ⟨fun phase' hphase' ↦ ?_, fun S hS ↦ Or.inl ?_⟩
      · cases rest <;> obtain rfl := Option.some.inj hphase' <;> trivial
      · cases rest <;> exact hS
    | some r =>
      have hgone := gone_delete hknown (hsettled r rest rfl)
      cases rest with
      | both =>
        refine ⟨fun phase' hphase' ↦ ?_, fun _ ↦ Or.inl⟩
        obtain rfl := Option.some.inj hphase'
        change Gone (s.delete f) f.other.other r.session
        rw [other_other]
        exact hgone
      | only g =>
        obtain rfl : g = f := hf
        refine ⟨fun phase' hphase' ↦ ?_, fun S hS ↦ ?_⟩
        · obtain rfl := Option.some.inj hphase'
          trivial
        · rcases List.mem_cons.mp hS with rfl | hS
          · refine Or.inr fun f' ↦ ?_
            have hother : Gone (s.delete g) g.other r.session := by
              refine Gone.base hphase (fun _ ↦ id) (fun u hu ↦ Or.inl ?_) rfl rfl
              change u ∈ (s.store.set none g).get g.other at hu
              rw [get_set, if_neg] at hu
              · exact hu
              · cases g <;> exact Field.noConfusion
            by_cases hf' : f' = g
            · subst hf'
              exact hgone.congr rfl rfl rfl rfl
            · obtain rfl : f' = g.other := by
                revert hf'
                cases f' <;> cases g <;> decide
              exact hother.congr rfl rfl rfl rfl
          · exact Or.inl hS
  | leaving =>
    refine ⟨fun phase' hphase' ↦ ?_, fun _ ↦ Or.inl⟩
    cases hphase'

/-- What a sign-out has deleted stays deleted. -/
theorem cleared_does {phase : SigningOut} (h : phase.Cleared s) (hknown : Known s)
    (hrecheck : ∀ r k t ses, phase = .clearing (some r) (.only .refresh) → e = .readRefresh k →
      s.refreshes k = .rechecking t ses → s.store.refresh = some t → t.session ≠ r.session)
    (hd : Does s e s') : phase.Cleared s' := by
  cases phase with
  | reading | loggingOut | leaving => trivial
  | clearing r rest =>
    cases r with
    | none => trivial
    | some r =>
      cases rest with
      | both => trivial
      | only g =>
        refine Gone.does h hknown (fun k t ses he hk ht ↦ ?_) hd
        cases g with
        | jwt => exact Gone.stored h t ht
        | refresh => exact hrecheck r k t ses rfl he hk ht

theorem Cleared.does (h : Cleared s) (hflight : Flight s) (hknown : Known s) (he : e.Settled s)
    (hd : Does s e s') : Cleared s' := by
  have hout : ∀ S ∈ s.signedOut, ∀ f, Gone s' f S := fun S hS f ↦
    (h.signedOut S hS f).does hknown
      (fun _ t _ _ _ ht ↦ (h.signedOut S hS .refresh).stored t ht) hd
  have hsignOuts : ∀ j, ∀ phase ∈ s.signOuts j, phase.Cleared s' := by
    intro j phase hphase
    refine cleared_does (h.signOuts j phase hphase) hknown (fun r k t ses hr hek hk ht hS ↦ ?_) hd
    subst hek hr
    have hsettled : (s.refreshes k).Settled s k := he
    rw [hk] at hsettled
    exact (hsettled ht).2 ⟨j, r, hphase, hS.symm⟩
  have hrefreshes : ∀ k phase, s.refreshes k = .signingOut phase → phase.Cleared s' := by
    intro k phase hphase
    refine cleared_does (h.refreshes k phase hphase) hknown (fun r k' t ses hr hek hk ht hS ↦ ?_) hd
    have hactive : (s.refreshes k).Active := by
      rw [hphase]
      trivial
    have hactive' : (s.refreshes k').Active := by
      rw [hk]
      trivial
    obtain rfl := hflight.unique hactive hactive'
    rw [hphase] at hk
    cases hk
  have hset {k : ℕ} {r : Refresh} (hr : ∀ phase, r = .signingOut phase → phase.Cleared s') :
      ∀ k' phase, Function.update s.refreshes k r k' = .signingOut phase → phase.Cleared s' :=
    (Function.forall_update_iff _ fun _ r ↦ ∀ phase, r = Refresh.signingOut phase →
      phase.Cleared s').mpr ⟨hr, fun k' _ ↦ hrefreshes k'⟩
  cases hd with
  | refuse => exact h
  | fail | readJwt | retry | join | resume | giveUp | signIn | refuseExchange | exchange
  | saveSignInOne | saveSignInLast | signedIn => exact ⟨hout, hsignOuts, hrefreshes⟩
  | leave | checkSame =>
    refine ⟨hout, hsignOuts, hset fun phase hphase ↦ ?_⟩
    obtain rfl := Refresh.signingOut.inj hphase
    trivial
  | start | post | checkOther | recheckSame | recheckOther | rotate | reject | lose | saveOne
  | saveLast | complete => exact ⟨hout, hsignOuts, hset fun _ hphase ↦ Refresh.noConfusion hphase⟩
  | signOut =>
    refine ⟨hout, ?_, hrefreshes⟩
    refine (Function.forall_update_iff _ fun _ p ↦ ∀ phase ∈ p, SigningOut.Cleared _ phase).mpr
      ⟨fun phase hphase ↦ ?_, fun j' _ ↦ hsignOuts j'⟩
    obtain rfl := Option.some.inj hphase
    trivial
  | dropSession hk hf =>
    rename_i k f phase
    have hphase := hknown.refreshes k
    rw [hk] at hphase
    obtain ⟨hnext, hsigned⟩ := Cleared.signOut hphase (h.refreshes k phase hk) hf
      fun r rest hr ↦ he r rest (hr ▸ hk)
    have hquiet (f' : Field) (S : ℕ) :
        ¬ (((s.signOut f phase).2.map Refresh.signingOut).getD (.returned none)).Writes f' S := by
      cases (s.signOut f phase).2 <;> exact id
    refine ⟨fun S hS ↦ ?_, fun j phase' hphase' ↦ hsignOuts j phase' ?_, ?_⟩
    · exact (hsigned S hS).elim (hout S) fun hgone g ↦ (hgone g).setRefresh (hquiet g S)
    · rwa [State.setRefresh, signOut_signOuts] at hphase'
    · change ∀ k' phase', Function.update (s.signOut f phase).1.refreshes k _ k' =
        .signingOut phase' → phase'.Cleared _
      rw [signOut_refreshes]
      refine hset fun phase' hphase' ↦ ?_
      cases hsnd : (s.signOut f phase).2 with
      | none =>
        rw [hsnd] at hphase'
        cases hphase'
      | some phase'' =>
        rw [hsnd] at hphase'
        obtain rfl := Refresh.signingOut.inj hphase'
        have hcleared := hnext phase'' hsnd
        cases phase'' with
        | reading | loggingOut | leaving => trivial
        | clearing r rest =>
          cases r with
          | none => trivial
          | some r =>
            cases rest with
            | both => trivial
            | only g => exact Gone.setRefresh hcleared id
  | clear hj hf =>
    rename_i j f phase
    obtain ⟨hnext, hsigned⟩ := Cleared.signOut (hknown.signOuts j phase hj)
      (h.signOuts j phase hj) hf fun r rest hr ↦ he r rest (hr ▸ hj)
    refine ⟨fun S hS ↦ ?_, ?_, fun k phase' hphase' ↦ hrefreshes k phase' ?_⟩
    · exact (hsigned S hS).elim (hout S) fun hgone g ↦ (hgone g).congr rfl rfl rfl rfl
    · change ∀ j', ∀ phase' ∈ Function.update (s.signOut f phase).1.signOuts j _ j',
        phase'.Cleared _
      rw [signOut_signOuts]
      refine (Function.forall_update_iff _ fun _ p ↦ ∀ phase ∈ p, SigningOut.Cleared _ phase).mpr
        ⟨fun phase' hphase' ↦ ?_, fun j' _ ↦ hsignOuts j'⟩
      have hcleared := hnext phase' hphase'
      cases phase' with
      | reading | loggingOut | leaving => trivial
      | clearing r rest =>
        cases r with
        | none => trivial
        | some r =>
          cases rest with
          | both => trivial
          | only g => exact Gone.congr hcleared rfl rfl rfl rfl
    · rwa [State.setSignOut, signOut_refreshes] at hphase'

/-! ## Runs -/

theorem State.AtRest.known (h : s.AtRest) : Known s where
  stored f t ht := (h.stored f t ht).2
  auth := h.auth
  landed := h.landed
  before k S hS := by
    rw [h.before] at hS
    cases hS
  signIns j := by
    rw [h.signIns]
    trivial
  refreshes k := by
    rw [h.refreshes]
    trivial
  signOuts j phase hphase := by
    rw [h.signOuts] at hphase
    cases hphase

theorem State.AtRest.window (h : s.AtRest) : Window s where
  touched k f hk := by
    rw [h.refreshes] at hk
    cases hk
  auth k hk := by
    rw [h.refreshes] at hk
    cases hk

theorem State.AtRest.cleared (h : s.AtRest) : Cleared s where
  signedOut S hS := by
    rw [h.signedOut] at hS
    cases hS
  signOuts j phase hphase := by
    rw [h.signOuts] at hphase
    cases hphase
  refreshes k phase hphase := by
    rw [h.refreshes] at hphase
    cases hphase

/-- The driver signs out. -/
def sampleSignOut : List Event :=
  [.signOut 0, .clear 0 .jwt, .clear 0 .jwt, .clear 0 .jwt, .clear 0 .refresh]

/-- Meanwhile a refresh has found its token and not saved the new ones yet. -/
def sampleLate : List Event :=
  [.fail 0 (some ⟨0, 0⟩), .readJwt 0, .compareJwt 0, .readRefresh 0,
    .answer 0 (.body (some ⟨0, 2, 3⟩)), .readRefresh 0] ++ sampleSignOut ++ [.save 0 .jwt]

end Rcab.DriverApp.Session
