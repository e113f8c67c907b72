import Rcab.Lib.Run

/-!
# The auth store of the web app

`useAuthStore` of `store.ts`: logging in, signing out and the refresh that all callers share.  A
refresh awaits the response and then its body; between the awaits anything may happen.

A sign-out bumps `sessionGen`, which a refresh compares before it touches the store, but a login
does not: the store is kept just in the runs where no refresh is overtaken by a login
(`kept_iff_timely`).
-/

namespace Rcab.Web.Auth

structure AuthUser where
  id : String
  role : String
  phone_e164 : String
deriving DecidableEq, Repr

structure AuthState where
  user : Option AuthUser := none
  jwt : Option String := none
  /-- In ms; none when unknown. -/
  jwtExpiresAt : Option ℤ := none
  signedOut : Bool := false
  sessionGen : ℕ := 0
deriving DecidableEq, Repr

/-- `run()` of a refresh, with its `gen` and the number of logins before it. -/
inductive Refresh where
  | idle
  | fetching (gen logins : ℕ)
  /-- The body of the response is awaited. -/
  | reading (gen logins : ℕ)
  | returned
  | settled
deriving DecidableEq, Repr

structure State where
  store : AuthState := {}
  inflightRefresh : Option ℕ := none
  refreshes : ℕ → Refresh := fun _ ↦ .idle
  /-- The refreshes started so far. -/
  started : ℕ := 0
  /-- The logins so far, the latest first. -/
  setAuths : List (AuthUser × String) := []
  /-- What refreshes brought, with the number of logins before they started. -/
  refreshed : List (ℕ × AuthUser × String) := []

/-- The body of a refresh response. -/
structure Body where
  access_token : String
  user : AuthUser
deriving DecidableEq, Repr

inductive Response where
  | networkError | notOk | ok
deriving DecidableEq, Repr

inductive Event where
  | setAuth (user : AuthUser) (jwt : String)
  | signOut
  /-- Some caller asks for a token. -/
  | refreshAccessToken
  /-- The fetch of a refresh completes. -/
  | respond (k : ℕ) (r : Response)
  /-- `res.json()` completes, with nothing when it throws. -/
  | parse (k : ℕ) (data : Option Body)
  /-- `finally`. -/
  | settle (k : ℕ)
deriving DecidableEq, Repr

variable (decodeJwtExpiry : String → Option ℤ)

namespace State

def setRefresh (s : State) (k : ℕ) (r : Refresh) : State :=
  { s with refreshes := Function.update s.refreshes k r }

/-- The user and the token are set. -/
def save (s : State) (user : AuthUser) (jwt : String) : State :=
  { s with store := { s.store with user := some user, jwt := some jwt
                                   jwtExpiresAt := decodeJwtExpiry jwt } }

def setAuth (s : State) (user : AuthUser) (jwt : String) : State :=
  { s with store := { s.store with user := some user, jwt := some jwt
                                   jwtExpiresAt := decodeJwtExpiry jwt, signedOut := false }
           setAuths := (user, jwt) :: s.setAuths }

/-- The part of `signOut` that touches the store. -/
def signOut (s : State) : State :=
  { s with inflightRefresh := none
           store := { user := none, jwt := none, jwtExpiresAt := none, signedOut := true
                      sessionGen := s.store.sessionGen + 1 } }

def refreshAccessToken (s : State) : State :=
  if s.store.signedOut then s
  else match s.inflightRefresh with
    | some _ => s
    | none =>
        { s with inflightRefresh := some s.started, started := s.started + 1 }.setRefresh s.started
          (.fetching s.store.sessionGen s.setAuths.length)

/-- `clear`. -/
def clear (s : State) (gen : ℕ) : State :=
  if s.store.sessionGen = gen then
    { s with store := { s.store with user := none, jwt := none, jwtExpiresAt := none } }
  else s

/-- A refresh whose body could be read. -/
def applyBody (s : State) (gen logins : ℕ) (data : Body) : State :=
  -- a sign-out while the request was in flight wins over this response
  if s.store.sessionGen ≠ gen then s
  else { s.save decodeJwtExpiry data.user data.access_token with
    refreshed := (logins, data.user, data.access_token) :: s.refreshed }

end State

def next (s : State) : Event → Option State
  | .setAuth user jwt => some (s.setAuth decodeJwtExpiry user jwt)
  | .signOut => some s.signOut
  | .refreshAccessToken => some s.refreshAccessToken
  | .respond k r =>
      match s.refreshes k with
      | .fetching gen logins =>
          if r = .ok then some (s.setRefresh k (.reading gen logins))
          else some ((s.clear gen).setRefresh k .returned)
      | _ => none
  | .parse k data =>
      match s.refreshes k, data with
      | .reading gen logins, some data =>
          some ((s.applyBody decodeJwtExpiry gen logins data).setRefresh k .returned)
      | .reading gen _, none => some ((s.clear gen).setRefresh k .returned)
      | _, _ => none
  | .settle k =>
      match s.refreshes k with
      | .returned =>
          some ({ s with inflightRefresh := if s.inflightRefresh = some k then none
                                            else s.inflightRefresh }.setRefresh k .settled)
      | _ => none

def step (s : State) (e : Event) (s' : State) : Prop := next decodeJwtExpiry s e = some s'

/-! ## What a step can do -/

inductive Does (s : State) : Event → State → Prop
  | setAuth {user jwt} : Does s (.setAuth user jwt) (s.setAuth decodeJwtExpiry user jwt)
  | signOut : Does s .signOut s.signOut
  | share (h : s.store.signedOut = true ∨ s.inflightRefresh ≠ none) :
      Does s .refreshAccessToken s
  | start (h : s.store.signedOut = false) (hnone : s.inflightRefresh = none) :
      Does s .refreshAccessToken ({ s with inflightRefresh := some s.started
                                           started := s.started + 1 }.setRefresh s.started
        (.fetching s.store.sessionGen s.setAuths.length))
  | respond {k gen logins} (h : s.refreshes k = .fetching gen logins) :
      Does s (.respond k .ok) (s.setRefresh k (.reading gen logins))
  | refuse {k gen logins r} (h : s.refreshes k = .fetching gen logins) (hr : r ≠ .ok) :
      Does s (.respond k r) ((s.clear gen).setRefresh k .returned)
  | unreadable {k gen logins} (h : s.refreshes k = .reading gen logins) :
      Does s (.parse k none) ((s.clear gen).setRefresh k .returned)
  | parse {k gen logins data} (h : s.refreshes k = .reading gen logins) :
      Does s (.parse k (some data))
        ((s.applyBody decodeJwtExpiry gen logins data).setRefresh k .returned)
  | settle {k} (h : s.refreshes k = .returned) :
      Does s (.settle k) ({ s with inflightRefresh := if s.inflightRefresh = some k then none
                                                      else s.inflightRefresh
        }.setRefresh k .settled)

variable {decodeJwtExpiry} {s s' : State} {k gen logins : ℕ} {e : Event}

theorem does_of_step (h : step decodeJwtExpiry s e s') : Does decodeJwtExpiry s e s' := by
  cases e with
  | setAuth user jwt =>
    obtain rfl := Option.some.inj h
    exact .setAuth
  | signOut =>
    obtain rfl := Option.some.inj h
    exact .signOut
  | refreshAccessToken =>
    obtain rfl := Option.some.inj h
    unfold State.refreshAccessToken
    split_ifs with hout
    · exact .share (Or.inl hout)
    · cases hk : s.inflightRefresh with
      | some k => exact .share (Or.inr (hk ▸ Option.some_ne_none k))
      | none => exact .start (eq_false_of_ne_true hout) hk
  | respond k r =>
    simp only [step, next] at h
    split at h
    · rename_i hk
      split_ifs at h with hr
      · obtain rfl := Option.some.inj h
        exact hr ▸ .respond hk
      · obtain rfl := Option.some.inj h
        exact .refuse hk hr
    · cases h
  | parse k data =>
    simp only [step, next] at h
    split at h
    · rename_i hk
      obtain rfl := Option.some.inj h
      exact .parse hk
    · rename_i hk
      obtain rfl := Option.some.inj h
      exact .unreadable hk
    · cases h
  | settle k =>
    simp only [step, next] at h
    split at h
    · rename_i hk
      obtain rfl := Option.some.inj h
      exact .settle hk
    · cases h

/-! ## What is kept -/

/-- Nothing is stored. -/
def AuthState.Empty (store : AuthState) : Prop :=
  store.user = none ∧ store.jwt = none ∧ store.jwtExpiresAt = none

/-- What is stored is of the latest login, or of a refresh started after it. -/
def State.Sourced (s : State) : Prop :=
  s.store.Empty ∨ ∃ user jwt, s.store.user = some user ∧ s.store.jwt = some jwt ∧
    (s.setAuths.head? = some (user, jwt) ∨ (s.setAuths.length, user, jwt) ∈ s.refreshed)

/-- The refresh awaits something. -/
def Refresh.Awaits (gen logins : ℕ) : Refresh → Prop
  | .fetching gen' logins' | .reading gen' logins' => gen' = gen ∧ logins' = logins
  | _ => False

/-- A refresh from before a login neither clears nor overwrites what is stored. -/
def Event.Respects (decodeJwtExpiry : String → Option ℤ) (s : State) (e : Event) : Prop :=
  match e with
  | .respond k _ | .parse k _ => ∀ gen logins, (s.refreshes k).Awaits gen logins →
      logins ≠ s.setAuths.length → ∀ s', step decodeJwtExpiry s e s' →
        s'.store.user = s.store.user ∧ s'.store.jwt = s.store.jwt
  | _ => True

def Event.LogsIn : Event → Prop
  | .setAuth _ _ => True
  | _ => False

instance : DecidablePred Event.LogsIn := fun
  | .setAuth _ _ => inferInstanceAs (Decidable True)
  | .signOut | .refreshAccessToken | .respond _ _ | .parse _ _ | .settle _ =>
      inferInstanceAs (Decidable False)

structure Kept (decodeJwtExpiry : String → Option ℤ) (tr : List (State × Event)) (s : State) :
    Prop where
  sourced : s.Sourced
  respects : ∀ x ∈ tr, x.2.Respects decodeJwtExpiry x.1
  /-- Nothing is stored from a sign-out to the next login. -/
  signedOut : (∃ x ∈ since (fun x ↦ x.2.LogsIn) tr, x.2 = .signOut) → s.store.Empty

/-- No login has come since a refresh started that ends in its `sessionGen`, unless it brings just
what is stored. -/
def Event.Timely (s : State) : Event → Prop
  | .respond k r => r ≠ .ok → ∀ gen logins, s.refreshes k = .fetching gen logins →
      gen = s.store.sessionGen → logins = s.setAuths.length
  | .parse k data => ∀ gen logins, s.refreshes k = .reading gen logins →
      gen = s.store.sessionGen → logins = s.setAuths.length ∨
        ∃ d ∈ data, s.store.user = some d.user ∧ s.store.jwt = some d.access_token
  | _ => True

/-! ## The current generation -/

structure Inv (s : State) : Prop where
  flight : ∀ k gen logins, (s.refreshes k).Awaits gen logins → gen ≤ s.store.sessionGen ∧
    (gen = s.store.sessionGen → s.store.signedOut = false ∧ s.inflightRefresh = some k)
  /-- What a login stored stays until the refresh it has overtaken ends. -/
  overtaken : ∀ k gen logins, (s.refreshes k).Awaits gen logins → gen = s.store.sessionGen →
    logins ≠ s.setAuths.length → s.store.user ≠ none
  signedOut : s.store.signedOut = true → s.store.Empty

theorem State.clear_of_ne (h : s.store.sessionGen ≠ gen) : s.clear gen = s := if_neg h

theorem State.applyBody_of_ne {data : Body} (h : s.store.sessionGen ≠ gen) :
    s.applyBody decodeJwtExpiry gen logins data = s := if_pos h

/-- The refresh that ends is the only one of the current generation. -/
theorem Inv.unique (h : Inv s) {k' logins' : ℕ}
    (hk : (s.refreshes k).Awaits s.store.sessionGen logins)
    (hk' : (s.refreshes k').Awaits s.store.sessionGen logins') : k' = k :=
  Option.some.inj (((h.flight _ _ _ hk').2 rfl).2.symm.trans ((h.flight _ _ _ hk).2 rfl).2)

/-- A refresh goes on or ends. -/
theorem Inv.setRefresh (h : Inv s) {r : Refresh}
    (hr : ∀ gen logins, r.Awaits gen logins → (s.refreshes k).Awaits gen logins) :
    Inv (s.setRefresh k r) where
  flight := (Function.forall_update_iff _ fun k r ↦ ∀ gen logins, Refresh.Awaits gen logins r →
    gen ≤ s.store.sessionGen ∧ (gen = s.store.sessionGen →
      s.store.signedOut = false ∧ s.inflightRefresh = some k)).mpr
    ⟨fun gen logins hawaits ↦ h.flight k gen logins (hr gen logins hawaits),
      fun k' _ ↦ h.flight k'⟩
  overtaken := (Function.forall_update_iff _ fun _ r ↦ ∀ gen logins, Refresh.Awaits gen logins r →
    gen = s.store.sessionGen → logins ≠ s.setAuths.length → s.store.user ≠ none).mpr
    ⟨fun gen logins hawaits ↦ h.overtaken k gen logins (hr gen logins hawaits),
      fun k' _ ↦ h.overtaken k'⟩
  signedOut := h.signedOut

/-- A refresh of the current generation ends, and with it changes what is stored. -/
theorem Inv.finish (h : Inv s) (hk : (s.refreshes k).Awaits s.store.sessionGen logins)
    (hgen : s'.store.sessionGen = s.store.sessionGen)
    (hout : s'.store.signedOut = s.store.signedOut)
    (hinflight : s'.inflightRefresh = s.inflightRefresh) (hr : s'.refreshes = s.refreshes) :
    Inv (s'.setRefresh k .returned) where
  flight := (Function.forall_update_iff _ fun k r ↦ ∀ gen logins, Refresh.Awaits gen logins r →
    gen ≤ s'.store.sessionGen ∧ (gen = s'.store.sessionGen →
      s'.store.signedOut = false ∧ s'.inflightRefresh = some k)).mpr
    ⟨fun _ _ ↦ False.elim, fun k' _ ↦ by
      rw [hgen, hout, hinflight, hr]
      exact h.flight k'⟩
  overtaken := (Function.forall_update_iff _ fun _ r ↦ ∀ gen logins, Refresh.Awaits gen logins r →
    gen = s'.store.sessionGen → logins ≠ s'.setAuths.length → s'.store.user ≠ none).mpr
    ⟨fun _ _ ↦ False.elim, fun k' hne gen logins' hawaits hcur ↦ by
      rw [hr] at hawaits
      rw [hcur, hgen] at hawaits
      exact absurd (h.unique hk hawaits) hne⟩
  signedOut hsigned := by
    have hfalse := ((h.flight _ _ _ hk).2 rfl).1
    change s'.store.signedOut = true at hsigned
    rw [hout, hfalse] at hsigned
    cases hsigned

theorem Inv.clear (h : Inv s) (hk : (s.refreshes k).Awaits gen logins) :
    Inv ((s.clear gen).setRefresh k .returned) := by
  by_cases hgen : s.store.sessionGen = gen
  · subst hgen
    rw [State.clear, if_pos rfl]
    exact h.finish hk rfl rfl rfl rfl
  · rw [State.clear_of_ne hgen]
    exact h.setRefresh fun _ _ ↦ False.elim

theorem Inv.applyBody (h : Inv s) {data : Body} (hk : (s.refreshes k).Awaits gen logins) :
    Inv ((s.applyBody decodeJwtExpiry gen logins data).setRefresh k .returned) := by
  by_cases hgen : s.store.sessionGen = gen
  · subst hgen
    rw [State.applyBody, if_neg (not_not.mpr rfl)]
    exact h.finish hk rfl rfl rfl rfl
  · rw [State.applyBody_of_ne hgen]
    exact h.setRefresh fun _ _ ↦ False.elim

theorem awaits_reading (h : s.refreshes k = .reading gen logins) :
    (s.refreshes k).Awaits gen logins := by
  rw [h]
  exact ⟨rfl, rfl⟩

theorem awaits_fetching (h : s.refreshes k = .fetching gen logins) :
    (s.refreshes k).Awaits gen logins := by
  rw [h]
  exact ⟨rfl, rfl⟩

theorem Inv.does (h : Inv s) (hd : Does decodeJwtExpiry s e s') : Inv s' := by
  cases hd with
  | setAuth =>
    refine ⟨fun k gen logins hk ↦ ⟨(h.flight k gen logins hk).1, fun hgen ↦ ?_⟩,
      fun _ _ _ _ _ _ ↦ Option.some_ne_none _, fun hout ↦ Bool.noConfusion hout⟩
    exact ⟨rfl, ((h.flight k gen logins hk).2 hgen).2⟩
  | signOut =>
    have hlt {k gen logins : ℕ} (hk : (s.refreshes k).Awaits gen logins) :
        gen < s.store.sessionGen + 1 := Nat.lt_succ_of_le (h.flight k gen logins hk).1
    exact ⟨fun _ _ _ hk ↦ ⟨(hlt hk).le, fun hgen ↦ absurd hgen (hlt hk).ne⟩,
      fun _ _ _ hk hgen ↦ absurd hgen (hlt hk).ne, fun _ ↦ ⟨rfl, rfl, rfl⟩⟩
  | share => exact h
  | start hout hnone =>
    have hidle {k logins : ℕ} : ¬ (s.refreshes k).Awaits s.store.sessionGen logins := fun hk ↦ by
      rw [((h.flight _ _ _ hk).2 rfl).2] at hnone
      cases hnone
    refine ⟨?_, ?_, h.signedOut⟩
    · refine (Function.forall_update_iff _ fun k r ↦ ∀ gen logins, Refresh.Awaits gen logins r →
        gen ≤ s.store.sessionGen ∧ (gen = s.store.sessionGen →
          s.store.signedOut = false ∧ some s.started = some k)).mpr ⟨?_, ?_⟩
      · rintro gen logins ⟨rfl, rfl⟩
        exact ⟨le_rfl, fun _ ↦ ⟨hout, rfl⟩⟩
      · refine fun k _ gen logins hk ↦ ⟨(h.flight k gen logins hk).1, fun hgen ↦ ?_⟩
        exact absurd (hgen ▸ hk) hidle
    · refine (Function.forall_update_iff _ fun _ r ↦ ∀ gen logins, Refresh.Awaits gen logins r →
        gen = s.store.sessionGen → logins ≠ s.setAuths.length → s.store.user ≠ none).mpr ⟨?_, ?_⟩
      · rintro gen logins ⟨rfl, rfl⟩ _ hne
        exact absurd rfl hne
      · exact fun k _ gen logins hk hgen ↦ absurd (hgen ▸ hk) hidle
  | respond hk =>
    refine h.setRefresh fun _ _ hawaits ↦ ?_
    rw [hk]
    exact hawaits
  | refuse hk => exact h.clear (awaits_fetching hk)
  | unreadable hk => exact h.clear (awaits_reading hk)
  | parse hk => exact h.applyBody (awaits_reading hk)
  | settle hk =>
    rename_i k
    have hother {k' gen logins : ℕ} (hk' : (s.refreshes k').Awaits gen logins) : k ≠ k' := by
      rintro rfl
      rw [hk] at hk'
      exact hk'
    have hbase : Inv { s with inflightRefresh := if s.inflightRefresh = some k then none
                                                 else s.inflightRefresh } := by
      refine ⟨fun k' gen logins hk' ↦ ?_, h.overtaken, h.signedOut⟩
      refine ⟨(h.flight k' gen logins hk').1, fun hgen ↦ ?_⟩
      obtain ⟨hout, hinflight⟩ := (h.flight k' gen logins hk').2 hgen
      refine ⟨hout, ?_⟩
      rw [hinflight, if_neg]
      exact fun heq ↦ hother hk' (Option.some.inj heq).symm
    exact hbase.setRefresh fun _ _ ↦ False.elim

/-! ## Timely refreshes -/

theorem State.Sourced.clear (h : s.Sourced) : (s.clear gen).Sourced := by
  unfold State.clear
  split_ifs
  · exact Or.inl ⟨rfl, rfl, rfl⟩
  · exact h

theorem State.Sourced.applyBody (h : s.Sourced) {data : Body}
    (htimely : gen = s.store.sessionGen → logins = s.setAuths.length ∨
      s.store.user = some data.user ∧ s.store.jwt = some data.access_token) :
    (s.applyBody decodeJwtExpiry gen logins data).Sourced := by
  unfold State.applyBody
  split_ifs with hgen
  · exact h
  · refine Or.inr ⟨data.user, data.access_token, rfl, rfl, ?_⟩
    rcases htimely (not_not.mp hgen).symm with rfl | ⟨huser, hjwt⟩
    · exact Or.inr List.mem_cons_self
    · -- the body is just what is stored, which comes from where it came from before
      rcases h with hempty | ⟨user, jwt, huser', hjwt', hsource⟩
      · rw [hempty.1] at huser
        cases huser
      · obtain rfl := Option.some.inj (huser'.symm.trans huser)
        obtain rfl := Option.some.inj (hjwt'.symm.trans hjwt)
        exact hsource.imp id fun hmem ↦ List.mem_cons_of_mem _ hmem

theorem State.Sourced.does (h : s.Sourced) (he : e.Timely s) (hd : Does decodeJwtExpiry s e s') :
    s'.Sourced := by
  cases hd with
  | setAuth => exact Or.inr ⟨_, _, rfl, rfl, Or.inl rfl⟩
  | signOut => exact Or.inl ⟨rfl, rfl, rfl⟩
  | share | start | respond | settle => exact h
  | refuse | unreadable => exact h.clear
  | parse hk =>
    refine State.Sourced.applyBody h fun hgen ↦ (he _ _ hk hgen).imp id ?_
    rintro ⟨d, hd, hsame⟩
    exact Option.some.inj hd ▸ hsame

/-- A timely step respects what a login stored. -/
theorem respects_of_timely (he : e.Timely s) : e.Respects decodeJwtExpiry s := by
  cases e with
  | setAuth | signOut | refreshAccessToken | settle => trivial
  | respond k r =>
    intro gen logins hawaits hstale s' hst
    cases does_of_step hst with
    | respond => exact ⟨rfl, rfl⟩
    | refuse hk hr =>
      rw [hk] at hawaits
      obtain ⟨rfl, rfl⟩ := hawaits
      rw [State.clear_of_ne fun hgen ↦ hstale (he hr _ _ hk hgen.symm)]
      exact ⟨rfl, rfl⟩
  | parse k data =>
    intro gen logins hawaits hstale s' hst
    cases does_of_step hst with
    | unreadable hk =>
      rw [hk] at hawaits
      obtain ⟨rfl, rfl⟩ := hawaits
      rw [State.clear_of_ne]
      · exact ⟨rfl, rfl⟩
      · intro hgen
        obtain hlogins | ⟨d, hd, -⟩ := he _ _ hk hgen.symm
        · exact hstale hlogins
        · cases hd
    | parse hk =>
      rename_i gen' logins' data
      rw [hk] at hawaits
      obtain ⟨rfl, rfl⟩ := hawaits
      by_cases hgen : s.store.sessionGen = gen'
      · obtain hlogins | ⟨d, hd, huser, hjwt⟩ := he _ _ hk hgen.symm
        · exact absurd hlogins hstale
        · obtain rfl := Option.some.inj hd
          rw [State.applyBody, if_neg (not_not.mpr hgen)]
          exact ⟨huser.symm, hjwt.symm⟩
      · rw [State.applyBody_of_ne hgen]
        exact ⟨rfl, rfl⟩

/-- A refresh that a login has overtaken and that ends in its `sessionGen` changes what the login
stored. -/
theorem timely_of_respects (h : Inv s) (hst : step decodeJwtExpiry s e s')
    (he : e.Respects decodeJwtExpiry s) : e.Timely s := by
  cases e with
  | setAuth | signOut | refreshAccessToken | settle => trivial
  | respond k r =>
    intro hr gen logins hk hgen
    by_contra hstale
    have hawaits := awaits_fetching hk
    have hkept := (he gen logins hawaits hstale s' hst).1
    simp only [step, next, hk, if_neg hr, State.clear, if_pos hgen.symm] at hst
    obtain rfl := Option.some.inj hst
    exact h.overtaken k gen logins hawaits hgen hstale hkept.symm
  | parse k data =>
    intro gen logins hk hgen
    by_contra hlate
    rw [not_or] at hlate
    obtain ⟨hstale, hother⟩ := hlate
    have hawaits := awaits_reading hk
    obtain ⟨huser, hjwt⟩ := he gen logins hawaits hstale s' hst
    cases data with
    | none =>
      simp only [step, next, hk, State.clear, if_pos hgen.symm] at hst
      obtain rfl := Option.some.inj hst
      exact h.overtaken k gen logins hawaits hgen hstale huser.symm
    | some d =>
      simp only [step, next, hk, State.applyBody, if_neg (not_not.mpr hgen.symm)] at hst
      obtain rfl := Option.some.inj hst
      exact hother ⟨d, rfl, huser.symm, hjwt.symm⟩

/-! ## Runs -/

theorem Inv.initial : Inv {} where
  flight _ _ _ hk := hk.elim
  overtaken _ _ _ hk := hk.elim
  signedOut h := by cases h

theorem signedOut_clear : (s.clear gen).store.signedOut = s.store.signedOut := by
  unfold State.clear
  split_ifs <;> rfl

theorem signedOut_applyBody {data : Body} :
    (s.applyBody decodeJwtExpiry gen logins data).store.signedOut = s.store.signedOut := by
  unfold State.applyBody
  split_ifs <;> rfl

/-- Only a login lifts the block. -/
theorem Does.signedOut (hd : Does decodeJwtExpiry s e s') (he : ¬ e.LogsIn)
    (h : s.store.signedOut = true ∨ e = .signOut) : s'.store.signedOut = true := by
  cases hd with
  | setAuth => exact absurd trivial he
  | signOut => rfl
  | share | start | respond | settle => exact h.resolve_right Event.noConfusion
  | refuse | unreadable => exact signedOut_clear.trans (h.resolve_right Event.noConfusion)
  | parse => exact signedOut_applyBody.trans (h.resolve_right Event.noConfusion)

variable {tr : List (State × Event)}

theorem signedOut_of_since (hr : Run (step decodeJwtExpiry) {} tr s)
    (h : ∃ x ∈ since (fun x ↦ x.2.LogsIn) tr, x.2 = .signOut) : s.store.signedOut = true := by
  refine hr.invariant_trace (I := fun tr s ↦ (∃ x ∈ since (fun x : State × Event ↦ x.2.LogsIn) tr,
    x.2 = .signOut) → s.store.signedOut = true) ?_ ?_ h
  · rintro tr s e s' ih hst ⟨x, hx, hout⟩
    by_cases he : e.LogsIn
    · rw [since_snoc_of (p := fun x : State × Event ↦ x.2.LogsIn) he] at hx
      cases hx
    · rw [since_snoc_of_not (p := fun x : State × Event ↦ x.2.LogsIn) he] at hx
      refine (does_of_step hst).signedOut he ?_
      rcases List.mem_append.mp hx with hx | hx
      · exact Or.inl (ih ⟨x, hx, hout⟩)
      · obtain rfl := List.mem_singleton.mp hx
        exact Or.inr hout
  · rintro ⟨x, hx, -⟩
    rw [since_nil] at hx
    cases hx

/-- **Logins and refreshes.**

What is stored is of the latest login or of a refresh started after it, no login is undone by an
earlier refresh and nothing is stored while signed out, just if all refreshes are timely. -/
theorem kept_iff_timely (hr : Run (step decodeJwtExpiry) {} tr s) :
    Kept decodeJwtExpiry tr s ↔ ∀ x ∈ tr, x.2.Timely x.1 := by
  have hinv : Inv s ∧ ((∀ x ∈ tr, x.2.Timely x.1) → s.Sourced) ∧
      ∀ x ∈ tr, x.2.Respects decodeJwtExpiry x.1 → x.2.Timely x.1 := by
    refine hr.invariant_trace (I := fun tr s ↦ Inv s ∧ ((∀ x ∈ tr, x.2.Timely x.1) → s.Sourced) ∧
      ∀ x ∈ tr, x.2.Respects decodeJwtExpiry x.1 → x.2.Timely x.1) ?_
      ⟨.initial, fun _ ↦ Or.inl ⟨rfl, rfl, rfl⟩, fun x hx ↦ absurd hx List.not_mem_nil⟩
    rintro tr s e s' ⟨hinv, hsourced, hrespects⟩ hst
    refine ⟨hinv.does (does_of_step hst), fun hall ↦ ?_, fun x hx ↦ ?_⟩
    · have hs := hsourced fun x hx ↦ hall x (List.mem_append_left _ hx)
      exact hs.does (hall (s, e) (List.mem_append_right _ List.mem_cons_self)) (does_of_step hst)
    · rcases List.mem_append.mp hx with hx | hx
      · exact hrespects x hx
      · obtain rfl := List.mem_singleton.mp hx
        exact timely_of_respects hinv hst
  obtain ⟨hinv, hsourced, hrespects⟩ := hinv
  refine ⟨fun hkept x hx ↦ hrespects x hx (hkept.respects x hx), fun hall ↦ ?_⟩
  exact ⟨hsourced hall, fun x hx ↦ respects_of_timely (hall x hx),
    fun hout ↦ hinv.signedOut (signedOut_of_since hr hout)⟩

def sampleUser : AuthUser := ⟨"u1", "client", "+1"⟩

/-- A login, a refresh and a sign-out. -/
def sampleSession : List Event :=
  [.setAuth sampleUser "tok", .refreshAccessToken, .respond 0 .ok,
    .parse 0 (some ⟨"late", sampleUser⟩), .settle 0, .signOut]

theorem sampleSession_kept :
    Kept (fun _ ↦ none) (traceOf (nextD (next fun _ ↦ none)) {} sampleSession)
      (sampleSession.foldl (nextD (next fun _ ↦ none)) {}) := by
  have hok : Enabled (fun s e ↦ (next (fun _ ↦ none) s e).isSome) (nextD (next fun _ ↦ none)) {}
      sampleSession := by decide
  have hr := Run.of_enabled (step fun _ ↦ none) (fun _ _ h ↦ nextD_eq h) sampleSession hok
  refine (kept_iff_timely hr).mpr ?_
  simp only [sampleSession, traceOf, List.forall_mem_cons]
  refine ⟨trivial, trivial, fun h ↦ absurd rfl h, fun gen logins hk _ ↦ Or.inl ?_, trivial, trivial,
    fun x hx ↦ absurd hx List.not_mem_nil⟩
  obtain ⟨-, rfl⟩ := Refresh.reading.inj hk
  rfl

/-- The first refresh of the page is refused when the user has just logged in. -/
def sampleOvertaken : List Event :=
  [.refreshAccessToken, .setAuth sampleUser "tok", .respond 0 .notOk]

theorem sampleOvertaken_logs_out : ¬ ∀ (decodeJwtExpiry : String → Option ℤ)
    (tr : List (State × Event)) (s : State), Run (step decodeJwtExpiry) {} tr s →
      Kept decodeJwtExpiry tr s := by
  intro h
  have hok : Enabled (fun s e ↦ (next (fun _ ↦ none) s e).isSome) (nextD (next fun _ ↦ none)) {}
      sampleOvertaken := by decide
  have hr := Run.of_enabled (step fun _ ↦ none) (fun _ _ h ↦ nextD_eq h) sampleOvertaken hok
  have hrespects := (h _ _ _ hr).respects _ (mem_traceOf (k := 2) (by decide) _)
  have hkept := hrespects 0 0 ⟨rfl, rfl⟩ Nat.zero_ne_one _ rfl
  cases hkept.1

end Rcab.Web.Auth
