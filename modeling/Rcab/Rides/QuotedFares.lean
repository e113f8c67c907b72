import Rcab.Rides.Quotes

/-!
# Every fare was quoted

Logins, quotes and bookings by anyone, with whatever tokens they can come by.  However they
interleave, a ride belongs to a client who was signed in, and its fare is one the api computed and
quoted for its route (`ride_quoted`).  A quote is taken up while it lasts.
-/

universe u v

namespace Rcab.Rides

open Auth

/-! ## The system -/

/-- The body and headers of a booking, as the client sends it. -/
structure BookingBody (Token : Type v) where
  bearer : Token
  quoteToken : Option Token
  rawKey : Option String
  operation : RideIdempotencyOperation
  fingerprint : String
  origin : Point
  dest : Point
  scheduledFor : Option (Option Time)

/-- The bookings, the claims the api signed, and the quote token each request came with. -/
structure QuoteWorld (Token : Type v) where
  bookings : BookingWorld
  issued : List TokenClaims
  quoteTokens : ℕ → Option Token

inductive QuoteEvent (Token : Type v) where
  /-- A session is issued. -/
  | login (claims : AccessTokenClaims) (dateNow : Time)
  | quote (bearer : Token) (type : RideType) (origin dest : Point) (metrics : Pricing.RouteMetrics)
      (dateNow : Time)
  | book (i : ℕ) (body : BookingBody Token) (dateNow : Time)
  /-- The next statement of a booking. -/
  | run (i : ℕ) (env : SoloEnv)
  /-- Any other transaction of the trips. -/
  | other (e : Step)

section System

variable {Token : Type v} (jwt : JwtService TokenBody Token) (fare : Pricing.FareParams)
  (shared : Pricing.SharedParams)

/-- Nobody sends a token of the api that it did not issue. -/
def QuoteEvent.Allowed (w : QuoteWorld Token) : QuoteEvent Token → Prop
  | .login _ _ => True
  | .quote bearer _ _ _ _ _ => jwt.Presentable w.issued bearer
  | .book i body _ => w.bookings.requests i = none ∧ jwt.Presentable w.issued body.bearer ∧
      ∀ token, body.quoteToken = some token → jwt.Presentable w.issued token
  | .run i _ => ∃ r phase, w.bookings.requests i = some (r, phase) ∧ ¬ phase.Finished
  | .other e => e.NotCreate

/-- The request of an authenticated client. -/
def BookingBody.request (body : BookingBody Token) (user : AccessTokenClaims) : SoloRequest where
  passengerId := user.sub
  rawKey := body.rawKey
  operation := body.operation
  fingerprint := body.fingerprint
  origin := body.origin
  dest := body.dest
  quoted := body.quoteToken.isSome
  scheduledFor := body.scheduledFor

/-- What `verifyQuote` makes of the token a request came with. -/
def QuoteWorld.quoteOf (w : QuoteWorld Token) (i : ℕ) (r : SoloRequest) (dateNow : Time) :
    Except QuoteFailure ℤ :=
  match w.quoteTokens i with
  | none => .error .invalid
  | some token => verifyQuote jwt token r.origin r.dest dateNow

variable {D : Type u} [LinearOrder D] (dist : Point → Point → D)

def QuoteWorld.next (w : QuoteWorld Token) : QuoteEvent Token → QuoteWorld Token
  | .login claims dateNow => { w with issued := w.issued ++ [accessClaims claims dateNow] }
  | .quote bearer type origin dest metrics dateNow =>
      match quoteEndpoint jwt fare shared bearer type origin dest metrics dateNow with
      | .error _ => w
      | .ok _ =>
          { w with issued := w.issued ++ [quoteClaims (quoteFor fare origin dest metrics) dateNow] }
  | .book i body dateNow =>
      match authorizeClient jwt body.bearer dateNow with
      | .error _ => w
      | .ok user =>
          { w with
            bookings := w.bookings.next dist (.arrive i (body.request user))
            quoteTokens := Function.update w.quoteTokens i body.quoteToken }
  | .run i env =>
      match w.bookings.requests i with
      | none => w
      | some (r, _) =>
          { w with
            bookings :=
              w.bookings.next dist (.run i { env with quote := w.quoteOf jwt i r env.dateNow }) }
  | .other e => { w with bookings := w.bookings.next dist (.other e) }

/-- The system. -/
def quoteStep (w : QuoteWorld Token) (e : QuoteEvent Token) (w' : QuoteWorld Token) : Prop :=
  e.Allowed jwt w ∧ w.next jwt fare shared dist e = w'

end System

/-- Nothing signed, nobody there. -/
structure QuoteWorld.Initial {Token : Type v} (w : QuoteWorld Token) : Prop where
  rides : ∀ r, r ∉ w.bookings.db.rides
  requests : ∀ i, w.bookings.requests i = none
  issued : w.issued = []
  quoteTokens : ∀ i, w.quoteTokens i = none

/-! ## What was issued -/

/-- The api signs access tokens, and quotes it computed. -/
inductive Signed (fare : Pricing.FareParams) (c : TokenClaims) : Prop
  | access (claims : AccessTokenClaims) (dateNow : Time) (h : c = accessClaims claims dateNow)
  | quote (origin dest : Point) (metrics : Pricing.RouteMetrics) (dateNow : Time)
      (h : c = quoteClaims (quoteFor fare origin dest metrics) dateNow)

/-- A client was signed in. -/
def SignedIn (issued : List TokenClaims) (passengerId : PassengerId) : Prop :=
  ∃ claims dateNow, accessClaims claims dateNow ∈ issued ∧ claims.role = .client ∧
    claims.sub = passengerId

/-- The api quoted a fare for a route. -/
def Quoted (fare : Pricing.FareParams) (issued : List TokenClaims) (origin dest : Point)
    (soloFareCents : ℤ) : Prop :=
  ∃ origin' dest' metrics dateNow,
    quoteClaims (quoteFor fare origin' dest' metrics) dateNow ∈ issued ∧
    Near origin' origin ∧ Near dest' dest ∧
    soloFareCents = (Pricing.quoteSoloFromMetrics fare metrics).amount

section Issued

variable {fare : Pricing.FareParams} {issued issued' : List TokenClaims} {passengerId : PassengerId}
  {origin dest : Point} {soloFareCents : ℤ}

theorem SignedIn.mono (h : SignedIn issued passengerId) (hsub : ∀ c ∈ issued, c ∈ issued') :
    SignedIn issued' passengerId := by
  obtain ⟨claims, dateNow, hc, hrole, hp⟩ := h
  exact ⟨claims, dateNow, hsub _ hc, hrole, hp⟩

theorem Quoted.mono (h : Quoted fare issued origin dest soloFareCents)
    (hsub : ∀ c ∈ issued, c ∈ issued') : Quoted fare issued' origin dest soloFareCents := by
  obtain ⟨origin', dest', metrics, dateNow, hc, hn⟩ := h
  exact ⟨origin', dest', metrics, dateNow, hsub _ hc, hn⟩

variable {Token : Type v} {jwt : JwtService TokenBody Token} {token : Token} {dateNow : Time}
  {user : AccessTokenClaims}

/-- Whoever is let in as a client was signed in as one. -/
theorem signedIn_of_authorize (hjwt : jwt.Lawful) (hs : ∀ c ∈ issued, Signed fare c)
    (hp : jwt.Presentable issued token) (h : authorizeClient jwt token dateNow = .ok user) :
    SignedIn issued user.sub := by
  unfold authorizeClient at h
  cases hv : verifyAccessToken jwt token dateNow with
  | none => simp [hv] at h
  | some claims =>
    rw [hv] at h
    dsimp only at h
    split_ifs at h with hrole
    obtain rfl := Except.ok.inj h
    obtain ⟨c, hc, hbody⟩ := verifyAccessToken_eq_some hv
    have hmem := hjwt.mem_issued hp hc
    rcases hs c hmem with ⟨claims', dateNow', rfl⟩ | ⟨_, _, _, _, rfl⟩
    · obtain ⟨-, rfl⟩ := TokenBody.access.inj hbody
      exact ⟨_, dateNow', hmem, not_not.mp hrole, rfl⟩
    · cases hbody

/-- A fare that is accepted was quoted for the route, less than five minutes ago. -/
theorem quoted_of_verify (hjwt : jwt.Lawful) (hs : ∀ c ∈ issued, Signed fare c)
    (hp : jwt.Presentable issued token)
    (h : verifyQuote jwt token origin dest dateNow = .ok soloFareCents) :
    ∃ origin' dest' metrics quotedAt,
      quoteClaims (quoteFor fare origin' dest' metrics) quotedAt ∈ issued ∧
      Near origin' origin ∧ Near dest' dest ∧
      soloFareCents = (Pricing.quoteSoloFromMetrics fare metrics).amount ∧
      seconds dateNow < seconds quotedAt + quoteTtlSeconds := by
  obtain ⟨claims, hv, ho, hd, rfl⟩ := verifyQuote_eq_ok h
  obtain ⟨c, hc, hbody⟩ := verifyQuoteToken_eq_ok hv
  have hmem := hjwt.mem_issued hp hc
  rcases hs c hmem with ⟨_, _, rfl⟩ | ⟨origin', dest', metrics, quotedAt, rfl⟩
  · cases hbody
  · obtain rfl := TokenBody.quote.inj hbody
    exact ⟨origin', dest', metrics, quotedAt, hmem, ho, hd, rfl, hjwt.unexpired hc⟩

end Issued

/-! ## What a run keeps -/

/-- Only a verified quote leads to an insert. -/
theorem soloStatementFaulty_insert {env : SoloEnv} {db : Db} {r : SoloRequest} {phase : SoloPhase}
    {key : String} {soloFareCents : ℤ}
    (h : (soloStatementFaulty env db r phase).2 = .insert key soloFareCents) :
    phase = .verify key ∧ env.quote = .ok soloFareCents := by
  have hst : (soloStatement env db r phase).2 = .insert key soloFareCents := by
    unfold soloStatementFaulty at h
    dsimp only at h
    cases hf : env.fault with
    | none => simpa [hf] using h
    | failed committed => cases committed <;> simp [hf] at h
    | crashed committed => cases committed <;> simp [hf] at h
  have hreplay : ∀ a, replay r a ≠ .insert key soloFareCents := by
    intro a ha
    unfold replay at ha
    split_ifs at ha
  cases phase with
  | received =>
    unfold soloStatement receive at hst
    dsimp only at hst
    cases hk : parseIdempotencyKey r.rawKey with
    | error e => simp [hk] at hst
    | ok k =>
      rw [hk] at hst
      dsimp only at hst
      split_ifs at hst
  | lookup k =>
    unfold soloStatement at hst
    dsimp only at hst
    split at hst
    · exact absurd hst (hreplay _)
    · cases hst
  | verify k =>
    unfold soloStatement verify at hst
    dsimp only at hst
    split_ifs at hst
    cases hq : env.quote with
    | error e => simp [hq] at hst
    | ok f =>
      rw [hq] at hst
      obtain ⟨rfl, rfl⟩ := SoloPhase.insert.inj hst
      exact ⟨rfl, rfl⟩
  | insert k f =>
    unfold soloStatement at hst
    dsimp only at hst
    split at hst <;> cases hst
  | read k =>
    unfold soloStatement at hst
    dsimp only at hst
    split at hst
    · exact absurd hst (hreplay _)
    · cases hst
  | succeeded response => cases hst
  | failed error => cases hst
  | crashed => cases hst

section Run

variable {Token : Type v} (jwt : JwtService TokenBody Token) (fare : Pricing.FareParams)

structure QuoteInv (w : QuoteWorld Token) : Prop where
  signed : ∀ c ∈ w.issued, Signed fare c
  quoteTokens : ∀ i token, w.quoteTokens i = some token → jwt.Presentable w.issued token
  requests : ∀ i r phase, w.bookings.requests i = some (r, phase) →
    SignedIn w.issued r.passengerId ∧
      ∀ key soloFareCents, phase = .insert key soloFareCents →
        Quoted fare w.issued r.origin r.dest soloFareCents
  rides : ∀ r ∈ w.bookings.db.rides, SignedIn w.issued r.passengerId ∧
    Quoted fare w.issued r.origin r.dest r.fareCents

variable {jwt fare} {w w' : QuoteWorld Token}

theorem QuoteInv.of_initial (h : w.Initial) : QuoteInv jwt fare w where
  signed c hc := by
    rw [h.issued] at hc
    cases hc
  quoteTokens i token hi := by
    rw [h.quoteTokens i] at hi
    cases hi
  requests i r phase hi := by
    rw [h.requests i] at hi
    cases hi
  rides r hr := absurd hr (h.rides r)

/-- One more token. -/
theorem QuoteInv.issue {c : TokenClaims} (h : QuoteInv jwt fare w) (hc : Signed fare c) :
    QuoteInv jwt fare { w with issued := w.issued ++ [c] } := by
  have hsub : ∀ a ∈ w.issued, a ∈ w.issued ++ [c] := fun a ha ↦ List.mem_append_left _ ha
  refine ⟨fun a ha ↦ ?_, fun i token hi ↦ (h.quoteTokens i token hi).mono hsub,
    fun i r phase hi ↦ ?_, fun r hr ↦ ⟨(h.rides r hr).1.mono hsub, (h.rides r hr).2.mono hsub⟩⟩
  · rcases List.mem_append.mp ha with ha | ha
    · exact h.signed a ha
    · exact List.mem_singleton.mp ha ▸ hc
  · obtain ⟨hs, hq⟩ := h.requests i r phase hi
    exact ⟨hs.mono hsub, fun key f hf ↦ (hq key f hf).mono hsub⟩

/-- A booking arrives. -/
theorem QuoteInv.arrive {D : Type u} [LinearOrder D] {dist : Point → Point → D} {i : ℕ}
    {r : SoloRequest} {quoteToken : Option Token} (h : QuoteInv jwt fare w)
    (hs : SignedIn w.issued r.passengerId)
    (hp : ∀ token, quoteToken = some token → jwt.Presentable w.issued token) :
    QuoteInv jwt fare { w with
      bookings := w.bookings.next dist (.arrive i r)
      quoteTokens := Function.update w.quoteTokens i quoteToken } := by
  refine ⟨h.signed, fun j token hj ↦ ?_, fun j r' phase hj ↦ ?_, h.rides⟩
  · simp only [Function.update_apply] at hj
    split_ifs at hj
    · exact hp token hj
    · exact h.quoteTokens j token hj
  · simp only [BookingWorld.next, Function.update_apply] at hj
    split_ifs at hj
    · obtain ⟨rfl, rfl⟩ := Prod.mk.inj (Option.some.inj hj)
      exact ⟨hs, fun _ _ h ↦ by cases h⟩
    · exact h.requests j r' phase hj

/-- A booking's statement, its quote being what the token says. -/
theorem QuoteInv.run {D : Type u} [LinearOrder D] {dist : Point → Point → D} {i : ℕ}
    {r : SoloRequest} {phase : SoloPhase} {env : SoloEnv} (hjwt : jwt.Lawful)
    (h : QuoteInv jwt fare w) (hi : w.bookings.requests i = some (r, phase))
    (hq : env.quote = w.quoteOf jwt i r env.dateNow) :
    QuoteInv jwt fare { w with bookings := w.bookings.next dist (.run i env) } := by
  obtain ⟨hs, hquoted⟩ := h.requests i r phase hi
  simp only [BookingWorld.next, hi]
  refine ⟨h.signed, h.quoteTokens, fun j r' phase' hj ↦ ?_, ?_⟩
  · simp only [Function.update_apply] at hj
    split_ifs at hj
    · obtain ⟨rfl, rfl⟩ := Prod.mk.inj (Option.some.inj hj)
      refine ⟨hs, fun key f hf ↦ ?_⟩
      obtain ⟨-, hok⟩ := soloStatementFaulty_insert hf
      rw [hq] at hok
      unfold QuoteWorld.quoteOf at hok
      cases htoken : w.quoteTokens i with
      | none => simp [htoken] at hok
      | some token =>
        rw [htoken] at hok
        obtain ⟨o, d, metrics, quotedAt, hc, ho, hd, hfare, -⟩ :=
          quoted_of_verify hjwt h.signed (h.quoteTokens i token htoken) hok
        exact ⟨o, d, metrics, quotedAt, hc, ho, hd, hfare⟩
    · exact h.requests j r' phase' hj
  · dsimp only
    rcases soloStatementFaulty_db env w.bookings.db r phase with hdb | ⟨key, f, hphase, hins⟩
    · rw [hdb]
      exact h.rides
    · intro a ha
      rw [hins.rides, Table.mem_insert hins.newId] at ha
      rcases ha with ha | rfl
      · exact h.rides a ha
      · exact ⟨hs, hquoted key f hphase⟩

/-- Another transaction of the trips makes no ride and changes nothing that was agreed. -/
theorem QuoteInv.other {D : Type u} [LinearOrder D] {dist : Point → Point → D} {e : Step}
    (h : QuoteInv jwt fare w) (he : e.NotCreate) :
    QuoteInv jwt fare { w with bookings := w.bookings.next dist (.other e) } := by
  have hcalls : e.Calls ⟨fun _ ↦ False, fun _ ↦ True, fun _ _ ↦ True⟩ := by
    cases e <;> first | exact he.elim | trivial
  have hrows : RideRows _ w.bookings.db (exec dist w.bookings.db e) := rideRows_exec dist hcalls
  refine ⟨h.signed, h.quoteTokens, h.requests, ?_⟩
  refine hrows.forall_mem (fun _ hc ↦ hc.elim) (fun r r' hch hr ↦ ?_) h.rides
  obtain ⟨hp, ho, hd, hf⟩ := hch.agreed
  rw [hp, ho, hd, hf]
  exact hr

variable {shared : Pricing.SharedParams} {D : Type u} [LinearOrder D] {dist : Point → Point → D}
  {e : QuoteEvent Token}

theorem QuoteInv.step (hjwt : jwt.Lawful) (h : QuoteInv jwt fare w)
    (hst : quoteStep jwt fare shared dist w e w') : QuoteInv jwt fare w' := by
  obtain ⟨hal, rfl⟩ := hst
  cases e with
  | login claims dateNow => exact h.issue (.access claims dateNow rfl)
  | quote bearer type origin dest metrics dateNow =>
    simp only [QuoteWorld.next]
    split
    · exact h
    · exact h.issue (.quote origin dest metrics dateNow rfl)
  | book i body dateNow =>
    obtain ⟨-, hbearer, htoken⟩ := hal
    simp only [QuoteWorld.next]
    split
    · exact h
    · rename_i user huser
      exact h.arrive (signedIn_of_authorize hjwt h.signed hbearer huser) htoken
  | run i env =>
    obtain ⟨r, phase, hi, -⟩ := hal
    simp only [QuoteWorld.next, hi]
    exact h.run hjwt hi rfl
  | other e => exact h.other hal

/-- **Every ride is a signed-in client's, at a fare the api quoted for its route, and a booking goes
ahead on a quote that has not expired.** -/
theorem ride_quoted {w₀ : QuoteWorld Token} (hjwt : jwt.Lawful) (h₀ : w₀.Initial)
    (h : Reachable (quoteStep jwt fare shared dist) w₀ w) :
    (∀ r ∈ w.bookings.db.rides, SignedIn w.issued r.passengerId ∧
      Quoted fare w.issued r.origin r.dest r.fareCents) ∧
    ∀ i r key soloFareCents env w', w.bookings.requests i = some (r, .verify key) →
      quoteStep jwt fare shared dist w (.run i env) w' →
      w'.bookings.requests i = some (r, .insert key soloFareCents) →
      ∃ origin dest metrics quotedAt,
        quoteClaims (quoteFor fare origin dest metrics) quotedAt ∈ w.issued ∧
        Near origin r.origin ∧ Near dest r.dest ∧
        soloFareCents = (Pricing.quoteSoloFromMetrics fare metrics).amount ∧
        seconds env.dateNow < seconds quotedAt + quoteTtlSeconds := by
  have hinv : QuoteInv jwt fare w := h.invariant (fun _ _ _ hi hst ↦ hi.step hjwt hst)
    (.of_initial h₀)
  refine ⟨hinv.rides, fun i r key f env w' hi hst hi' ↦ ?_⟩
  obtain ⟨-, rfl⟩ := hst
  simp only [QuoteWorld.next, hi, BookingWorld.next, Function.update_self] at hi'
  obtain ⟨-, hok⟩ := soloStatementFaulty_insert (Prod.mk.inj (Option.some.inj hi')).2
  dsimp only at hok
  unfold QuoteWorld.quoteOf at hok
  cases htoken : w.quoteTokens i with
  | none => simp [htoken] at hok
  | some token =>
    rw [htoken] at hok
    exact quoted_of_verify hjwt hinv.signed (hinv.quoteTokens i token htoken) hok

end Run

/-! One booking, with the claims as tokens. -/

def sampleJwt : JwtService TokenBody (Option TokenClaims) := .plain

/-- Client 10, signed in at 0. -/
def sampleUser : AccessTokenClaims := ⟨10, .client, .phone⟩

def sampleRoute : Pricing.RouteMetrics := ⟨5000, 600⟩

/-- The booking of the quoted route. -/
def sampleBody : BookingBody (Option TokenClaims) where
  bearer := signAccessToken sampleJwt sampleUser 0
  quoteToken := some (signQuote sampleJwt (quoteFor Pricing.sampleFare ⟨0, 0⟩ ⟨1, 1⟩ sampleRoute) 2000)
  rawKey := some "k"
  operation := .solo
  fingerprint := "f"
  origin := ⟨0, 0⟩
  dest := ⟨1, 1⟩
  scheduledFor := none

def sampleUnquoted : QuoteWorld (Option TokenClaims) := ⟨⟨.empty, fun _ ↦ none⟩, [], fun _ ↦ none⟩

/-- The client signs in, asks for a quote and books with it. -/
def sampleAsking : List (QuoteEvent (Option TokenClaims)) :=
  [.login sampleUser 0,
    .quote (signAccessToken sampleJwt sampleUser 0) .normal ⟨0, 0⟩ ⟨1, 1⟩ sampleRoute 2000,
    .book 0 sampleBody 60000]

def sampleQuoteNext : QuoteWorld (Option TokenClaims) → QuoteEvent (Option TokenClaims) →
    QuoteWorld (Option TokenClaims) :=
  QuoteWorld.next sampleJwt Pricing.sampleFare Pricing.sampleShared (D := ℕ) fun _ _ ↦ 0

def sampleAsked : QuoteWorld (Option TokenClaims) := sampleAsking.foldl sampleQuoteNext sampleUnquoted

/-- The key of the request has been read. -/
def sampleParsed : QuoteWorld (Option TokenClaims) :=
  { sampleAsked with
    bookings.requests := Function.update sampleAsked.bookings.requests 0
      (some (sampleBody.request sampleUser, .lookup "k")) }

def sampleStatement : QuoteEvent (Option TokenClaims) :=
  .run 0 ⟨⟨60000, 60000⟩, 60000, .none, .error .invalid, 1⟩

def sampleQuoted : QuoteWorld (Option TokenClaims) :=
  [sampleStatement, sampleStatement, sampleStatement].foldl sampleQuoteNext sampleParsed

theorem sampleAsked_next : sampleQuoteNext sampleAsked sampleStatement = sampleParsed := by
  have hlength : "k".length = 1 := rfl
  have hkey : parseIdempotencyKey sampleBody.rawKey = .ok "k" := by
    simp [parseIdempotencyKey, sampleBody, KeyPattern, hlength]
  have hreceive : receive (sampleBody.request sampleUser) = .lookup "k" := by
    rw [receive, show (sampleBody.request sampleUser).rawKey = sampleBody.rawKey from rfl, hkey]
    rfl
  rw [sampleParsed, ← hreceive]
  rfl

theorem reachable_sampleQuoted : Reachable (quoteStep sampleJwt Pricing.sampleFare
    Pricing.sampleShared (D := ℕ) fun _ _ ↦ 0) sampleUnquoted sampleQuoted := by
  have hasking : Enabled (QuoteEvent.Allowed sampleJwt) sampleQuoteNext sampleUnquoted
      sampleAsking := by
    refine ⟨trivial, JwtService.presentable_plain (by decide +kernel),
      ⟨rfl, JwtService.presentable_plain (by decide +kernel), ?_⟩, trivial⟩
    rintro token htoken
    obtain rfl := Option.some.inj htoken
    exact JwtService.presentable_plain (by decide +kernel)
  have hbooking : Enabled (QuoteEvent.Allowed sampleJwt) sampleQuoteNext sampleParsed
      [sampleStatement, sampleStatement, sampleStatement] :=
    ⟨⟨_, _, rfl, by decide +kernel⟩, ⟨_, _, rfl, by decide +kernel⟩,
      ⟨_, _, rfl, by decide +kernel⟩, trivial⟩
  have hasked := Run.of_enabled (quoteStep sampleJwt Pricing.sampleFare Pricing.sampleShared
    (D := ℕ) fun _ _ ↦ 0) (fun _ _ h ↦ ⟨h, rfl⟩) _ hasking
  have hparse : quoteStep sampleJwt Pricing.sampleFare Pricing.sampleShared (D := ℕ)
      (fun _ _ ↦ 0) sampleAsked sampleStatement sampleParsed :=
    ⟨⟨_, _, rfl, by decide +kernel⟩, sampleAsked_next⟩
  have hquoted := Run.of_enabled (quoteStep sampleJwt Pricing.sampleFare Pricing.sampleShared
    (D := ℕ) fun _ _ ↦ 0) (fun _ _ h ↦ ⟨h, rfl⟩) _ hbooking
  exact ⟨_, (hasked.snoc hparse).trans hquoted⟩

theorem sampleQuoted_quoted :
    ∃ r ∈ sampleQuoted.bookings.db.rides, r.fareCents = 500 ∧
      Quoted Pricing.sampleFare sampleQuoted.issued r.origin r.dest r.fareCents := by
  have h : sampleQuoted.bookings.db.rides.Any fun r ↦ r.fareCents = 500 := by decide +kernel
  obtain ⟨r, hr, hfare⟩ := h
  exact ⟨r, hr, hfare, ((ride_quoted JwtService.plain_lawful ⟨Table.notMem_empty, fun _ ↦ rfl, rfl,
    fun _ ↦ rfl⟩ reachable_sampleQuoted).1 r hr).2⟩

end Rcab.Rides
