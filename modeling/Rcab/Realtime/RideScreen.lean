import Rcab.Realtime.Truth

/-!
# The passenger's screen of a ride

Every change of a ride's status raises its rank, so the gate of the client, which goes by ranks,
shows the status of the newest message it was given, however the messages came.
-/

universe u

namespace Rcab.Realtime

open Web (Log Handed rideStatusVersion)

/-- What an app that follows a ride has shown of it. -/
structure Screen (l : Log) : Prop where
  /-- The status never goes back. -/
  forward : l.handed.Pairwise fun a b ↦ ∀ st ∈ a.status?, ∀ st' ∈ b.status?,
    st = st' ∨ rideStatusVersion st < rideStatusVersion st'
  /-- The status shown is that of the message of the highest rank delivered. -/
  newest : l.heard ≠ [] → ∃ event, l.handed.getLast? = some (.ride event) ∧
    (∃ m ∈ l.heard, m.status? = some event.state) ∧
      ∀ m ∈ l.heard, ∃ st, m.status? = some st ∧
        (st = event.state ∨ rideStatusVersion st < rideStatusVersion event.state)

/-- What every change of a ride's status does. -/
def StatusesAdvance (db db' : Db) : Prop :=
  ∀ r ∈ db.rides, ∃ r' ∈ db'.rides, r'.id = r.id ∧
    (r'.status = r.status ∨
      Realtime.rideStatusVersion r.status.text < Realtime.rideStatusVersion r'.status.text ∧
        r.status.text ∉ terminalRideStatuses)

/-- A true message about a ride tells a status the ride had, and its rank. -/
theorem Message.Valid.ride {db : Db} {m : Message} (h : m.Valid db) {id : RideId}
    (ht : m.trip = .solo id) :
    ∃ st, m.status? = some st ∧ m.version = rideStatusVersion st ∧ Said db id st := by
  cases m with
  | poolSnapshot snapshot => cases ht
  | poolUpdate payload => cases ht
  | rideSnapshot snapshot =>
      obtain rfl := TripRef.solo.inj ht
      exact ⟨_, rfl, h.2, h.1⟩
  | rideStateChanged event =>
      obtain rfl := TripRef.solo.inj ht
      exact ⟨_, rfl, h.2, h.1⟩

/-- One ride had one status of each rank. -/
theorem Said.eq_of_rank {db : Db} {id : RideId} {st st' : String} (h : Said db id st)
    (h' : Said db id st') (hr : rideStatusVersion st = rideStatusVersion st') : st = st' := by
  obtain ⟨r, s, hrow, rfl, hreach⟩ := h
  obtain ⟨r', s', hrow', rfl, hreach'⟩ := h'
  obtain rfl := Option.some.inj (hrow.symm.trans hrow')
  exact congrArg RideStatus.text (hreach.eq_of_rank hreach' hr)

variable {net : Connections} {s : System} {app : AppId} {id : RideId}

/-- What an app heard of the ride it follows. -/
theorem Truthful.heard (h : Truthful s) (hf : (s.apps app).socket.rideGate.followed = some id)
    {m : Message} (hm : m ∈ (s.apps app).rides.heard) :
    ∃ st, m.status? = some st ∧ m.version = rideStatusVersion st ∧ Said s.db id st := by
  obtain ⟨id', ht⟩ := (h.consistent app).solo m hm
  have hid : id' = id := by
    have := (h.consistent app).rides.followed m hm
    rw [hf, ht] at this
    exact (Option.some.inj this).symm
  exact (h.valid m (.rides app hm)).ride (hid ▸ ht)

theorem Truthful.screen (h : Truthful s)
    (hf : (s.apps app).socket.rideGate.followed = some id) : Screen (s.apps app).rides := by
  have htracks := (h.consistent app).rides
  have hle : ∀ {st st' : String}, Said s.db id st → Said s.db id st' →
      rideStatusVersion st ≤ rideStatusVersion st' →
      st = st' ∨ rideStatusVersion st < rideStatusVersion st' := by
    intro st st' hs hs' hle
    rcases hle.eq_or_lt with heq | hlt
    · exact Or.inl (hs.eq_of_rank hs' heq)
    · exact Or.inr hlt
  constructor
  · refine htracks.sorted.imp_of_mem fun {a b} ha hb hab st hst st' hst' ↦ ?_
    obtain ⟨m, hm, rfl⟩ := htracks.handed_mem ha
    obtain ⟨m', hm', rfl⟩ := htracks.handed_mem hb
    obtain ⟨st₁, h₁, hv₁, hs₁⟩ := h.heard hf hm
    obtain ⟨st₂, h₂, hv₂, hs₂⟩ := h.heard hf hm'
    rw [Web.status?_handed, h₁] at hst
    rw [Web.status?_handed, h₂] at hst'
    obtain rfl := Option.some.inj hst
    obtain rfl := Option.some.inj hst'
    rw [Web.version_handed, Web.version_handed, hv₁, hv₂] at hab
    exact hle hs₁ hs₂ hab
  · intro hne
    obtain ⟨m, hm, hlast, hmax⟩ := htracks.getLast hne
    obtain ⟨st, hst, hv, hs⟩ := h.heard hf hm
    obtain ⟨event, hevent, hstate⟩ : ∃ event, m.handed = .ride event ∧ event.state = st := by
      cases m with
      | poolSnapshot snapshot => cases hst
      | poolUpdate payload => cases hst
      | rideSnapshot snapshot => exact ⟨_, rfl, Option.some.inj hst⟩
      | rideStateChanged event => exact ⟨_, rfl, Option.some.inj hst⟩
    subst hstate
    refine ⟨event, hevent ▸ hlast, ⟨m, hm, hst⟩, fun m' hm' ↦ ?_⟩
    obtain ⟨st', hst', hv', hs'⟩ := h.heard hf hm'
    refine ⟨st', hst', hle hs' hs ?_⟩
    rw [← hv', ← hv]
    exact hmax m' hm'

section Runs

variable {D : Type u} [LinearOrder D] {dist : Point → Point → D}

theorem statusesAdvance_exec {db : Db} (e : Step) : StatusesAdvance db (exec dist db e) := by
  intro r hr
  obtain ⟨r', hr', hreach⟩ := reaches_exec dist e (Table.get_of_mem hr)
  refine ⟨r', Table.mem_of_get hr', Table.key_of_get hr', ?_⟩
  rcases hreach.eq_or_lt with heq | hlt
  · exact Or.inl heq.symm
  · refine Or.inr ⟨hlt, fun ht ↦ ?_⟩
    rw [hreach.eq_of_terminal ht] at hlt
    exact lt_irrefl _ hlt

/-- **The screen of a ride never goes back**: in every run, every change of a ride's status raises
its rank and none leaves a terminal status; and whatever was delivered of the messages of the run,
late, twice or in any order, an app that follows a ride shows the status of the message of the
highest rank it was given. -/
theorem ride_in_order (net : Connections) (dist : Point → Point → D) {s₀ s : System}
    {tr : List (System × Event)} (h₀ : s₀.Initial) (hr : Run (step net dist) s₀ tr s) :
    (∀ e s', step net dist s e s' → StatusesAdvance s.db s'.db) ∧
      ∀ app id, (s.apps app).socket.rideGate.followed = some id → Screen (s.apps app).rides := by
  have h : Truthful s := (Truthful.initial h₀).run hr
  refine ⟨fun e s' hst ↦ ?_, fun app id hf ↦ h.screen hf⟩
  obtain ⟨-, rfl⟩ := hst
  rcases db_next net s dist e with hdb | ⟨st, -, hdb⟩ <;> rw [hdb]
  · exact fun r hr ↦ ⟨r, hr, rfl, Or.inl rfl⟩
  · exact statusesAdvance_exec st

end Runs

/-! ## A ride cancelled while its passenger subscribes -/

/-- One passenger with one app. -/
def sampleConnections : Connections := ⟨fun _ ↦ 2, fun _ ↦ 0⟩

def sampleServer : System := ⟨.empty, [], [], [], [], fun _ ↦ [], fun _ ↦ .start⟩

theorem sampleServer_initial : sampleServer.Initial where
  noPools := Db.empty_noPools
  owed := rfl
  held := rfl
  rooms := rfl
  subscriptions := rfl
  sent _ := rfl
  apps _ := rfl

def sampleRequested : Message :=
  .rideSnapshot
    { rideId := 1, version := 1, status := "requested", terminal := false, driverId := none
      pickup := ⟨0, 0⟩, dropoff := ⟨1, 1⟩, fareCents := 500 }

/-- The cancellation overtakes the snapshot that was read before it. -/
def sampleOvertaken : List Event :=
  let cancelled : Message := .rideStateChanged ⟨1, "cancelled", "client", none⟩
  [.commit (.createRide ⟨0, 0⟩
      { newId := 1, passengerId := 2, origin := ⟨0, 0⟩, dest := ⟨1, 1⟩, fareCents := 500
        idempotencyKey := "k" }),
    .follow 0 (.solo 1),
    .subscribe 0 (.solo 1),
    .join ⟨0, .solo 1, .allowed, 0⟩,
    .readSnapshot ⟨0, .solo 1, .joined, 0⟩,
    .commit (.cancel ⟨1, 1⟩ 1
      { rideId := 1, actor := .client, actorId := 2, isNoShow := false, reason := none
        noShowWaitMs := 0 }),
    .emit (.ride 1) cancelled,
    .deliver 0 cancelled,
    .emitSnapshot ⟨0, .solo 1, .read sampleRequested, 0⟩ sampleRequested,
    .deliver 0 sampleRequested,
    .deliver 0 cancelled]

def sampleScreen : System :=
  sampleOvertaken.foldl (next sampleConnections (D := ℕ) fun _ _ ↦ 0) sampleServer

theorem sampleScreen_cancelled : Screen (sampleScreen.apps 0).rides ∧
    (sampleScreen.apps 0).rides.heard.length = 3 ∧
      (sampleScreen.apps 0).rides.handed.map Handed.status? = [some "cancelled"] := by
  have hrun := Run.of_enabled (step sampleConnections (D := ℕ) fun _ _ ↦ 0) step_next
    sampleOvertaken (s := sampleServer) (by decide +kernel)
  have h := ride_in_order sampleConnections (D := ℕ) (fun _ _ ↦ 0) sampleServer_initial hrun
  exact ⟨h.2 0 1 (by decide +kernel), by decide +kernel, by decide +kernel⟩

end Rcab.Realtime
