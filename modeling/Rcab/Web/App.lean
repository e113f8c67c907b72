import Rcab.Outbox.Jobs
import Rcab.Web.Socket

/-!
# What the app is handed

An app over its booking socket, with what was delivered of the ride and of the pool it follows,
and what its handlers were handed of them.  Either gate is the version gate of the library,
whose messages are authoritative when they are snapshots.
-/

namespace Rcab

namespace Realtime.Message

/-- The ride or the pool it is about. -/
def trip : Message → TripRef
  | .poolSnapshot snapshot => .shared snapshot.sharedRideId
  | .poolUpdate payload => .shared payload.sharedRideId
  | .rideSnapshot snapshot => .solo snapshot.rideId
  | .rideStateChanged event => .solo event.rideId

/-- The version a client orders it by. -/
def version : Message → ℕ
  | .poolSnapshot snapshot => snapshot.version
  | .poolUpdate payload => payload.version
  | .rideSnapshot snapshot => snapshot.version
  | .rideStateChanged event => event.version.getD (Web.rideStatusVersion event.state)

/-- The status of a ride it tells. -/
def status? : Message → Option String
  | .rideSnapshot snapshot => some snapshot.status
  | .rideStateChanged event => some event.state
  | _ => none

/-- A snapshot. -/
def Authoritative : Message → Prop
  | .poolSnapshot _ | .rideSnapshot _ => True
  | _ => False

instance : DecidablePred Authoritative
  | .poolSnapshot _ | .rideSnapshot _ => isTrue trivial
  | .poolUpdate _ | .rideStateChanged _ => isFalse not_false

/-- What the handlers get of it. -/
def handed : Message → Web.Handed
  | .poolSnapshot snapshot => .pool snapshot.toPoolUpdatePayload
  | .poolUpdate payload => .pool payload
  | .rideSnapshot snapshot => .ride (Web.BookingSocket.asEvent snapshot)
  | .rideStateChanged event => .ride event

end Realtime.Message

namespace Web

open Realtime (Message)

def Handed.version : Handed → ℕ
  | .pool payload => payload.version
  | .ride event => event.version.getD (rideStatusVersion event.state)

def Handed.status? : Handed → Option String
  | .ride event => some event.state
  | .pool _ => none

theorem status?_handed (m : Message) : m.handed.status? = m.status? := by cases m <;> rfl

theorem version_handed (m : Message) : m.handed.version = m.version := by cases m <;> rfl

/-! ## A gate and its log -/

/-- The gate's verdict on a message. -/
def VersionGate.judge (g : VersionGate) (m : Message) : VersionGate × Bool :=
  if m.Authoritative then g.snapshot m.trip.id (some m.version)
  else g.event m.trip.id (some m.version)

/-- What was delivered of what is followed, and what was handed on. -/
structure Log where
  heard : List Message
  handed : List Handed

def Log.empty : Log := ⟨[], []⟩

/-- Log a message about what is followed. -/
def Log.add (l : Log) (followed : Option Uuid) (m : Message) (out : Option Handed) : Log :=
  if some m.trip.id = followed then ⟨l.heard ++ [m], l.handed ++ out.toList⟩ else l

/-- The messages heard through a gate of the library. -/
def heardAll (ms : List Message) : Gate.Log ℕ Message :=
  Gate.hearAll Message.version Message.Authoritative ms

/-- The gate and the log are what hearing the messages leads to. -/
structure Tracks (g : VersionGate) (l : Log) : Prop where
  applied : g.applied = (heardAll l.heard).applied
  handed : l.handed = (heardAll l.heard).handed.map Message.handed
  followed : ∀ m ∈ l.heard, g.followed = some m.trip.id

namespace VersionGate

variable {g : VersionGate} {m : Message}

/-- A message about something else changes nothing. -/
theorem judge_of_ne (h : some m.trip.id ≠ g.followed) : g.judge m = (g, false) := by
  unfold judge snapshot event
  split_ifs
  · exact if_pos (Or.inl h)
  · rfl

/-- **Refinement**: the gate decides as the library's does. -/
theorem judge_eq (h : some m.trip.id = g.followed) :
    g.judge m =
      if Gate.Passes Message.version Message.Authoritative g.applied m then
        ({ g with applied := WithBot.some m.version }, true)
      else (g, false) := by
  unfold judge snapshot event Gate.Passes
  by_cases ha : m.Authoritative
  · simp only [if_pos ha, h, ne_eq, not_true_eq_false, false_or]
    by_cases hle : g.applied ≤ WithBot.some m.version
    · rw [if_pos hle, if_neg (not_lt.mpr hle)]
    · rw [if_neg hle, if_pos (not_le.mp hle)]
  · simp only [if_neg ha, h, ne_eq, not_true_eq_false, if_false]
    by_cases hlt : g.applied < WithBot.some m.version
    · rw [if_pos hlt, if_neg (not_le.mpr hlt)]
    · rw [if_neg hlt, if_pos (not_lt.mp hlt)]

end VersionGate

namespace Tracks

variable {g : VersionGate} {l : Log} {m : Message} {id : Uuid}

theorem empty (h : g.applied = ⊥) : Tracks g .empty := ⟨h, rfl, by simp [Log.empty]⟩

/-- Following anew starts over; following the same changes nothing. -/
theorem follow (h : Tracks g l) :
    Tracks (g.follow id) (if some id = g.followed then l else .empty) := by
  unfold VersionGate.follow
  split_ifs
  · exact h
  · exact empty rfl

theorem judge (h : Tracks g l) :
    Tracks (g.judge m).1
      (l.add g.followed m (if (g.judge m).2 then some m.handed else none)) := by
  unfold Log.add
  by_cases hm : some m.trip.id = g.followed
  · have hall : heardAll (l.heard ++ [m]) =
        Gate.hear Message.version Message.Authoritative (heardAll l.heard) m := Gate.hearAll_concat
    have hf : ∀ m' ∈ l.heard ++ [m], g.followed = some m'.trip.id := by
      intro m' hm'
      rcases List.mem_append.mp hm' with hm' | hm'
      · exact h.followed m' hm'
      · rw [List.mem_singleton.mp hm', hm]
    rw [if_pos hm, VersionGate.judge_eq hm]
    by_cases hp : Gate.Passes Message.version Message.Authoritative g.applied m
    · rw [if_pos hp]
      rw [h.applied] at hp
      refine ⟨?_, ?_, hf⟩ <;> dsimp only <;> rw [hall, Gate.hear, if_pos hp]
      show l.handed ++ [m.handed] = _
      rw [h.handed, List.map_append, List.map_singleton]
    · rw [if_neg hp]
      rw [h.applied] at hp
      refine ⟨?_, ?_, hf⟩ <;> dsimp only <;> rw [hall, Gate.hear, if_neg hp]
      · exact h.applied
      · rw [h.handed]
        exact List.append_nil _
  · rw [VersionGate.judge_of_ne hm, if_neg hm]
    exact h

/-- What is handed on never goes back to an older version. -/
theorem sorted (h : Tracks g l) : l.handed.Pairwise fun a b ↦ a.version ≤ b.version := by
  rw [h.handed, List.pairwise_map]
  simp only [version_handed]
  exact Gate.handed_sorted _

/-- The newest message delivered is the last one handed on. -/
theorem getLast (h : Tracks g l) (hne : l.heard ≠ []) :
    ∃ m ∈ l.heard, l.handed.getLast? = some m.handed ∧
      ∀ m' ∈ l.heard, m'.version ≤ m.version := by
  obtain ⟨m, hm, hlast, hmax⟩ :=
    Gate.getLast?_handed Message.version Message.Authoritative hne
  refine ⟨m, hm, ?_, hmax⟩
  have hlast' : (heardAll l.heard).handed.getLast? = some m := hlast
  rw [h.handed, List.getLast?_map, hlast', Option.map_some]

/-- All that is handed on was delivered. -/
theorem handed_mem (h : Tracks g l) {x : Handed} (hx : x ∈ l.handed) :
    ∃ m ∈ l.heard, x = m.handed := by
  rw [h.handed] at hx
  obtain ⟨m, hm, rfl⟩ := List.mem_map.mp hx
  exact ⟨m, Gate.handed_subset hm, rfl⟩

end Tracks

/-! ## The app -/

structure App where
  socket : BookingSocket
  pools : Log
  rides : Log

namespace App

def start : App := ⟨.connect, .empty, .empty⟩

/-- The app follows a ride or a pool. -/
def follow (a : App) : TripRef → App
  | .shared id =>
      { a with
        socket := a.socket.subscribePool id
        pools := if some id = a.socket.poolGate.followed then a.pools else .empty }
  | .solo id =>
      { a with
        socket := a.socket.subscribeRide id
        rides := if some id = a.socket.rideGate.followed then a.rides else .empty }

/-- A message is delivered. -/
def receive (a : App) (m : Message) : App :=
  let (socket, out) := a.socket.receive m
  match m.trip with
  | .shared _ => { a with socket, pools := a.pools.add a.socket.poolGate.followed m out }
  | .solo _ => { a with socket, rides := a.rides.add a.socket.rideGate.followed m out }

/-- Both gates track their logs. -/
structure Consistent (a : App) : Prop where
  pools : Tracks a.socket.poolGate a.pools
  rides : Tracks a.socket.rideGate a.rides
  shared : ∀ m ∈ a.pools.heard, ∃ id, m.trip = .shared id
  solo : ∀ m ∈ a.rides.heard, ∃ id, m.trip = .solo id

end App

/-- The listeners ask the gate of the pool, or that of the ride. -/
theorem BookingSocket.receive_eq (s : BookingSocket) (m : Message) :
    s.receive m = match m.trip with
      | .shared _ => ({ s with poolGate := (s.poolGate.judge m).1 },
          if (s.poolGate.judge m).2 then some m.handed else none)
      | .solo _ => ({ s with rideGate := (s.rideGate.judge m).1 },
          if (s.rideGate.judge m).2 then some m.handed else none) := by
  cases m <;> rfl

theorem Log.mem_add {l : Log} {followed : Option Uuid} {m m' : Message} {out : Option Handed}
    (h : m' ∈ (l.add followed m out).heard) : m' ∈ l.heard ∨ m' = m := by
  unfold add at h
  split_ifs at h
  · rcases List.mem_append.mp h with h | h
    · exact Or.inl h
    · exact Or.inr (List.mem_singleton.mp h)
  · exact Or.inl h

namespace App

variable {a : App} {m m' : Message}

/-- Following adds nothing to what was delivered. -/
theorem heard_follow {trip : TripRef} :
    (m ∈ (a.follow trip).pools.heard → m ∈ a.pools.heard) ∧
      (m ∈ (a.follow trip).rides.heard → m ∈ a.rides.heard) := by
  cases trip with
  | solo id =>
      refine ⟨fun h ↦ h, fun h ↦ ?_⟩
      unfold follow at h
      dsimp only at h
      split_ifs at h
      · exact h
      · exact absurd h List.not_mem_nil
  | shared id =>
      refine ⟨fun h ↦ ?_, fun h ↦ h⟩
      unfold follow at h
      dsimp only at h
      split_ifs at h
      · exact h
      · exact absurd h List.not_mem_nil

/-- A delivery adds its message at most. -/
theorem heard_receive :
    (m ∈ (a.receive m').pools.heard → m ∈ a.pools.heard ∨ m = m') ∧
      (m ∈ (a.receive m').rides.heard → m ∈ a.rides.heard ∨ m = m') := by
  unfold receive
  cases m'.trip with
  | solo id => exact ⟨Or.inl, Log.mem_add⟩
  | shared id => exact ⟨Log.mem_add, Or.inl⟩

end App

namespace App.Consistent

variable {a : App}

theorem start : App.start.Consistent where
  pools := .empty rfl
  rides := .empty rfl
  shared _ hm := absurd hm List.not_mem_nil
  solo _ hm := absurd hm List.not_mem_nil

theorem follow (h : a.Consistent) (trip : TripRef) : (a.follow trip).Consistent := by
  cases trip with
  | solo id =>
      exact ⟨h.pools, h.rides.follow, h.shared, fun m hm ↦ h.solo m (App.heard_follow.2 hm)⟩
  | shared id =>
      exact ⟨h.pools.follow, h.rides, fun m hm ↦ h.shared m (App.heard_follow.1 hm), h.solo⟩

theorem receive (h : a.Consistent) (m : Message) : (a.receive m).Consistent := by
  unfold App.receive
  rw [BookingSocket.receive_eq]
  cases ht : m.trip with
  | solo id =>
      refine ⟨h.pools, h.rides.judge, h.shared, fun m' hm' ↦ ?_⟩
      rcases Log.mem_add hm' with hm' | rfl
      · exact h.solo m' hm'
      · exact ⟨id, ht⟩
  | shared id =>
      refine ⟨h.pools.judge, h.rides, fun m' hm' ↦ ?_, h.solo⟩
      rcases Log.mem_add hm' with hm' | rfl
      · exact h.shared m' hm'
      · exact ⟨id, ht⟩

end App.Consistent

end Web

end Rcab
