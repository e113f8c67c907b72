import Rcab.Realtime.Announced
import Rcab.Realtime.RideEvents
import Rcab.Realtime.System

/-!
# Nothing untrue is ever said

Every message on its way, and every one an app has heard, names a state its ride or pool was in,
under that state's version (`Truthful`).
-/

universe u

namespace Rcab.Realtime

open Web (App)

variable {net : Connections} {s s' : System} {m m' : Message}

/-! ## Reads -/

section Reads

variable {db : Db}

theorem shown_of_get {poolId : PoolId} {row : SharedRide}
    (h : db.sharedRides.get poolId = some row) : Shown db (poolUpdatePayload row) := by
  refine ⟨row, ?_, Or.inl rfl⟩
  show db.sharedRides.get row.rideId = some row
  rw [show row.rideId = poolId from Table.key_of_get h, h]

/-- A publication reads the row, and skips some. -/
theorem read_eq_some {p : PoolPublication} {payload : PoolUpdatePayload}
    (h : p.read db = some payload) :
    ∃ row, db.sharedRides.get p.poolId = some row ∧ payload = poolUpdatePayload row := by
  obtain ⟨publisher, poolId⟩ := p
  cases publisher with
  | lifecycle =>
      obtain ⟨row, hrow, h⟩ := Option.bind_eq_some_iff.mp h
      unfold emitPoolUpdate at h
      split_ifs at h
      exact ⟨row, hrow, (Option.some.inj h).symm⟩
  | snapshots =>
      obtain ⟨row, hrow, rfl⟩ := Option.map_eq_some_iff.mp h
      exact ⟨row, hrow, rfl⟩

/-- It skips no state it emits. -/
theorem read_of_emits {p : PoolPublication} {row : SharedRide}
    (hrow : db.sharedRides.get p.poolId = some row) (h : p.Emits row.poolState) :
    p.read db = some (poolUpdatePayload row) := by
  obtain ⟨publisher, poolId⟩ := p
  cases publisher with
  | lifecycle => exact Option.bind_eq_some_iff.mpr ⟨row, hrow, if_pos h⟩
  | snapshots => exact Option.map_eq_some_iff.mpr ⟨row, hrow, rfl⟩

/-- A pool's snapshot shows its row. -/
theorem poolSnapshot_eq_some {poolId : PoolId} {userId : Uuid} {snap : PoolSnapshot}
    (h : poolSnapshot db poolId userId = some snap) :
    ∃ row, db.sharedRides.get poolId = some row ∧
      snap.toPoolUpdatePayload = poolUpdatePayload row := by
  unfold poolSnapshot at h
  split at h
  · rename_i row m hrow hm
    obtain rfl := Option.some.inj h
    exact ⟨row, hrow, rfl⟩
  · cases h

theorem valid_snapshot {userId : Uuid} {trip : TripRef} (h : snapshot db userId trip = some m) :
    m.Valid db := by
  cases trip with
  | solo rideId =>
      obtain ⟨snap, hsnap, rfl⟩ := Option.map_eq_some_iff.mp h
      unfold rideSnapshot at hsnap
      split at hsnap
      · cases hsnap
      rename_i r hr
      split_ifs at hsnap
      obtain rfl := Option.some.inj hsnap
      have hid : r.id = rideId := Table.key_of_get hr
      exact ⟨⟨r, r.status, by rw [hid, hr], rfl, .refl⟩, rfl⟩
  | shared poolId =>
      obtain ⟨snap, hread, rfl⟩ := Option.map_eq_some_iff.mp h
      obtain ⟨row, hrow, hsnap⟩ := poolSnapshot_eq_some hread
      show Shown db snap.toPoolUpdatePayload
      rw [hsnap]
      exact shown_of_get hrow

end Reads

/-! ## Where messages are -/

/-- The message is on its way, or an app has heard it. -/
inductive System.Has (s : System) (m : Message) : Prop
  | held (room : Room) (h : (room, m) ∈ s.held)
  | read (u : Subscription) (h : u ∈ s.subscriptions) (hp : u.phase = .read m)
  | sent (socket : SocketId) (h : m ∈ s.sent socket)
  | pools (app : AppId) (h : m ∈ (s.apps app).pools.heard)
  | rides (app : AppId) (h : m ∈ (s.apps app).rides.heard)

namespace System.Has

theorem advance {u : Subscription} {phase : Phase} {since : ℕ}
    (h : (s.advance u phase since).Has m) : s.Has m ∨ phase = .read m := by
  cases h with
  | held room h => exact Or.inl (.held room h)
  | read u' h hp =>
      rcases List.mem_cons.mp h with rfl | h
      · exact Or.inr hp
      · exact Or.inl (.read u' (List.mem_of_mem_erase h) hp)
  | sent socket h => exact Or.inl (.sent socket h)
  | pools app h => exact Or.inl (.pools app h)
  | rides app h => exact Or.inl (.rides app h)

theorem joinRooms {socket : SocketId} {rooms : List Room} (h : (s.joinRooms socket rooms).Has m) :
    s.Has m := by
  cases h with
  | held room h => exact .held room h
  | read u h hp => exact .read u h hp
  | sent socket h => exact .sent socket h
  | pools app h => exact .pools app h
  | rides app h => exact .rides app h

theorem sendTo {room : Room} (h : (s.sendTo room m').Has m) : s.Has m ∨ m = m' := by
  cases h with
  | held room h => exact Or.inl (.held room h)
  | read u h hp => exact Or.inl (.read u h hp)
  | sent socket h =>
      unfold System.sendTo at h
      dsimp only at h
      split_ifs at h
      · rcases List.mem_append.mp h with h | h
        · exact Or.inl (.sent socket h)
        · exact Or.inr (List.mem_singleton.mp h)
      · exact Or.inl (.sent socket h)
  | pools app h => exact Or.inl (.pools app h)
  | rides app h => exact Or.inl (.rides app h)

theorem send {socket : SocketId} (h : (s.send socket m').Has m) : s.Has m ∨ m = m' := by
  cases h with
  | held room h => exact Or.inl (.held room h)
  | read u h hp => exact Or.inl (.read u h hp)
  | sent socket' h =>
      unfold System.send at h
      dsimp only at h
      by_cases hs : socket' = socket
      · subst hs
        rw [Function.update_self] at h
        rcases List.mem_append.mp h with h | h
        · exact Or.inl (.sent socket' h)
        · exact Or.inr (List.mem_singleton.mp h)
      · rw [Function.update_of_ne hs] at h
        exact Or.inl (.sent socket' h)
  | pools app h => exact Or.inl (.pools app h)
  | rides app h => exact Or.inl (.rides app h)

/-- An app hears nothing new, or one message more. -/
theorem updateApp {app : AppId} (f : App → App) {P : Prop}
    (hp : m ∈ (f (s.apps app)).pools.heard → m ∈ (s.apps app).pools.heard ∨ P)
    (hr : m ∈ (f (s.apps app)).rides.heard → m ∈ (s.apps app).rides.heard ∨ P)
    (h : (s.updateApp app f).Has m) : s.Has m ∨ P := by
  cases h with
  | held room h => exact Or.inl (.held room h)
  | read u h hp => exact Or.inl (.read u h hp)
  | sent socket h => exact Or.inl (.sent socket h)
  | pools app' h =>
      unfold System.updateApp at h
      dsimp only at h
      by_cases ha : app' = app
      · subst ha
        rw [Function.update_self] at h
        exact (hp h).imp_left fun h ↦ .pools app' h
      · rw [Function.update_of_ne ha] at h
        exact Or.inl (.pools app' h)
  | rides app' h =>
      unfold System.updateApp at h
      dsimp only at h
      by_cases ha : app' = app
      · subst ha
        rw [Function.update_self] at h
        exact (hr h).imp_left fun h ↦ .rides app' h
      · rw [Function.update_of_ne ha] at h
        exact Or.inl (.rides app' h)

end System.Has

/-! ## The invariant -/

/-- Nothing untrue is said, and the apps' gates go by what they heard. -/
structure Truthful (s : System) : Prop where
  pools : PoolsInv s.db
  valid : ∀ m, s.Has m → m.Valid s.db
  consistent : ∀ app, (s.apps app).Consistent

section Exec

variable {D : Type u} [LinearOrder D] {dist : Point → Point → D}

/-- A message is new only when it was just read, or says what was just done. -/
theorem has_next {e : Event} (ha : Allowed net s e) (h : (next net dist s e).Has m) :
    s.Has m ∨ m.Valid (next net dist s e).db := by
  cases e with
  | commit e =>
      cases h with
      | held room h =>
          rcases List.mem_append.mp h with h | h
          · obtain ⟨ev, hev, heq⟩ := List.mem_map.mp h
            obtain ⟨-, rfl⟩ := Prod.mk.inj heq
            exact Or.inr (valid_rideEvents dist e hev)
          · exact Or.inl (.held room h)
      | read u h hp => exact Or.inl (.read u h hp)
      | sent socket h => exact Or.inl (.sent socket h)
      | pools app h => exact Or.inl (.pools app h)
      | rides app h => exact Or.inl (.rides app h)
  | read p =>
      cases h with
      | held room h =>
          rcases List.mem_append.mp h with h | h
          · obtain ⟨payload, hpayload, heq⟩ := List.mem_map.mp h
            obtain ⟨-, rfl⟩ := Prod.mk.inj heq
            obtain ⟨row, hrow, rfl⟩ := read_eq_some (Option.mem_toList.mp hpayload)
            exact Or.inr (shown_of_get hrow)
          · exact Or.inl (.held room h)
      | read u h hp => exact Or.inl (.read u h hp)
      | sent socket h => exact Or.inl (.sent socket h)
      | pools app h => exact Or.inl (.pools app h)
      | rides app h => exact Or.inl (.rides app h)
  | emit room m' =>
      rcases h.sendTo with h | rfl
      · cases h with
        | held room h => exact Or.inl (.held room (List.mem_of_mem_erase h))
        | read u h hp => exact Or.inl (.read u h hp)
        | sent socket h => exact Or.inl (.sent socket h)
        | pools app h => exact Or.inl (.pools app h)
        | rides app h => exact Or.inl (.rides app h)
      · exact Or.inl (.held room ha)
  | enter socket room => exact Or.inl h.joinRooms
  | subscribe socket trip =>
      cases h with
      | held room h => exact Or.inl (.held room h)
      | read u h hp =>
          rcases List.mem_cons.mp h with rfl | h
          · cases hp
          · exact Or.inl (.read u h hp)
      | sent socket h => exact Or.inl (.sent socket h)
      | pools app h => exact Or.inl (.pools app h)
      | rides app h => exact Or.inl (.rides app h)
  | join u =>
      rcases h.advance with h | h
      · exact Or.inl h.joinRooms
      · cases h
  | readSnapshot u =>
      unfold next at h ⊢
      dsimp only at h ⊢
      split at h
      · cases h with
        | held room h => exact Or.inl (.held room h)
        | read u h hp => exact Or.inl (.read u (List.mem_of_mem_erase h) hp)
        | sent socket h => exact Or.inl (.sent socket h)
        | pools app h => exact Or.inl (.pools app h)
        | rides app h => exact Or.inl (.rides app h)
      · rename_i m' hm'
        rcases h.advance with h | h
        · exact Or.inl h
        · obtain rfl := Phase.read.inj h
          exact Or.inr (valid_snapshot hm')
  | emitSnapshot u m' =>
      rcases h.advance with h | h
      · rcases h.send with h | rfl
        · exact Or.inl h
        · exact Or.inl (.read u ha.1 ha.2)
      · cases h
  | follow app trip =>
      exact h.updateApp (fun a ↦ a.follow trip) (fun h ↦ Or.inl (App.heard_follow.1 h))
        fun h ↦ Or.inl (App.heard_follow.2 h)
  | deliver socket m' =>
      rcases h.updateApp (fun a ↦ a.receive m') App.heard_receive.1 App.heard_receive.2 with h | rfl
      · exact Or.inl h
      · exact Or.inl (.sent socket ha)

variable (net dist s) in
/-- Only a commit changes the database. -/
theorem db_next (e : Event) : (next net dist s e).db = s.db ∨
    ∃ st, e = .commit st ∧ (next net dist s e).db = exec dist s.db st := by
  cases e with
  | commit st => exact Or.inr ⟨st, rfl, rfl⟩
  | readSnapshot u =>
      unfold next
      dsimp only
      split <;> exact Or.inl rfl
  | _ => exact Or.inl rfl

theorem consistent_next (h : ∀ app, (s.apps app).Consistent) (e : Event) (app : AppId) :
    ((next net dist s e).apps app).Consistent := by
  have hupdate : ∀ (app' : AppId) (f : App → App), (f (s.apps app')).Consistent →
      ((s.updateApp app' f).apps app).Consistent := by
    intro app' f hf
    unfold System.updateApp
    dsimp only
    by_cases ha : app = app'
    · subst ha
      rw [Function.update_self]
      exact hf
    · rw [Function.update_of_ne ha]
      exact h app
  cases e with
  | follow app' trip => exact hupdate app' (fun a ↦ a.follow trip) ((h app').follow trip)
  | deliver socket m => exact hupdate _ (fun a ↦ a.receive m) ((h _).receive m)
  | readSnapshot u =>
      unfold next
      dsimp only
      split <;> exact h app
  | _ => exact h app

namespace Truthful

theorem initial (h : s.Initial) : Truthful s where
  pools := .of_noPools h.noPools
  valid m hm := by
    cases hm with
    | held room hm => exact absurd (h.held ▸ hm) List.not_mem_nil
    | read u hu hp => exact absurd (h.subscriptions ▸ hu) List.not_mem_nil
    | sent socket hm => exact absurd (h.sent socket ▸ hm) List.not_mem_nil
    | pools app hm => exact absurd (h.apps app ▸ hm) List.not_mem_nil
    | rides app hm => exact absurd (h.apps app ▸ hm) List.not_mem_nil
  consistent app := h.apps app ▸ .start

theorem step (h : Truthful s) {e : Event} (hst : step net dist s e s') : Truthful s' := by
  obtain ⟨ha, rfl⟩ := hst
  have hkeep : PoolsInv (next net dist s e).db ∧
      ∀ m, Message.Valid s.db m → m.Valid (next net dist s e).db := by
    rcases db_next net s dist e with hdb | ⟨st, -, hdb⟩ <;> rw [hdb]
    · exact ⟨h.pools, fun _ hm ↦ hm⟩
    · exact ⟨h.pools.step rfl, fun m hm ↦ hm.exec h.pools st⟩
  refine ⟨hkeep.1, fun m hm ↦ ?_, consistent_next h.consistent e⟩
  rcases has_next ha hm with hm | hm
  · exact hkeep.2 m (h.valid m hm)
  · exact hm

theorem run {tr : List (System × Event)} (h : Truthful s)
    (hr : Run (Realtime.step net dist) s tr s') : Truthful s' :=
  hr.invariant (fun _ _ _ h hst ↦ h.step hst) h

end Truthful

end Exec

end Rcab.Realtime
