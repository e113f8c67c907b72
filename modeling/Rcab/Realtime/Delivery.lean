import Rcab.Realtime.Truth

/-!
# No last word is lost

A subscription joins its rooms before it reads the snapshot, so a change of the pool is either
in the snapshot or published after the join; and a publication reads the row it emits after the
commit it follows.  Hence the row of a pool is on its way to every connection that follows the
pool, or has been sent to it (`OnItsWay`), after every event (`Serves.keeps`).
-/

universe u

namespace Rcab.Realtime

variable {net : Connections} {s s' : System} {socket : SocketId} {since : ℕ} {poolId : PoolId}

/-- A publication will read the pool's row, an emission carries it, or the socket was sent it
after its first `since` messages. -/
def OnItsWay (s : System) (socket : SocketId) (since : ℕ) (poolId : PoolId) : Prop :=
  ∀ row, s.db.sharedRides.get poolId = some row →
    (∃ p ∈ s.owed, p.poolId = poolId ∧ p.Emits row.poolState) ∨
      (Room.pool poolId, Message.poolUpdate (poolUpdatePayload row)) ∈ s.held ∨
      ∃ m ∈ (s.sent socket).drop since, m.pool? = some (poolUpdatePayload row)

/-- A subscription of a pool, at any point of its handler. -/
structure Serves (net : Connections) (s : System) (u : Subscription) (poolId : PoolId) : Prop where
  member : isPoolMember s.db poolId (net.userId u.socket)
  room : u.phase ≠ .allowed → (u.socket, .pool poolId) ∈ s.rooms
  since : u.phase ≠ .allowed → u.since ≤ (s.sent u.socket).length
  /-- The snapshot that was read shows the row, or the row changed since. -/
  read : ∀ m, u.phase = .read m →
    (∃ row, s.db.sharedRides.get poolId = some row ∧ m.pool? = some (poolUpdatePayload row)) ∨
      OnItsWay s u.socket u.since poolId
  emitted : u.phase = .emitted → OnItsWay s u.socket u.since poolId

/-- What an event keeps. -/
structure Keeps (s s' : System) : Prop where
  member : ∀ {poolId userId}, isPoolMember s.db poolId userId → isPoolMember s'.db poolId userId
  room : ∀ {socket poolId}, (socket, Room.pool poolId) ∈ s.rooms → (socket, .pool poolId) ∈ s'.rooms
  sent : ∀ socket, (s.sent socket).length ≤ (s'.sent socket).length
  row : ∀ poolId, s'.db.sharedRides.get poolId = s.db.sharedRides.get poolId ∨
    ∀ socket since, OnItsWay s' socket since poolId
  way : ∀ {socket since poolId}, (socket, Room.pool poolId) ∈ s.rooms →
    since ≤ (s.sent socket).length → OnItsWay s socket since poolId → OnItsWay s' socket since poolId

/-- A subscription is served on. -/
theorem Serves.keeps {u : Subscription} (h : Serves net s u poolId) (hk : Keeps s s') :
    Serves net s' u poolId where
  member := hk.member h.member
  room hp := hk.room (h.room hp)
  since hp := (h.since hp).trans (hk.sent _)
  read m hm := by
    have hp : u.phase ≠ .allowed := by simp [hm]
    rcases hk.row poolId with hrow | hway
    · rw [hrow]
      exact (h.read m hm).imp_right fun hw ↦ hk.way (h.room hp) (h.since hp) hw
    · exact Or.inr (hway _ _)
  emitted hm := by
    have hp : u.phase ≠ .allowed := by simp [hm]
    exact hk.way (h.room hp) (h.since hp) (h.emitted hm)

namespace OnItsWay

/-- More to be said of the same row. -/
theorem mono (h : OnItsWay s socket since poolId)
    (hrow : s'.db.sharedRides.get poolId = s.db.sharedRides.get poolId)
    (howed : ∀ p ∈ s.owed, p ∈ s'.owed) (hheld : ∀ x ∈ s.held, x ∈ s'.held)
    (hsent : ∀ m ∈ (s.sent socket).drop since, m ∈ (s'.sent socket).drop since) :
    OnItsWay s' socket since poolId := by
  intro row hr
  rcases h row (hrow ▸ hr) with ⟨p, hp, hid, he⟩ | hx | ⟨m, hm, he⟩
  · exact Or.inl ⟨p, howed p hp, hid, he⟩
  · exact Or.inr (Or.inl (hheld _ hx))
  · exact Or.inr (Or.inr ⟨m, hsent m hm, he⟩)

end OnItsWay

namespace Keeps

/-- An event off the database that says no less. -/
theorem of_same (hdb : s'.db = s.db) (howed : ∀ p ∈ s.owed, p ∈ s'.owed)
    (hheld : ∀ x ∈ s.held, x ∈ s'.held)
    (hrooms : ∀ {socket poolId}, (socket, Room.pool poolId) ∈ s.rooms →
      (socket, .pool poolId) ∈ s'.rooms)
    (hsent : ∀ socket, s.sent socket <+: s'.sent socket) : Keeps s s' where
  member hm := hdb ▸ hm
  room := hrooms
  sent socket := (hsent socket).length_le
  row poolId := Or.inl (by rw [hdb])
  way {socket since poolId} _ hlen hw := by
    refine hw.mono (by rw [hdb]) howed hheld fun m hm ↦ ?_
    obtain ⟨l, hl⟩ := hsent socket
    rw [← hl, List.drop_append_of_le_length hlen]
    exact List.mem_append_left _ hm

end Keeps

/-! ## What follows a commit -/

section Exec

variable {D : Type u} [LinearOrder D] {dist : Point → Point → D}

theorem isPoolMember_iff {db : Db} {userId : Uuid} :
    isPoolMember db poolId userId ↔ ∃ fare, (db.poolView poolId).HasSeat (poolId, userId) fare := by
  unfold isPoolMember
  rw [Option.isSome_iff_exists]
  constructor
  · rintro ⟨m, hm⟩
    have hkey : m.pkey = (poolId, userId) := Table.key_of_get hm
    exact ⟨_, m, Table.mem_filter.mpr ⟨Table.mem_of_get hm, (Prod.mk.inj hkey).1⟩, hkey, rfl⟩
  · rintro ⟨fare, m, hm, hkey, -⟩
    exact ⟨m, hkey ▸ Table.get_of_mem (Table.mem_filter.mp hm).1⟩

/-- A membership row is never deleted. -/
theorem isPoolMember_exec {db : Db} {userId : Uuid} (hi : PoolsInv db)
    (h : isPoolMember db poolId userId) (e : Step) :
    isPoolMember (exec dist db e) poolId userId := by
  obtain ⟨fare, hseat⟩ := isPoolMember_iff.mp h
  exact isPoolMember_iff.mpr
    ⟨fare, (poolSim_exec dist hi e).keeps (fun _ _ hst h ↦ hst.hasSeat h) poolId hseat⟩

/-- A member has a snapshot. -/
theorem poolSnapshot_of_member {db : Db} {userId : Uuid} (hi : PoolsInv db)
    (h : isPoolMember db poolId userId) : ∃ snap, poolSnapshot db poolId userId = some snap := by
  obtain ⟨fare, m, hm, -⟩ := isPoolMember_iff.mp h
  obtain ⟨m', hm'⟩ := Option.isSome_iff_exists.mp h
  cases hrow : db.sharedRides.get poolId with
  | none =>
      rw [((hi.pool poolId).absent hrow).1] at hm
      cases hm
  | some row =>
      unfold poolSnapshot
      rw [hrow, hm']
      exact ⟨_, rfl⟩

theorem keeps_commit (h : PoolsInv s.db) (e : Step) :
    Keeps s (next net dist s (.commit e)) := by
  have hannounced := announced_exec dist h e
  have hway : ∀ {poolId : PoolId}, (∃ p ∈ e.publications dist s.db, p.poolId = poolId ∧
      ∀ row, (exec dist s.db e).sharedRides.get poolId = some row → p.Emits row.poolState) →
      ∀ socket since, OnItsWay (next net dist s (.commit e)) socket since poolId := by
    rintro poolId ⟨p, hp, hid, he⟩ socket since row hrow
    exact Or.inl ⟨p, List.mem_append_left _ hp, hid, he row hrow⟩
  refine ⟨fun hm ↦ isPoolMember_exec h hm e, fun hr ↦ hr, fun _ ↦ Nat.le_refl _, fun poolId ↦ ?_, ?_⟩
  · exact (hannounced poolId).imp_right hway
  · intro socket since poolId _ _ hw
    rcases hannounced poolId with hrow | hp
    · exact hw.mono hrow (fun p hp ↦ List.mem_append_right _ hp)
        (fun x hx ↦ List.mem_append_right _ hx) fun m hm ↦ hm
    · exact hway hp socket since

/-- A publication that would emit the row now carries it. -/
theorem keeps_read (p : PoolPublication) : Keeps s (next net dist s (.read p)) where
  member hm := hm
  room hr := hr
  sent _ := Nat.le_refl _
  row _ := Or.inl rfl
  way {socket since poolId} _ _ hw row hrow := by
    rcases hw row hrow with ⟨q, hq, hid, he⟩ | hx | hm
    · by_cases hqp : q = p
      · subst hqp
        subst hid
        refine Or.inr (Or.inl (List.mem_append_left _ (List.mem_map.mpr ⟨_, ?_, rfl⟩)))
        exact Option.mem_toList.mpr (read_of_emits hrow he)
      · exact Or.inl ⟨q, (List.mem_erase_of_ne hqp).mpr hq, hid, he⟩
    · exact Or.inr (Or.inl (List.mem_append_right _ hx))
    · exact Or.inr (Or.inr hm)

/-- An emission reaches who is in the room. -/
theorem keeps_emit (room : Room) (m : Message) : Keeps s (next net dist s (.emit room m)) := by
  have hsent : ∀ socket, s.sent socket <+: (next net dist s (.emit room m)).sent socket := by
    intro socket
    show _ <+: if (socket, room) ∈ s.rooms then s.sent socket ++ [m] else s.sent socket
    split_ifs
    · exact List.prefix_append _ _
    · exact List.prefix_rfl
  refine ⟨fun hm ↦ hm, fun hr ↦ hr, fun socket ↦ (hsent socket).length_le, fun _ ↦ Or.inl rfl, ?_⟩
  intro socket since poolId hroom hlen hw row hrow
  rcases hw row hrow with hp | hx | ⟨m', hm', he⟩
  · exact Or.inl hp
  · by_cases heq : (Room.pool poolId, Message.poolUpdate (poolUpdatePayload row)) = (room, m)
    · obtain ⟨rfl, rfl⟩ := Prod.mk.inj heq
      refine Or.inr (Or.inr ⟨.poolUpdate (poolUpdatePayload row), ?_, rfl⟩)
      show _ ∈ (if (socket, Room.pool poolId) ∈ s.rooms then s.sent socket ++ [_]
        else s.sent socket).drop since
      rw [if_pos hroom, List.drop_append_of_le_length hlen]
      exact List.mem_append_right _ (List.mem_singleton_self _)
    · exact Or.inr (Or.inl ((List.mem_erase_of_ne heq).mpr hx))
  · obtain ⟨l, hl⟩ := hsent socket
    refine Or.inr (Or.inr ⟨m', ?_, he⟩)
    rw [← hl, List.drop_append_of_le_length hlen]
    exact List.mem_append_left _ hm'

/-! ## What follows the other events -/

/-- What one connection is sent, the others are not. -/
theorem send_prefix (socket socket' : SocketId) (m : Message) :
    s.sent socket' <+: (s.send socket m).sent socket' := by
  show _ <+: Function.update s.sent socket (s.sent socket ++ [m]) socket'
  rcases eq_or_ne socket' socket with rfl | h
  · exact (Function.update_self socket' _ s.sent).symm ▸ List.prefix_append _ _
  · exact (Function.update_of_ne h _ s.sent).symm ▸ List.prefix_rfl

/-- Leaving the rooms of a ride leaves no pool. -/
theorem mem_leaveRooms_solo {rideId : RideId} {socket' : SocketId}
    (h : (socket, Room.pool poolId) ∈ s.rooms) :
    (socket, Room.pool poolId) ∈ (s.leaveRooms socket' (roomsOf (.solo rideId))).rooms := by
  refine List.mem_filter.mpr ⟨h, decide_eq_true (Or.inr ?_)⟩
  simp [roomsOf]

/-- The subscriptions of pools are served. -/
def Served (net : Connections) (s : System) : Prop :=
  ∀ u ∈ s.subscriptions, ∀ poolId, u.trip = .shared poolId → Serves net s u poolId

/-- A served subscription always finds its snapshot, so no handler leaves a pool's room. -/
theorem keeps_readSnapshot {u : Subscription} (hi : PoolsInv s.db) (hs : Served net s)
    (hu : u ∈ s.subscriptions) : Keeps s (next net dist s (.readSnapshot u)) := by
  unfold next
  dsimp only
  split
  · rename_i hnone
    cases ht : u.trip with
    | solo rideId =>
        exact .of_same rfl (fun _ hp ↦ hp) (fun _ hx ↦ hx) mem_leaveRooms_solo
          fun _ ↦ List.prefix_rfl
    | shared poolId =>
        obtain ⟨snap, hsnap⟩ := poolSnapshot_of_member hi (hs u hu poolId ht).member
        rw [ht] at hnone
        unfold snapshot at hnone
        dsimp only at hnone
        rw [hsnap] at hnone
        cases hnone
  · exact .of_same rfl (fun _ hp ↦ hp) (fun _ hx ↦ hx) (fun hr ↦ hr) fun _ ↦ List.prefix_rfl

/-- No event loses what is on its way. -/
theorem keeps_next {e : Event} (hi : PoolsInv s.db) (hs : Served net s) (ha : Allowed net s e) :
    Keeps s (next net dist s e) := by
  have hjoin : ∀ (socket : SocketId) (rooms : List Room) {x},
      x ∈ s.rooms → x ∈ (s.joinRooms socket rooms).rooms :=
    fun _ _ _ h ↦ List.mem_append_right _ h
  cases e with
  | commit e => exact keeps_commit hi e
  | read p => exact keeps_read p
  | emit room m => exact keeps_emit room m
  | enter socket room =>
      exact .of_same rfl (fun _ hp ↦ hp) (fun _ hx ↦ hx) (fun hr ↦ hjoin _ _ hr)
        fun _ ↦ List.prefix_rfl
  | join u =>
      exact .of_same rfl (fun _ hp ↦ hp) (fun _ hx ↦ hx) (fun hr ↦ hjoin _ _ hr)
        fun _ ↦ List.prefix_rfl
  | readSnapshot u => exact keeps_readSnapshot hi hs ha.1
  | emitSnapshot u m =>
      exact .of_same rfl (fun _ hp ↦ hp) (fun _ hx ↦ hx) (fun hr ↦ hr)
        fun socket ↦ send_prefix u.socket socket m
  | subscribe _ _ | follow _ _ | deliver _ _ =>
      exact .of_same rfl (fun _ hp ↦ hp) (fun _ hx ↦ hx) (fun hr ↦ hr) fun _ ↦ List.prefix_rfl

/-! ## The handler of a subscription -/

/-- A handler that goes on is served like those that wait. -/
theorem served_advance {u : Subscription} {phase : Phase} {n : ℕ}
    (hkeep : ∀ u' ∈ s.subscriptions, ∀ poolId, u'.trip = .shared poolId →
      Serves net (s'.advance u phase n) u' poolId)
    (hsub : s'.subscriptions = s.subscriptions)
    (hu : ∀ poolId, u.trip = .shared poolId →
      Serves net (s'.advance u phase n) { u with phase, since := n } poolId) :
    Served net (s'.advance u phase n) := by
  intro u' hu' poolId ht
  rcases List.mem_cons.mp hu' with rfl | hu'
  · exact hu poolId ht
  · exact hkeep u' (hsub ▸ List.mem_of_mem_erase hu') poolId ht

/-- **The order of the handler pays off**: after every event, every subscription of a pool is
still served. -/
theorem served_next {e : Event} (hi : PoolsInv s.db) (hs : Served net s) (ha : Allowed net s e) :
    Served net (next net dist s e) := by
  have hk : Keeps s (next net dist s e) := keeps_next hi hs ha
  have hkeep : ∀ u ∈ s.subscriptions, ∀ poolId, u.trip = .shared poolId →
      Serves net (next net dist s e) u poolId := fun u hu poolId ht ↦ (hs u hu poolId ht).keeps hk
  cases e with
  | subscribe socket trip =>
      intro u hu poolId ht
      rcases List.mem_cons.mp hu with rfl | hu
      · obtain rfl : trip = .shared poolId := ht
        exact ⟨ha, fun h ↦ absurd rfl h, fun h ↦ absurd rfl h, fun _ h ↦ (by cases h),
          fun h ↦ (by cases h)⟩
      · exact hkeep u hu poolId ht
  | join u =>
      refine served_advance hkeep rfl fun poolId ht ↦ ?_
      refine ⟨(hkeep u ha.1 poolId ht).member, fun _ ↦ ?_, fun _ ↦ Nat.le_refl _,
        fun _ h ↦ (by cases h), fun h ↦ (by cases h)⟩
      refine List.mem_append_left _ (List.mem_map_of_mem ?_)
      rw [ht]
      exact List.mem_cons_self
  | readSnapshot u =>
      unfold next at hkeep ⊢
      dsimp only at hkeep ⊢
      split at hkeep
      · exact fun u' hu' ↦ hkeep u' (List.mem_of_mem_erase hu')
      · rename_i m hm
        refine served_advance hkeep rfl fun poolId ht ↦ ?_
        have hp : u.phase ≠ .allowed := by simp [ha.2]
        have hu := hkeep u ha.1 poolId ht
        refine ⟨hu.member, fun _ ↦ hu.room hp, fun _ ↦ hu.since hp, fun m' hm' ↦ Or.inl ?_,
          fun h ↦ (by cases h)⟩
        obtain rfl := Phase.read.inj hm'
        rw [ht] at hm
        obtain ⟨snap, hread, rfl⟩ := Option.map_eq_some_iff.mp hm
        obtain ⟨row, hrow, hsnap⟩ := poolSnapshot_eq_some hread
        exact ⟨row, hrow, congrArg some hsnap⟩
  | emitSnapshot u m =>
      refine served_advance hkeep rfl fun poolId ht ↦ ?_
      have hp : u.phase ≠ .allowed := by simp [ha.2]
      have hu := hkeep u ha.1 poolId ht
      refine ⟨hu.member, fun _ ↦ hu.room hp, fun _ ↦ hu.since hp, fun _ h ↦ (by cases h), fun _ ↦ ?_⟩
      rcases hu.read m ha.2 with ⟨row, hrow, hm⟩ | hway
      · intro row' hrow'
        obtain rfl := Option.some.inj (hrow.symm.trans hrow')
        refine Or.inr (Or.inr ⟨m, ?_, hm⟩)
        show m ∈ (Function.update s.sent u.socket _ u.socket).drop u.since
        rw [Function.update_self,
          List.drop_append_of_le_length ((hs u ha.1 poolId ht).since hp)]
        exact List.mem_append_right _ (List.mem_singleton_self _)
      · exact hway
  | _ => exact hkeep

end Exec

end Rcab.Realtime
