import Rcab.Pools.Machine
import Rcab.Trips.RefinePools
import Mathlib.Logic.Relation

/-!
# The pools' transactions as steps of the pool machine

`db.poolView id` is pool `id` as the machine sees it.  For each transaction, every pool's
view goes through steps of the machine (`PoolSim`): the transaction's own pool through one or
two, the others through none.
-/

universe u

namespace Rcab

open Dispatch Matching
open Relation (ReflTransGen)

/-- Pool `id`, and nothing else. -/
def Db.poolView (db : Db) (id : PoolId) : PoolView where
  row := db.sharedRides.get id
  members := db.poolMember.filter fun m ↦ m.poolId = id
  stops := db.rideStops.filter fun s ↦ s.rideId = id
  dispatch := {g | (db.outbox.get ⟨.poolDispatchRequested, id, g⟩).isSome}
  expire := {g | (db.outbox.get ⟨.poolExpireSchedule, id, g⟩).isSome}

/-- `pool_member_one_active_pool`: a passenger has one active seat over all pools. -/
def ActiveOnce (db : Db) : Prop :=
  db.poolMember.UniqueOn (fun m ↦ m.active = true) PoolMember.passengerId

/-- What a transaction did is within the machine, for every pool, and leaves no passenger
with two active seats. -/
structure PoolSim (db db' : Db) : Prop where
  steps : ∀ id, ReflTransGen PoolStep (db.poolView id) (db'.poolView id)
  activeOnce : ActiveOnce db → ActiveOnce db'

namespace PoolSim

variable {db db' db'' : Db}

theorem refl : PoolSim db db := ⟨fun _ ↦ .refl, id⟩

theorem trans (h : PoolSim db db') (h' : PoolSim db' db'') : PoolSim db db'' :=
  ⟨fun id ↦ (h.steps id).trans (h'.steps id), h'.activeOnce ∘ h.activeOnce⟩

/-- A transaction that leaves the pools alone. -/
theorem of_eq (hm : db'.poolMember = db.poolMember)
    (h : ∀ id, db'.poolView id = db.poolView id) : PoolSim db db' where
  steps id := h id ▸ .refl
  activeOnce ha := by rwa [ActiveOnce, hm]

/-- A transaction that is one step of one pool. -/
theorem of_step (poolId : PoolId) (h : PoolStep (db.poolView poolId) (db'.poolView poolId))
    (hne : ∀ id, id ≠ poolId → db'.poolView id = db.poolView id)
    (ha : ActiveOnce db → ActiveOnce db') : PoolSim db db' where
  steps id := by
    by_cases hid : id = poolId
    · exact hid ▸ .single h
    · exact hne id hid ▸ .refl
  activeOnce := ha

/-- What every step of the machine keeps is kept for every pool. -/
theorem keeps {P : PoolView → Prop} (h : PoolSim db db')
    (hP : ∀ v v', PoolStep v v' → P v → P v') (id : PoolId) (hi : P (db.poolView id)) :
    P (db'.poolView id) := by
  have : ∀ v, ReflTransGen PoolStep (db.poolView id) v → P v := by
    intro v hv
    induction hv with
    | refl => exact hi
    | tail _ hst ih => exact hP _ _ hst ih
  exact this _ (h.steps id)

end PoolSim

/-- The members of every pool are released at most, so none becomes active. -/
theorem ActiveOnce.updatePool {db : Db} {now : Time} {poolId : PoolId}
    {f : SharedRide → SharedRide} (hf : ∀ s, (f s).rideId = s.rideId) (h : ActiveOnce db) :
    ActiveOnce (db.updatePool now poolId f hf) :=
  Table.UniqueOn.update (PoolMember.release_pkey now) h fun _ _ _ ha ↦ by cases ha

/-! ## Views -/

section Views

variable {db : Db} {id poolId : PoolId} {now : Time} {f : SharedRide → SharedRide}
  {hf : ∀ s, (f s).rideId = s.rideId}

/-- An update of another pool is not seen. -/
theorem poolView_updatePool_ne (h : id ≠ poolId) :
    (db.updatePool now poolId f hf).poolView id = db.poolView id := by
  have hrow : (db.updatePool now poolId f hf).sharedRides.get id = db.sharedRides.get id :=
    Table.get_update_key (fun s ↦ by simp [hf]) (fun _ hs ↦ hs) h
  have hmem : ((db.updatePool now poolId f hf).poolMember.filter fun m ↦ m.poolId = id) =
      db.poolMember.filter fun m ↦ m.poolId = id :=
    Table.filter_update_of_not (PoolMember.release_pkey now) (fun _ _ _ ↦ Iff.rfl)
      fun m _ hm hrel ↦ h (hm.symm.trans hrel.1)
  simp only [Db.poolView, hrow, hmem]
  rfl

/-- An update that does not end the pool is seen in its row. -/
theorem poolView_updatePool_live {s : SharedRide} (hs : db.sharedRides.get poolId = some s)
    (hlive : (f s).poolState.Terminal → s.poolState = (f s).poolState) :
    (db.updatePool now poolId f hf).poolView poolId =
      { db.poolView poolId with row := some ((f s).withVersion (s.stateVersion + 1)) } := by
  have hrow : (db.updatePool now poolId f hf).sharedRides.get poolId =
      some ((f s).withVersion (s.stateVersion + 1)) := Db.get_sharedRides_updatePool hs
  have hmem : ((db.updatePool now poolId f hf).poolMember.filter fun m ↦ m.poolId = poolId) =
      db.poolMember.filter fun m ↦ m.poolId = poolId := by
    refine Table.filter_update_of_not (PoolMember.release_pkey now) (fun _ _ _ ↦ Iff.rfl) ?_
    rintro m - - ⟨-, -, s', hs', hid, ht, hne⟩
    obtain rfl : s' = s :=
      Table.unique hs' (Table.mem_of_get hs) (hid.trans (Table.key_of_get hs).symm)
    exact hne (hlive ht)
  simp only [Db.poolView, hrow, hmem]
  rfl

/-- An update that ends the pool releases its members. -/
theorem poolView_updatePool_over (hf : ∀ s, (f s).rideId = s.rideId) {s : SharedRide}
    (hs : db.sharedRides.get poolId = some s)
    (ht : (f s).poolState.Terminal) (hne : s.poolState ≠ (f s).poolState) :
    (db.updatePool now poolId f hf).poolView poolId =
      { db.poolView poolId with
        row := some ((f s).withVersion (s.stateVersion + 1))
        members := releaseAll now (db.poolView poolId).members } := by
  have hrow : (db.updatePool now poolId f hf).sharedRides.get poolId =
      some ((f s).withVersion (s.stateVersion + 1)) := Db.get_sharedRides_updatePool hs
  have hmem : ((db.updatePool now poolId f hf).poolMember.filter fun m ↦ m.poolId = poolId) =
      releaseAll now (db.poolMember.filter fun m ↦ m.poolId = poolId) := by
    refine (Table.filter_update (PoolMember.release_pkey now) fun _ _ _ ↦ Iff.rfl).trans
      (List.map_congr_left fun m hm ↦ ?_)
    have hany : db.sharedRides.Any fun s ↦
        s.rideId = poolId ∧ (f s).poolState.Terminal ∧ s.poolState ≠ (f s).poolState :=
      ⟨s, Table.mem_of_get hs, Table.key_of_get hs, ht, hne⟩
    have hpool : m.poolId = poolId := (Table.mem_filter.mp hm).2
    by_cases ha : m.active
    · rw [if_pos ⟨hpool, ha, hany⟩, if_pos ha]
    · rw [if_neg fun hrel ↦ ha hrel.2.1, if_neg ha]
  simp only [Db.poolView, hrow, hmem]
  rfl

/-- An update of one pool that is a step of it. -/
theorem poolSim_updatePool (hf : ∀ s, (f s).rideId = s.rideId)
    (h : PoolStep (db.poolView poolId) ((db.updatePool now poolId f hf).poolView poolId)) :
    PoolSim db (db.updatePool now poolId f hf) :=
  .of_step poolId h (fun _ hne ↦ poolView_updatePool_ne hne) fun ha ↦ ha.updatePool hf

/-- An intent of the rides is not seen. -/
theorem poolView_enqueueOutbox_ride {t : TxClock} {m : Outbox.OutboxMessage}
    (h : Outbox.topicOf m.payload ≠ .poolDispatchRequested)
    (h' : Outbox.topicOf m.payload ≠ .poolExpireSchedule) :
    (Outbox.enqueueOutbox t db m).poolView id = db.poolView id := by
  have key : ∀ topic g, Outbox.topicOf m.payload ≠ topic →
      (((Outbox.enqueueOutbox t db m).outbox.get ⟨topic, id, g⟩).isSome ↔
        (db.outbox.get ⟨topic, id, g⟩).isSome) := by
    intro topic g hne
    refine Table.isSome_get_insert.trans ⟨?_, Or.inr⟩
    rintro (heq | hs)
    · exact absurd (congrArg DedupeKey.topic heq).symm hne
    · exact hs
  simp only [Db.poolView, key _ _ h, key _ _ h']
  rfl

/-- The intents of a pool after one was recorded. -/
theorem isSome_enqueueOutbox {t : TxClock} {m : Outbox.OutboxMessage} {topic : OutboxTopic}
    {g : ℕ} : ((Outbox.enqueueOutbox t db m).outbox.get ⟨topic, id, g⟩).isSome ↔
      (topic = Outbox.topicOf m.payload ∧ id = m.aggregateId ∧ g = m.generation) ∨
        (db.outbox.get ⟨topic, id, g⟩).isSome := by
  refine Table.isSome_get_insert.trans (or_congr ?_ Iff.rfl)
  simp [Outbox.OutboxMessage.row]

theorem poolView_enqueueOutbox_ne {t : TxClock} {m : Outbox.OutboxMessage}
    (h : id ≠ m.aggregateId) : (Outbox.enqueueOutbox t db m).poolView id = db.poolView id := by
  simp only [Db.poolView, isSome_enqueueOutbox, h, false_and, and_false, false_or]
  rfl

/-- A recorded dispatch intent. -/
theorem poolView_enqueueDispatch {t : TxClock} {g : ℕ} {poolId' : PoolId} {reason : PoolState} :
    (Outbox.enqueueOutbox t db
      ⟨.sharedRide, id, g, .poolDispatchRequested poolId' reason, none⟩).poolView id =
      ⟨(db.poolView id).row, (db.poolView id).members, (db.poolView id).stops,
        insert g (db.poolView id).dispatch, (db.poolView id).expire⟩ := by
  simp only [Db.poolView, isSome_enqueueOutbox, Outbox.topicOf, true_and, reduceCtorEq, false_and,
    false_or]
  rfl

/-- A recorded expiry. -/
theorem poolView_enqueueExpire {t : TxClock} {g : ℕ} {at_ : Time} :
    (Outbox.enqueueOutbox t db ⟨.sharedRide, id, g, .poolExpireSchedule at_, none⟩).poolView id =
      ⟨(db.poolView id).row, (db.poolView id).members, (db.poolView id).stops,
        (db.poolView id).dispatch, insert g (db.poolView id).expire⟩ := by
  simp only [Db.poolView, isSome_enqueueOutbox, Outbox.topicOf, true_and, reduceCtorEq, false_and,
    false_or]
  rfl

end Views

variable {t : TxClock} {db db' : Db} {poolId : PoolId}

/-! ## Open and join -/

/-- A seat taken, seen from its pool. -/
theorem poolView_insertMember {m : NewPoolMember} {pool : SharedRide}
    (hpool : db.sharedRides.get m.poolId = some pool) (hdup : duplicateOf db m = none)
    (id : PoolId) :
    (({ db with poolMember := db.poolMember.insert (m.row t.now) } : Db).updatePool t.now
        m.poolId SharedRide.seatOne SharedRide.seatOne_rideId).poolView id =
      if id = m.poolId then
        ⟨some (pool.seatOne.withVersion (pool.stateVersion + 1)),
          (db.poolView id).members ++ [m.row t.now], (db.poolView id).stops,
          (db.poolView id).dispatch, (db.poolView id).expire⟩
      else db.poolView id := by
  have hfree : db.poolMember.get (m.row t.now).pkey = none := (of_duplicateOf hdup).1
  split_ifs with hid
  · subst hid
    refine Eq.trans (poolView_updatePool_live hpool (by simp)) ?_
    have hself : (m.row t.now).poolId = m.poolId := rfl
    simp only [Db.poolView, Table.filter_insert hfree, hself, if_true]
  · rw [poolView_updatePool_ne hid]
    have : (m.row t.now).poolId ≠ id := fun h ↦ hid h.symm
    simp only [Db.poolView, Table.filter_insert hfree, this, if_false]

/-- The three unique indexes let a seat in. -/
theorem ActiveOnce.insertMember {m : NewPoolMember} (h : ActiveOnce db)
    (hdup : duplicateOf db m = none) :
    ActiveOnce (({ db with poolMember := db.poolMember.insert (m.row t.now) } : Db).updatePool t.now
      m.poolId SharedRide.seatOne SharedRide.seatOne_rideId) := by
  obtain ⟨hfree, -, hactive⟩ := of_duplicateOf hdup
  refine ActiveOnce.updatePool SharedRide.seatOne_rideId (Table.UniqueOn.insert h hfree ?_)
  rintro _ ⟨r, hr, hact, hp⟩
  exact hactive r hr hp hact

theorem poolSim_insertMember {m : NewPoolMember} {r : InsertMemberResult}
    (h : insertMember t db m = .ok (db', r)) : PoolSim db db' := by
  rcases insertMember_eq_ok h with ⟨-, rfl⟩ | ⟨pool, hpool, ho, -, hcap, hdup, -, rfl⟩
  · exact .refl
  refine .of_step m.poolId ?_ (fun id hne ↦ ?_) fun ha ↦ ha.insertMember hdup
  · rw [poolView_insertMember hpool hdup, if_pos rfl]
    exact .joined pool _ hpool ho hcap rfl
  · rw [poolView_insertMember hpool hdup, if_neg hne]

theorem poolView_completeSeat {dateNow : Time} {i : Option SeatIdempotency} {o : SeatOutcome}
    (id : PoolId) : (completeSeat dateNow db i o).poolView id = db.poolView id := by
  cases i <;> rfl

theorem poolMember_completeSeat {dateNow : Time} {i : Option SeatIdempotency} {o : SeatOutcome} :
    (completeSeat dateNow db i o).poolMember = db.poolMember := by
  cases i <;> rfl

section Close

variable {D : Type u} [LinearOrder D] {dist : Point → Point → D}

theorem poolView_insertPool {row : SharedRide} (hfree : db.sharedRides.get row.rideId = none)
    (id : PoolId) :
    ({ db with sharedRides := db.sharedRides.insert row } : Db).poolView id =
      if id = row.rideId then
        ⟨some row, (db.poolView id).members, (db.poolView id).stops, (db.poolView id).dispatch,
          (db.poolView id).expire⟩
      else db.poolView id := by
  simp only [Db.poolView, Table.get_insert hfree]
  split_ifs <;> rfl

/-- A pool opened with its first member is one step. -/
theorem poolSim_openPool {p : OpenPoolParams} {r : OpenPoolResult}
    (h : openPool dist t db p = .ok (db', r)) : PoolSim db db' := by
  rcases openPool_cases h with ⟨-, rfl⟩ | ⟨db₁, at_, quote, db₂, n, outcome, h₁, h₂, -, -, rfl⟩
  · exact .refl
  obtain ⟨row, hid, ho, hn, -, -, hg, hd, hfree, rfl⟩ := insertOpenPool_eq_ok h₁
  have hid : row.rideId = p.poolId := hid
  rcases insertMember_eq_ok h₂ with ⟨⟨_, _, hr⟩, -⟩ | ⟨pool, hpool, -, -, hcap, hdup, -, rfl⟩
  · cases hr
  obtain rfl : row = pool := by
    have hpool : (db.sharedRides.insert row).get p.poolId = some pool := hpool
    rw [Table.get_insert hfree, if_pos hid.symm, Option.some.injEq] at hpool
    exact hpool
  refine .of_step p.poolId ?_ (fun id hne ↦ ?_) fun ha ↦ ?_
  · have hseat : row.seatOne.seatCount = 1 := by
      have hcap : row.seatCount + 1 ≤ row.maxSeats := hcap
      rw [SharedRide.seatOne, dif_pos hcap]
      show row.seatCount + 1 = 1
      rw [hn]
    rw [poolView_completeSeat, poolView_enqueueExpire, poolView_insertMember hpool hdup,
      if_pos rfl, poolView_insertPool hfree, if_pos hid.symm]
    refine .opened _ _ ?_ (by simpa using ho) hseat (by simpa using hg) (by simpa using hd) rfl
    show db.sharedRides.get p.poolId = none
    rw [← hid]
    exact hfree
  · rw [poolView_completeSeat, poolView_enqueueOutbox_ne hne, poolView_insertMember hpool hdup,
      if_neg hne, poolView_insertPool hfree, if_neg (hid ▸ hne)]
  · have hpools : ActiveOnce { db with sharedRides := db.sharedRides.insert row } := ha
    rw [ActiveOnce, poolMember_completeSeat]
    exact hpools.insertMember hdup

/-- The rows of a persisted itinerary. -/
theorem insertItinerary_rows {stops : List OfferStop} {u : Unit} (id : PoolId)
    (h : insertItinerary db poolId stops = .ok (db', u)) :
    (db'.rideStops.filter fun s ↦ s.rideId = id) =
      (db.rideStops.filter fun s ↦ s.rideId = id) ++
        if id = poolId then stops.map (stopRow poolId) else [] := by
  induction stops generalizing db with
  | nil =>
      obtain ⟨rfl, -⟩ := Tx.ok_inj h
      simp
  | cons s stops ih =>
      simp only [insertItinerary] at h
      split_ifs at h with hfree
      rw [Bool.not_eq_true, Option.isSome_eq_false_iff, Option.isNone_iff_eq_none] at hfree
      rw [ih h, Table.filter_insert hfree]
      have hid : (stopRow poolId s).rideId = poolId := rfl
      by_cases hne : id = poolId
      · simp [hid, hne]
      · have : ¬ poolId = id := fun h ↦ hne h.symm
        simp [hid, hne, this]

theorem poolView_insertItinerary {stops : List OfferStop} {u : Unit}
    (h : insertItinerary db poolId stops = .ok (db', u)) (id : PoolId) :
    db'.poolView id = ⟨(db.poolView id).row, (db.poolView id).members,
      (db.poolView id).stops ++ (if id = poolId then stops.map (stopRow poolId) else []),
      (db.poolView id).dispatch, (db.poolView id).expire⟩ := by
  have hrows := insertItinerary_rows id h
  obtain ⟨rideStops, rfl⟩ := insertItinerary_eq_ok h
  simp only [Db.poolView, ← hrows]

/-- The passengers `listMembers` names are those of the pool's rows. -/
theorem listMembers_passengers (db : Db) (poolId : PoolId) :
    ((listMembers db poolId).map SharedRideMember.passengerId).Perm
      ((db.poolView poolId).members.map PoolMember.passengerId) := by
  rw [listMembers, List.map_map]
  exact (List.perm_insertionSort MemberOrder _).map _

/-- A close is one step: generation, itinerary and intent together. -/
theorem poolSim_closeInTxn {pool : SharedRide} {reason : CloseReason} {g : Option ℕ}
    (h : closeInTxn dist t db pool reason = .ok (db', g))
    (hn : ∀ s, db.sharedRides.get pool.rideId = some s → s.seatCount ≠ 0) : PoolSim db db' := by
  rcases closeInTxn_cases h with ⟨rfl, -, -⟩ | ⟨s, _, u, db₁, hs, ho, -, rfl, h₁, rfl⟩
  · exact .refl
  have hlive : (s.close reason.state t.now).poolState.Terminal →
      s.poolState = (s.close reason.state t.now).poolState := by
    cases reason <;> exact False.elim
  refine .of_step pool.rideId ?_ (fun id hne ↦ ?_) fun ha ↦ ?_
  · rw [poolView_enqueueDispatch, poolView_insertItinerary h₁, if_pos rfl,
      poolView_updatePool_live hs hlive]
    refine .closed s reason t.now _ hs ho (hn s hs) ?_ ?_
    · have hplan : ∀ stops : List OfferStop,
          (stops.map (stopRow pool.rideId)).map RideStop.plan = stops := by
        intro stops
        simp [Function.comp_def]
      rw [hplan]
      refine (computeStops_isItinerary dist _).perm ((listMembers_passengers _ _).trans ?_)
      rw [poolView_updatePool_live hs hlive]
    · intro x hx
      obtain ⟨s, -, rfl⟩ := List.mem_map.mp hx
      rfl
  · rw [poolView_enqueueOutbox_ne hne, poolView_insertItinerary h₁, if_neg hne,
      poolView_updatePool_ne hne, List.append_nil]
  · obtain ⟨rideStops, rfl⟩ := insertItinerary_eq_ok h₁
    exact ha.updatePool (SharedRide.close_rideId reason.state t.now)

theorem poolSim_closeWhenFull {pool : SharedRide} {n : ℕ} {b : Bool}
    (h : closeWhenFull dist t db pool n = .ok (db', b))
    (hn : ∀ s, db.sharedRides.get pool.rideId = some s → s.seatCount ≠ 0) : PoolSim db db' := by
  rcases closeWhenFull_cases h with ⟨-, rfl, -⟩ | ⟨-, g, h₁, -⟩
  · exact .refl
  · exact poolSim_closeInTxn h₁ hn

theorem poolSim_completeSeat {dateNow : Time} {i : Option SeatIdempotency} {o : SeatOutcome} :
    PoolSim db (completeSeat dateNow db i o) :=
  .of_eq poolMember_completeSeat poolView_completeSeat

/-- After a seat was taken the pool is not empty. -/
theorem seatCount_insertMember {m : NewPoolMember} {n : ℕ}
    (h : insertMember t db m = .ok (db', .ok n)) :
    ∀ s, db'.sharedRides.get m.poolId = some s → s.seatCount ≠ 0 := by
  rcases insertMember_eq_ok h with ⟨⟨_, _, hr⟩, -⟩ | ⟨pool, hpool, -, -, hcap, -, -, rfl⟩
  · cases hr
  intro s hs
  rw [Db.get_sharedRides_updatePool (by exact hpool)] at hs
  obtain rfl := Option.some.inj hs
  show pool.seatOne.seatCount ≠ 0
  rw [SharedRide.seatOne, dif_pos hcap]
  exact Nat.succ_ne_zero _

/-- A join takes a seat, and may then close the pool. -/
theorem poolSim_joinPool {p : JoinPoolParams} {r : JoinPoolResult}
    (h : joinPool dist t db p = .ok (db', r)) : PoolSim db db' := by
  rcases joinPool_cases h with
    ⟨-, rfl⟩ | ⟨pool, quote, db₁, n, db₂, closedFull, outcome, hpool, -, -, h₁, h₂, -, -, rfl⟩
  · exact .refl
  have hid : pool.rideId = p.poolId := Table.key_of_get hpool
  have hn : ∀ s, db₁.sharedRides.get pool.rideId = some s → s.seatCount ≠ 0 :=
    hid ▸ seatCount_insertMember h₁
  exact ((poolSim_insertMember h₁).trans (poolSim_closeWhenFull h₂ hn)).trans poolSim_completeSeat

/-- A timeout closes an open pool that has members, and retires one that has none. -/
theorem poolSim_closeIfOpen {r : CloseIfOpenResult}
    (h : closeIfOpen dist t db poolId = .ok (db', r)) : PoolSim db db' := by
  obtain ⟨rfl, -⟩ | ⟨pool, hget, ho, ⟨hc, -, rfl⟩ | ⟨hc, g, h₁, -⟩⟩ := closeIfOpen_eq_ok h
  · exact .refl
  · refine poolSim_updatePool (SharedRide.retire_rideId t.now) ?_
    rw [poolView_updatePool_over (SharedRide.retire_rideId t.now) hget trivial (by simp [ho])]
    exact .retired pool _ t.now hget ho hc rfl ⟨rfl, rfl, rfl, rfl, Nat.lt_succ_self _⟩
  · refine poolSim_closeInTxn h₁ fun s hs ↦ ?_
    rw [Table.key_of_get hget, hget, Option.some.injEq] at hs
    exact hs ▸ hc

end Close

end Rcab
