import Rcab.Dispatch.Candidates
import Rcab.Lib.Run
import Rcab.Outbox.Timers

/-!
# Delivering a wave again

A wave does not count the drivers it offered when it runs again, so it looks past them and offers
the trip to the next ones.  Running it again changes nothing exactly if there are no next ones and
its timers are still there (`redelivered_iff`).
-/

universe u

namespace Rcab.Dispatch

open Outbox (Queue Backend JobId JobData createOffer_ne_error offerEach_ok)

/-! ## The wave of a trip -/

namespace LockedTrip

def ref : LockedTrip → TripRef
  | .ride r => .solo r.id
  | .pool s => .shared s.rideId

def origin : LockedTrip → Point
  | .ride r => r.origin
  | .pool s => s.origin

/-- The seats a driver has to have. -/
def waveSeats : LockedTrip → ℕ
  | .ride _ => 1
  | .pool s => s.seatCount

def scheduled : LockedTrip → Bool
  | .ride r => r.type = .scheduled
  | .pool _ => false

/-- A pool is offered with its itinerary. -/
def Offerable (db : Db) : LockedTrip → Prop
  | .ride _ => True
  | .pool s => 1 ≤ s.seatCount ∧ (Matching.findByRideId db s.rideId).length = 2 * s.seatCount

instance {db : Db} : DecidablePred (Offerable db) := fun
  | .ride _ => inferInstanceAs (Decidable True)
  | .pool _ => inferInstanceAs (Decidable (_ ∧ _))

end LockedTrip

/-- `runSoloWave` or `runPoolWave`. -/
def runTripWave (env : WaveEnv) (b : Backend) (trip : LockedTrip) (wave : WaveNumber) (g : ℕ) :
    Backend × Except TxError Unit :=
  match trip with
  | .ride r => runSoloWave env b r wave g
  | .pool s => runPoolWave env b s wave g

/-- Whom the wave asks. -/
def waveCandidates (env : WaveEnv) (db : Db) (trip : LockedTrip) (wave : WaveNumber) (g : ℕ) :
    List DriverId :=
  if trip.Offerable db then
    selectCandidates env db trip.ref g trip.origin (env.params.waveParams wave).1
      (env.params.waveParams wave).2 trip.waveSeats
  else []

/-- The queue after the wave. -/
def waveQueue (env : WaveEnv) (q : Queue) (trip : LockedTrip) (wave : WaveNumber) (g : ℕ) : Queue :=
  if wave = .one then scheduleTimers env.params q trip.ref g trip.scheduled else q

section Wave

variable {env : WaveEnv} {b : Backend} {trip : LockedTrip} {wave : WaveNumber} {g : ℕ} {q : Queue}

theorem WaveNumber.one_le (wave : WaveNumber) : 1 ≤ wave.toNat := by
  cases wave <;> decide

theorem runWave_eq (env : WaveEnv) (b : Backend) (trip : TripRef) (hg : 1 ≤ g) (wave : WaveNumber)
    (scheduled : Bool) (candidates : List DriverId) :
    runWave env b trip g wave scheduled candidates =
      (⟨(offerEach env.call trip g wave.toNat candidates b.db).1,
        if wave = .one then scheduleTimers env.params b.queue trip g scheduled else b.queue⟩,
        .ok ()) := by
  have hok := offerEach_ok env.call trip hg wave.one_le candidates b.db
  unfold runWave
  split
  · rename_i db e h
    rw [h] at hok
    cases hok
  · rename_i db h
    rw [h]
    split_ifs <;> rfl

theorem runTripWave_eq (env : WaveEnv) (b : Backend) (trip : LockedTrip) (wave : WaveNumber)
    (hg : 1 ≤ g) : runTripWave env b trip wave g =
      (⟨(offerEach env.call trip.ref g wave.toNat (waveCandidates env b.db trip wave g) b.db).1,
        waveQueue env b.queue trip wave g⟩, .ok ()) := by
  have hpos : ¬ g < 1 := by omega
  cases trip with
  | ride r =>
    simp only [runTripWave, runSoloWave, if_neg hpos, runWave_eq env b _ hg]
    rfl
  | pool s =>
    have hcond : (s.seatCount < 1 ∨ (Matching.findByRideId b.db s.rideId).length ≠ 2 * s.seatCount)
        ↔ ¬ (LockedTrip.pool s).Offerable b.db := by
      simp only [LockedTrip.Offerable]
      omega
    simp only [runTripWave, runPoolWave, if_neg hpos, runWave_eq env b _ hg, hcond, ite_not]
    rfl

/-- A wave that completes has a generation. -/
theorem generation_of_completes {b' : Backend} (h : runTripWave env b trip wave g = (b', .ok ())) :
    1 ≤ g := by
  by_contra hg
  have hlt : g < 1 := by omega
  cases trip <;> simp only [runTripWave, runSoloWave, runPoolWave, if_pos hlt] at h <;>
    cases (Prod.mk.inj h).2

theorem db_of_completes {b' : Backend} (h : runTripWave env b trip wave g = (b', .ok ())) :
    b'.db = (offerEach env.call trip.ref g wave.toNat (waveCandidates env b.db trip wave g)
      b.db).1 := by
  rw [runTripWave_eq env b trip wave (generation_of_completes h)] at h
  exact congrArg Backend.db (Prod.mk.inj h).1.symm

/-- The timers of the trip's generation hold their ids. -/
def TimersHeld (q : Queue) (trip : TripRef) (g : ℕ) : Prop :=
  (q (.wave2 trip g)).isSome ∧ (q (.hardFail trip g)).isSome

theorem add_eq_self {id : JobId} {data : JobData} {delay : Int} :
    q.add id data delay = q ↔ (q id).isSome := by
  constructor
  · intro h
    by_contra hnone
    rw [Queue.add, if_neg hnone] at h
    have hid := congrFun h id
    rw [Function.update_self] at hid
    exact hnone (hid ▸ rfl)
  · exact fun h ↦ if_pos h

theorem isSome_add_self (q : Queue) (id : JobId) (data : JobData) (delay : Int) :
    (q.add id data delay id).isSome := by
  unfold Queue.add
  split_ifs with h
  · exact h
  · rw [Function.update_self]
    rfl

/-- Timers that are held are not added again. -/
theorem scheduleTimers_eq_self {params : DispatchParams} {trip : TripRef} {scheduled : Bool} :
    scheduleTimers params q trip g scheduled = q ↔ TimersHeld q trip g := by
  simp only [scheduleTimers]
  generalize (if scheduled then (params.scheduled.waveOneMs, params.scheduled.hardFailMs)
    else (params.waveOneTimeoutMs, params.hardFailMs)) = delays
  constructor
  · intro h
    have hne : JobId.wave2 trip g ≠ .hardFail trip g := JobId.noConfusion
    have h2 : (q (.wave2 trip g)).isSome := by
      have hadded := isSome_add_self q (.wave2 trip g) (.waveTimeout trip 2 (some g)) delays.1
      rw [← h]
      unfold Queue.add at hadded ⊢
      split_ifs at hadded ⊢ <;> simpa only [Function.update_of_ne hne] using hadded
    rw [add_eq_self.mpr h2] at h
    exact ⟨h2, add_eq_self.mp h⟩
  · rintro ⟨h2, hh⟩
    rw [add_eq_self.mpr h2, add_eq_self.mpr hh]

end Wave

/-! ## The offers of a wave -/

def waveOffers (db : Db) (trip : TripRef) (g w : ℕ) : List DispatchOffer :=
  db.dispatchOffer.filter fun o ↦ o.trip = trip ∧ o.dispatchGeneration = g ∧ o.waveNumber = w

/-- Nothing stands in the way of offering the trip to the driver. -/
structure Unasked (db : Db) (trip : TripRef) (g : ℕ) (call : OfferCall) (d : DriverId) : Prop where
  fresh : ∀ o ∈ db.dispatchOffer, o.id ≠ call.newId
  free : ∀ o ∈ db.dispatchOffer, o.driverId = d → Live o → o.expiresAt ≤ call.t.clockTimestamp
  notOffered : d ∉ offeredDriverIds db trip g
  unlocked : call.locked = []

/-- The database after the offer. -/
def offeredTo (db : Db) (trip : TripRef) (g w : ℕ) (call : OfferCall) (d : DriverId) : Db :=
  let expired := expireLapsedOf call.t.clockTimestamp db d []
  { expired with
    dispatchOffer := expired.dispatchOffer.insert
      (CreateOffer.row ⟨trip, d, g, w, offerTtlMs⟩ call.t call.newId) }

section Offers

variable {db : Db} {trip : TripRef} {g w : ℕ} {call : OfferCall} {d d' : DriverId}

theorem mem_expireLapsedOf {clock : Time} {locked : List OfferId} {o : DispatchOffer}
    (h : o ∈ (expireLapsedOf clock db d locked).dispatchOffer) :
    ∃ a ∈ db.dispatchOffer, a.id = o.id ∧ a.trip = o.trip ∧
      a.dispatchGeneration = o.dispatchGeneration ∧ a.driverId = o.driverId := by
  obtain ⟨a, ha, rfl⟩ := (@Table.mem_update _ _ _ _ _ _ _ (resolve_id clock .expired) _).mp h
  refine ⟨a, ha, ?_⟩
  split_ifs <;> exact ⟨rfl, rfl, rfl, rfl⟩

/-- What can still be accepted was not expired. -/
theorem mem_of_live_expireLapsedOf {clock : Time} {o : DispatchOffer}
    (h : o ∈ (expireLapsedOf clock db d []).dispatchOffer) (hl : Live o) :
    o ∈ db.dispatchOffer ∧ (o.driverId = d → clock < o.expiresAt) := by
  obtain ⟨a, ha, rfl⟩ := (@Table.mem_update _ _ _ _ _ _ _ (resolve_id clock .expired) _).mp h
  split_ifs at hl ⊢ with hp
  · cases hl
  · refine ⟨ha, fun hd ↦ ?_⟩
    by_contra hlapsed
    exact hp ⟨hl, hd, not_lt.mp hlapsed, List.not_mem_nil⟩

/-- Expiring an offer leaves its trip and driver. -/
theorem filter_expireLapsedOf (db : Db) (d : DriverId) (clock : Time) (q : DispatchOffer → Prop)
    [DecidablePred q] (hq : ∀ o, q (resolve clock .expired o) ↔ q o) :
    ∃ f : DispatchOffer → DispatchOffer, (∀ o, (f o).driverId = o.driverId) ∧
      (expireLapsedOf clock db d []).dispatchOffer.filter q =
        (db.dispatchOffer.filter q).map f := by
  refine ⟨_, fun o ↦ ?_, Table.filter_update (resolve_id clock .expired) fun o _ _ ↦ hq o⟩
  split_ifs <;> rfl

theorem Unasked.get_eq_none (h : Unasked db trip g call d) :
    (expireLapsedOf call.t.clockTimestamp db d []).dispatchOffer.get call.newId = none := by
  refine Table.get_eq_none.mpr fun o ho ↦ ?_
  obtain ⟨a, ha, hid, -⟩ := mem_expireLapsedOf ho
  exact hid ▸ h.fresh a ha

theorem createOffer_unasked (hd : Dispatchable db trip g) (hg : 1 ≤ g) (hw : 1 ≤ w)
    (h : Unasked db trip g call d) :
    ∃ created, createOffer call.t db call.newId call.locked ⟨trip, d, g, w, offerTtlMs⟩ =
      .ok (offeredTo db trip g w call d, created) := by
  have hconflict : ¬ OfferConflict (expireLapsedOf call.t.clockTimestamp db d [])
      (CreateOffer.row ⟨trip, d, g, w, offerTtlMs⟩ call.t call.newId) := by
    rintro ⟨o, ho, hid | ⟨hlive, hdriver⟩ | ⟨htrip, hgen, hdriver⟩⟩
    · exact Table.get_eq_none.mp h.get_eq_none o ho hid
    · obtain ⟨hmem, hlapse⟩ := mem_of_live_expireLapsedOf ho hlive
      exact absurd (hlapse hdriver) (not_lt.mpr (h.free o hmem hdriver hlive))
    · obtain ⟨a, ha, -, htrip', hgen', hdriver'⟩ := mem_expireLapsedOf ho
      refine h.notOffered (List.mem_map.mpr ⟨a, Table.mem_filter.mpr ⟨ha, ?_⟩, ?_⟩)
      · exact ⟨htrip'.trans htrip, hgen'.trans hgen⟩
      · exact hdriver'.trans hdriver
  refine ⟨some ⟨call.newId, call.t.now + max 1 offerTtlMs⟩, ?_⟩
  rw [h.unlocked]
  simp only [createOffer, hd, not_true_eq_false, if_false, Nat.not_lt.mpr hg, Nat.not_lt.mpr hw,
    hconflict]
  rfl

theorem offeredDriverIds_offeredTo (h : Unasked db trip g call d) :
    offeredDriverIds (offeredTo db trip g w call d) trip g = offeredDriverIds db trip g ++ [d] := by
  obtain ⟨f, hf, hfilter⟩ := filter_expireLapsedOf db d call.t.clockTimestamp
    (fun o ↦ o.trip = trip ∧ o.dispatchGeneration = g) fun _ ↦ Iff.rfl
  unfold offeredDriverIds
  rw [offeredTo, Table.filter_insert h.get_eq_none, if_pos ⟨rfl, rfl⟩, hfilter, List.map_append,
    List.map_map]
  congr 1
  exact List.map_congr_left fun o _ ↦ hf o

theorem length_waveOffers_offeredTo (h : Unasked db trip g call d) :
    (waveOffers (offeredTo db trip g w call d) trip g w).length =
      (waveOffers db trip g w).length + 1 := by
  obtain ⟨f, -, hfilter⟩ := filter_expireLapsedOf db d call.t.clockTimestamp
    (fun o ↦ o.trip = trip ∧ o.dispatchGeneration = g ∧ o.waveNumber = w) fun _ ↦ Iff.rfl
  unfold waveOffers
  rw [offeredTo, Table.filter_insert h.get_eq_none, if_pos ⟨rfl, rfl, rfl⟩, hfilter,
    List.length_append, List.length_map]
  rfl

/-- Another driver can still be asked. -/
theorem Unasked.offeredTo {call' : OfferCall} (h : Unasked db trip g call d)
    (h' : Unasked db trip g call' d') (hne : d' ≠ d) (hid : call'.newId ≠ call.newId) :
    Unasked (offeredTo db trip g w call d) trip g call' d' where
  fresh o ho := by
    rcases (Table.mem_insert h.get_eq_none).mp ho with ho | rfl
    · obtain ⟨a, ha, hid, -⟩ := mem_expireLapsedOf ho
      exact hid ▸ h'.fresh a ha
    · exact hid.symm
  free o ho hdriver hlive := by
    rcases (Table.mem_insert h.get_eq_none).mp ho with ho | rfl
    · exact h'.free o (mem_of_live_expireLapsedOf ho hlive).1 hdriver hlive
    · exact absurd hdriver hne.symm
  notOffered := by
    rw [offeredDriverIds_offeredTo h, List.mem_append, List.mem_singleton]
    exact fun ho ↦ ho.elim h'.notOffered hne
  unlocked := h'.unlocked

theorem offerEach_eq (calls : DriverId → OfferCall) (trip : TripRef) (g w : ℕ) (cs : List DriverId)
    (db : Db) : (offerEach calls trip g w cs db).1 =
      { db with dispatchOffer := (offerEach calls trip g w cs db).1.dispatchOffer } := by
  induction cs generalizing db with
  | nil => rfl
  | cons d cs ih =>
    rw [offerEach]
    split
    · rfl
    · rename_i db₁ created h
      rw [ih db₁, createOffer_eq h]

/-- A trip that cannot be dispatched any more is offered to nobody. -/
theorem offerEach_of_not_dispatchable (calls : DriverId → OfferCall) (w : ℕ)
    (h : ¬ Dispatchable db trip g) (cs : List DriverId) :
    offerEach calls trip g w cs db = (db, .ok ()) := by
  induction cs with
  | nil => rfl
  | cons d cs ih => simpa only [offerEach, createOffer, h, not_false_eq_true, if_true] using ih

/-- Each driver gets an offer, if nothing stands in its way. -/
theorem offerEach_unasked {calls : DriverId → OfferCall} {cs : List DriverId}
    (hd : Dispatchable db trip g) (hg : 1 ≤ g) (hw : 1 ≤ w) (hn : cs.Nodup)
    (hid : Function.Injective fun d ↦ (calls d).newId)
    (h : ∀ d ∈ cs, Unasked db trip g (calls d) d) :
    offeredDriverIds (offerEach calls trip g w cs db).1 trip g =
        offeredDriverIds db trip g ++ cs ∧
      (waveOffers (offerEach calls trip g w cs db).1 trip g w).length =
        (waveOffers db trip g w).length + cs.length := by
  induction cs generalizing db with
  | nil => exact ⟨(List.append_nil _).symm, rfl⟩
  | cons d cs ih =>
    have hd₀ := h d List.mem_cons_self
    obtain ⟨hnot, hn⟩ := List.nodup_cons.mp hn
    obtain ⟨created, hcreate⟩ := createOffer_unasked hd hg hw hd₀
    have hrest : ∀ d' ∈ cs, Unasked (offeredTo db trip g w (calls d) d) trip g (calls d') d' := by
      intro d' hd'
      have hne : d' ≠ d := fun he ↦ hnot (he ▸ hd')
      exact hd₀.offeredTo (h d' (List.mem_cons_of_mem _ hd')) hne fun he ↦ hne (hid he)
    have hd' : Dispatchable (offeredTo db trip g w (calls d) d) trip g := by
      cases trip <;> exact hd
    obtain ⟨hids, hcount⟩ := ih hd' hn hrest
    simp only [offerEach, hcreate]
    rw [hids, hcount, offeredDriverIds_offeredTo hd₀, length_waveOffers_offeredTo hd₀,
      List.append_assoc, List.length_cons]
    exact ⟨rfl, by omega⟩

end Offers

/-! ## The candidates of a wave that runs again -/

/-- The eligible among the first `n` of the index that were not offered the generation. -/
def nearest (order : List GeoMember) (offered : List DriverId) (eligible : DriverId → Prop)
    [DecidablePred eligible] (n : ℕ) : List DriverId :=
  ((order.take n).filterMap GeoMember.uuid).filter fun d ↦ d ∉ offered ∧ eligible d

section Nearest

variable {order : List GeoMember} {offered cs : List DriverId} {eligible : DriverId → Prop}
  [DecidablePred eligible] {m n : ℕ}

theorem nearest_isPrefix (h : m ≤ n) :
    nearest order offered eligible m <+: nearest order offered eligible n :=
  ((List.take_prefix_take_left h).filterMap _).filter _

theorem nodup_nearest (hn : order.Nodup) : (nearest order offered eligible n).Nodup :=
  (nodup_filterMap_uuid (hn.sublist (List.take_sublist _ _))).filter _

theorem notMem_of_mem_nearest {d : DriverId} (h : d ∈ nearest order offered eligible n) :
    d ∉ offered ∧ eligible d := of_decide_eq_true (List.mem_filter.mp h).2

/-- Those offered in between are left out. -/
theorem nearest_append : nearest order (offered ++ cs) eligible n =
    (nearest order offered eligible n).filter (· ∉ cs) := by
  simp only [nearest, List.filter_filter]
  refine List.filter_congr fun d _ ↦ ?_
  simp only [List.mem_append, not_or, ← Bool.decide_and]
  exact decide_eq_decide.mpr (by tauto)

/-- The members whose driver was not offered the generation. -/
theorem filterMap_uuid_filter (members : List GeoMember) (offered : List DriverId) :
    (members.filter (· ∉ offered.map GeoMember.driver)).filterMap GeoMember.uuid =
      (members.filterMap GeoMember.uuid).filter (· ∉ offered) := by
  rw [List.filterMap_filter, List.filter_filterMap]
  refine List.filterMap_congr fun m _ ↦ ?_
  cases m with
  | driver d =>
    have hmem : GeoMember.driver d ∈ offered.map GeoMember.driver ↔ d ∈ offered :=
      List.mem_map_of_injective fun _ _ h ↦ GeoMember.driver.inj h
    by_cases hd : d ∈ offered <;> simp [GeoMember.uuid, hmem, hd, Option.filter]
  | other => simp [GeoMember.uuid]

theorem length_eraseDups_append (hn : cs.Nodup) (hdisj : ∀ d ∈ cs, d ∉ offered) :
    (offered ++ cs).eraseDups.length = offered.eraseDups.length + cs.length := by
  have hkeep : cs.removeAll offered = cs :=
    List.filter_eq_self.mpr fun d hd ↦ by simpa using hdisj d hd
  rw [List.eraseDups_append, hkeep, eraseDups_of_nodup hn, List.length_append]

/-- Nobody is left for a wave of `k` that asked the first `k` of the `seen` nearest. -/
def Exhausted (order : List GeoMember) (offered : List DriverId) (eligible : DriverId → Prop)
    [DecidablePred eligible] (k : ℕ) : Prop :=
  let seen := candidateHeadroom * k + offered.eraseDups.length
  let found := (nearest order offered eligible seen).length
  found ≤ k ∧ (nearest order offered eligible (seen + found)).length = found

instance {k : ℕ} : Decidable (Exhausted order offered eligible k) :=
  inferInstanceAs (Decidable (_ ∧ _))

/-- Those that a wave finds that runs again. -/
theorem nearest_again {k : ℕ} (hk : 1 ≤ k) (hn : order.Nodup) :
    let seen := candidateHeadroom * k + offered.eraseDups.length
    let cs := (nearest order offered eligible seen).take k
    (nearest order (offered ++ cs) eligible
        (candidateHeadroom * k + (offered ++ cs).eraseDups.length)).take k = [] ↔
      Exhausted order offered eligible k := by
  intro seen cs
  have hcs : cs.Nodup := (nodup_nearest hn).sublist (List.take_sublist _ _)
  have hlen : candidateHeadroom * k + (offered ++ cs).eraseDups.length = seen + cs.length := by
    rw [length_eraseDups_append hcs fun d hd ↦
      (notMem_of_mem_nearest (List.mem_of_mem_take hd)).1]
    omega
  have hprefix : nearest order offered eligible seen <+:
      nearest order offered eligible (seen + cs.length) := nearest_isPrefix (Nat.le_add_right _ _)
  rw [hlen, nearest_append, List.take_eq_nil_iff, or_iff_right (by omega)]
  constructor
  · intro hnone
    -- all that is found was offered
    have hsub : nearest order offered eligible (seen + cs.length) ⊆ cs := fun d hd ↦ by
      by_contra hout
      have hmem : d ∈ ((nearest order offered eligible (seen + cs.length)).filter (· ∉ cs)) :=
        List.mem_filter.mpr ⟨hd, decide_eq_true hout⟩
      rw [hnone] at hmem
      exact List.not_mem_nil hmem
    have hle := ((nodup_nearest hn).subperm hsub).length_le
    have hfound := hprefix.length_le
    have heq : cs.length = (nearest order offered eligible seen).length :=
      le_antisymm (List.length_take_le' _ _) (hfound.trans hle)
    have hsame : (nearest order offered eligible (seen + cs.length)).length = cs.length :=
      le_antisymm hle (heq.trans_le hfound)
    refine ⟨heq.symm.trans_le (List.length_take_le _ _), ?_⟩
    rw [heq] at hsame
    exact hsame
  · rintro ⟨hfew, hsame⟩
    have hcs' : cs = nearest order offered eligible seen := List.take_of_length_le hfew
    have heq := hprefix.eq_of_length (by rw [hcs']; exact hsame.symm)
    rw [← heq, ← hcs']
    exact List.filter_eq_nil_iff.mpr fun d hd ↦ by simpa using hd

end Nearest

/-! ## Deliveries -/

/-- What a delivery of the wave runs with when only the wave itself makes offers: the same
parameters, index and eligible drivers, offers nobody else has locked, and new ids. -/
structure WaveEnv.Fixed (env : WaveEnv) (params : DispatchParams) (trip : LockedTrip)
    (wave : WaveNumber) (g : ℕ) (order : List GeoMember) (eligible : DriverId → Prop) (db : Db) :
    Prop where
  params_eq : env.params = params
  georadius : ∀ c, 1 ≤ c →
    env.georadius trip.origin (params.waveParams wave).2 c = order.take c
  eligible_iff : ∀ d, d ∉ offeredDriverIds db trip.ref g →
    (Eligible env.clock db env.accounts trip.waveSeats d ↔ eligible d)
  clock : ∀ d, env.clock ≤ (env.call d).t.clockTimestamp
  unlocked : ∀ d, (env.call d).locked = []
  fresh : ∀ d, ∀ o ∈ db.dispatchOffer, o.id ≠ (env.call d).newId
  injective : Function.Injective fun d ↦ (env.call d).newId

/-- Running the wave again finds nobody: the trip cannot be dispatched, its itinerary is incomplete,
or the eligible drivers are exhausted. -/
def Settled (db : Db) (trip : LockedTrip) (g : ℕ) (order : List GeoMember)
    (eligible : DriverId → Prop) [DecidablePred eligible] (k : ℕ) : Prop :=
  ¬ Dispatchable db trip.ref g ∨ ¬ trip.Offerable db ∨
    Exhausted order (offeredDriverIds db trip.ref g) eligible k

/-- A delivery, with what the queue holds then. -/
abbrev Delivery := WaveEnv × Queue

/-- The wave runs again. -/
def redeliver (trip : LockedTrip) (wave : WaveNumber) (g : ℕ) (db : Db) (e : Delivery) (db' : Db) :
    Prop := (runTripWave e.1 ⟨db, e.2⟩ trip wave g).1.db = db'

/-- The delivery inserts no offer and adds no timer. -/
def AddsNothing (trip : LockedTrip) (wave : WaveNumber) (g : ℕ) (db : Db) (e : Delivery) : Prop :=
  runTripWave e.1 ⟨db, e.2⟩ trip wave g = (⟨db, e.2⟩, .ok ())

section Deliveries

variable {env env' : WaveEnv} {params : DispatchParams} {trip : LockedTrip} {wave : WaveNumber}
  {g : ℕ} {order : List GeoMember} {eligible : DriverId → Prop} [DecidablePred eligible]
  {b b' : Backend} {db : Db} {q : Queue}

theorem WaveEnv.Fixed.waveCandidates_eq
    (hf : env.Fixed params trip wave g order eligible db) (hn : order.Nodup)
    (hk : 1 ≤ (params.waveParams wave).1) : waveCandidates env db trip wave g =
      if trip.Offerable db then
        (nearest order (offeredDriverIds db trip.ref g) eligible
          (candidateHeadroom * (params.waveParams wave).1 +
            (offeredDriverIds db trip.ref g).eraseDups.length)).take (params.waveParams wave).1
      else [] := by
  have hpos : 1 ≤ (params.waveParams wave).1 * candidateHeadroom := Nat.mul_pos hk (by decide)
  unfold waveCandidates
  refine if_congr Iff.rfl ?_ rfl
  simp only [selectCandidates, hf.params_eq]
  rw [hf.georadius _ (hpos.trans (Nat.le_add_right _ _)), eligibleCandidates_eq
    ((hn.sublist (List.take_sublist _ _)).filter _), filterMap_uuid_filter, List.filter_filter,
    nearest, Nat.mul_comm candidateHeadroom]
  congr 1
  refine List.filter_congr fun d _ ↦ ?_
  simp only [List.mem_eraseDups, ← Bool.decide_and]
  refine decide_eq_decide.mpr ?_
  rw [and_comm]
  exact and_congr_right fun hd ↦ hf.eligible_iff d hd

omit [DecidablePred eligible] in
/-- Nothing stands in the way of asking a candidate. -/
theorem WaveEnv.Fixed.unasked (hf : env.Fixed params trip wave g order eligible db)
    {d : DriverId} (hd : d ∉ offeredDriverIds db trip.ref g) (he : eligible d) :
    Unasked db trip.ref g (env.call d) d where
  fresh := hf.fresh d
  free o ho hdriver hlive := by
    obtain ⟨-, -, hfree, -⟩ := (hf.eligible_iff d hd).mpr he
    refine le_trans ?_ (hf.clock d)
    by_contra hlt
    exact hfree ⟨o, ho, hdriver, hlive, not_le.mp hlt⟩
  notOffered := hd
  unlocked := hf.unlocked d

/-- What one delivery does to the offers. -/
theorem WaveEnv.Fixed.offerEach (hf : env.Fixed params trip wave g order eligible db)
    (hn : order.Nodup) (hk : 1 ≤ (params.waveParams wave).1) (hg : 1 ≤ g)
    (hd : Dispatchable db trip.ref g) :
    let cs := waveCandidates env db trip wave g
    let db' := (offerEach env.call trip.ref g wave.toNat cs db).1
    offeredDriverIds db' trip.ref g = offeredDriverIds db trip.ref g ++ cs ∧
      (waveOffers db' trip.ref g wave.toNat).length =
        (waveOffers db trip.ref g wave.toNat).length + cs.length := by
  intro cs db'
  have hcs : cs.Nodup ∧ ∀ d ∈ cs, d ∉ offeredDriverIds db trip.ref g ∧ eligible d := by
    simp only [cs]
    rw [hf.waveCandidates_eq hn hk]
    split_ifs
    · exact ⟨(nodup_nearest hn).sublist (List.take_sublist _ _),
        fun d h ↦ notMem_of_mem_nearest (List.mem_of_mem_take h)⟩
    · exact ⟨List.nodup_nil, fun d h ↦ absurd h List.not_mem_nil⟩
  exact offerEach_unasked hd hg wave.one_le hcs.1 hf.injective fun d h ↦
    hf.unasked (hcs.2 d h).1 (hcs.2 d h).2

/-- A wave that finds nobody leaves the database. -/
theorem WaveEnv.Fixed.offerEach_eq_self (hf : env.Fixed params trip wave g order eligible db)
    (hn : order.Nodup) (hk : 1 ≤ (params.waveParams wave).1) (hg : 1 ≤ g) :
    (Dispatch.offerEach env.call trip.ref g wave.toNat (waveCandidates env db trip wave g) db).1 =
        db ↔
      ¬ Dispatchable db trip.ref g ∨ waveCandidates env db trip wave g = [] := by
  constructor
  · intro h
    by_contra hcontra
    obtain ⟨hd, hne⟩ := not_or.mp hcontra
    obtain ⟨hids, -⟩ := hf.offerEach hn hk hg (not_not.mp hd)
    rw [h] at hids
    exact hne (List.append_right_eq_self.mp hids.symm)
  · rintro (hd | hnone)
    · rw [offerEach_of_not_dispatchable _ _ hd]
    · rw [hnone]
      rfl

theorem waveQueue_eq_self (env : WaveEnv) : waveQueue env q trip wave g = q ↔
    (wave = .one → TimersHeld q trip.ref g) := by
  unfold waveQueue
  split_ifs with h
  · rw [scheduleTimers_eq_self]
    exact ⟨fun ht _ ↦ ht, fun ht ↦ ht h⟩
  · exact ⟨fun _ h' ↦ absurd h' h, fun _ ↦ rfl⟩

/-- What the wave does is settled by what it found. -/
theorem addsNothing_iff (hn : order.Nodup) (hk : 1 ≤ (params.waveParams wave).1)
    (hf : env.Fixed params trip wave g order eligible b.db)
    (h : runTripWave env b trip wave g = (b', .ok ()))
    (hf' : env'.Fixed params trip wave g order eligible b'.db) :
    AddsNothing trip wave g b'.db (env', q) ↔
      Settled b.db trip g order eligible (params.waveParams wave).1 ∧
        (wave = .one → TimersHeld q trip.ref g) := by
  have hg := generation_of_completes h
  have hdb := db_of_completes h
  have htables := offerEach_eq env.call trip.ref g wave.toNat
    (waveCandidates env b.db trip wave g) b.db
  rw [← hdb] at htables
  have hdispatch : Dispatchable b'.db trip.ref g ↔ Dispatchable b.db trip.ref g := by
    rw [htables]
    cases trip <;> exact Iff.rfl
  have hofferable : trip.Offerable b'.db ↔ trip.Offerable b.db := by
    rw [htables]
    cases trip <;> exact Iff.rfl
  have hadds : AddsNothing trip wave g b'.db (env', q) ↔
      (¬ Dispatchable b'.db trip.ref g ∨ waveCandidates env' b'.db trip wave g = []) ∧
        (wave = .one → TimersHeld q trip.ref g) := by
    unfold AddsNothing
    rw [runTripWave_eq env' _ trip wave hg, ← hf'.offerEach_eq_self hn hk hg,
      ← waveQueue_eq_self env']
    simp only [Prod.mk.injEq, Backend.mk.injEq, and_true]
  rw [hadds, hdispatch, Settled]
  refine and_congr_left fun _ ↦ or_congr_right' fun hd ↦ ?_
  rw [hf'.waveCandidates_eq hn hk]
  by_cases ho : trip.Offerable b.db
  · obtain ⟨hids, -⟩ := hf.offerEach hn hk hg (not_not.mp hd)
    rw [← hdb, hf.waveCandidates_eq hn hk, if_pos ho] at hids
    rw [if_pos (hofferable.mpr ho), hids]
    exact (nearest_again hk hn).trans (or_iff_right (not_not.mpr ho)).symm
  · rw [if_neg fun h ↦ ho (hofferable.mp h)]
    exact iff_of_true rfl (Or.inl ho)

/-- A delivery makes at most `k` offers. -/
theorem length_waveOffers_le (hn : order.Nodup) (hk : 1 ≤ (params.waveParams wave).1)
    (hf : env.Fixed params trip wave g order eligible b.db)
    (h : runTripWave env b trip wave g = (b', .ok ())) :
    (waveOffers b'.db trip.ref g wave.toNat).length ≤
      (waveOffers b.db trip.ref g wave.toNat).length + (params.waveParams wave).1 := by
  have hg := generation_of_completes h
  rw [db_of_completes h]
  by_cases hd : Dispatchable b.db trip.ref g
  · rw [(hf.offerEach hn hk hg hd).2, hf.waveCandidates_eq hn hk]
    refine Nat.add_le_add_left ?_ _
    split_ifs
    · exact List.length_take_le _ _
    · exact Nat.zero_le _
  · rw [offerEach_of_not_dispatchable _ _ hd]
    exact Nat.le_add_right _ _

omit [DecidablePred eligible] in
/-- Deliveries that add nothing leave the database. -/
theorem redelivered_same {tr : List (Db × Delivery)} {db' : Db}
    (hr : Run (redeliver trip wave g) db tr db')
    (h : ∀ x ∈ tr, x.1 = db → AddsNothing trip wave g x.1 x.2) :
    db' = db ∧ ∀ x ∈ tr, x.1 = db := by
  refine hr.invariant_trace (I := fun tr db' ↦
    (∀ x ∈ tr, x.1 = db → AddsNothing trip wave g x.1 x.2) → db' = db ∧ ∀ x ∈ tr, x.1 = db) ?_
    (fun _ ↦ ⟨rfl, fun x hx ↦ absurd hx List.not_mem_nil⟩) h
  rintro tr t e u ih hst h
  obtain ⟨rfl, hall⟩ := ih fun x hx ↦ h x (List.mem_append_left _ hx)
  have hnothing : AddsNothing trip wave g t e :=
    h (t, e) (List.mem_append_right _ List.mem_cons_self) rfl
  refine ⟨?_, fun x hx ↦ ?_⟩
  · rw [← hst, hnothing]
  · rcases List.mem_append.mp hx with hx | hx
    · exact hall x hx
    · rw [List.mem_singleton.mp hx]

/-- **Delivering a wave again.**

The later deliveries of a wave that completed insert no offer and add no timer exactly if the wave
is settled and, for wave 1, the timers of its generation are held at each of them.  The wave then
has at most `k` offers more than before it ran. -/
theorem redelivered_iff (hn : order.Nodup) (hk : 1 ≤ (params.waveParams wave).1)
    (hf : env.Fixed params trip wave g order eligible b.db)
    (h : runTripWave env b trip wave g = (b', .ok ()))
    {tr : List (Db × Delivery)} (hr : Run (redeliver trip wave g) b'.db tr db)
    (htr : ∀ x ∈ tr, x.2.1.Fixed params trip wave g order eligible x.1) :
    ((∀ x ∈ tr, AddsNothing trip wave g x.1 x.2) ↔ ∀ x ∈ tr,
        Settled b.db trip g order eligible (params.waveParams wave).1 ∧
          (wave = .one → TimersHeld x.2.2 trip.ref g)) ∧
      ((∀ x ∈ tr, AddsNothing trip wave g x.1 x.2) →
        (waveOffers db trip.ref g wave.toNat).length ≤
          (waveOffers b.db trip.ref g wave.toNat).length + (params.waveParams wave).1) := by
  have hiff : ∀ x ∈ tr, x.1 = b'.db → (AddsNothing trip wave g x.1 x.2 ↔
      Settled b.db trip g order eligible (params.waveParams wave).1 ∧
        (wave = .one → TimersHeld x.2.2 trip.ref g)) := by
    intro x hx hsame
    have hf' := htr x hx
    rw [hsame] at hf' ⊢
    exact addsNothing_iff hn hk hf h hf'
  refine ⟨⟨fun hall x hx ↦ ?_, fun hall x hx ↦ ?_⟩, fun hall ↦ ?_⟩
  · obtain ⟨-, hsame⟩ := redelivered_same hr fun x hx _ ↦ hall x hx
    exact (hiff x hx (hsame x hx)).mp (hall x hx)
  · obtain ⟨-, hsame⟩ := redelivered_same hr fun x hx hx' ↦ (hiff x hx hx').mpr (hall x hx)
    exact (hiff x hx (hsame x hx)).mpr (hall x hx)
  · obtain ⟨rfl, -⟩ := redelivered_same hr fun x hx _ ↦ hall x hx
    exact length_waveOffers_le hn hk hf h

end Deliveries

/-! ## Two drivers nearby -/

/-- A wave of one driver; `n` keeps the ids of its offers apart from another delivery's. -/
def sampleDelivery (accounts : Accounts) (n : ℕ) : WaveEnv :=
  { sampleWave with accounts, call := fun d ↦ ⟨⟨100, 100⟩, n + d, []⟩ }

/-- Nobody but the first driver. -/
def sampleAlone : Accounts where
  users := [⟨1, .active, .driver, true⟩]
  vehicles := [⟨1, 4, true⟩]

/-- The trip after its first wave. -/
def sampleWaved (accounts : Accounts) : Backend :=
  (runTripWave (sampleDelivery accounts 0) (Outbox.sampleBackend .empty) (.ride Outbox.sampleWoken)
    .one 1).1

theorem sampleDelivery_fixed {accounts : Accounts} {n : ℕ} {db : Db} {eligible : DriverId → Prop}
    (helig : ∀ d, d ∉ offeredDriverIds db (.solo 1) 1 →
      (Eligible 100 db accounts 1 d ↔ eligible d))
    (hfresh : ∀ o ∈ db.dispatchOffer, o.id < n) :
    (sampleDelivery accounts n).Fixed sampleWave.params (.ride Outbox.sampleWoken) .one 1
      sampleMembers eligible db where
  params_eq := rfl
  georadius _ _ := rfl
  eligible_iff := helig
  clock _ := Int.le_refl 100
  unlocked _ := rfl
  fresh d o ho := (Nat.lt_of_lt_of_le (hfresh o ho) (Nat.le_add_right n d)).ne
  injective := fun _ _ h ↦ Nat.add_left_cancel h

/-- Whoever is eligible has an account. -/
theorem mem_users_of_eligible {clock : Time} {db : Db} {accounts : Accounts} {seats : ℕ}
    {d : DriverId} (h : Eligible clock db accounts seats d) : d ∈ accounts.users.map (·.id) := by
  obtain ⟨⟨u, hu, rfl, -⟩, -⟩ := h
  exact List.mem_map.mpr ⟨u, hu, rfl⟩

theorem sampleAlone_fixed :
    (sampleDelivery sampleAlone 0).Fixed sampleWave.params (.ride Outbox.sampleWoken) .one 1
      sampleMembers (· = 1) (Outbox.sampleBackend .empty).db := by
  refine sampleDelivery_fixed (fun d _ ↦ ⟨fun h ↦ ?_, ?_⟩) (by decide)
  · exact List.mem_singleton.mp (mem_users_of_eligible h)
  · rintro rfl
    decide

theorem sampleAlone_again_fixed :
    (sampleDelivery sampleAlone 10).Fixed sampleWave.params (.ride Outbox.sampleWoken) .one 1
      sampleMembers (· = 1) (sampleWaved sampleAlone).db := by
  refine sampleDelivery_fixed (fun d hd ↦ ?_) (by decide)
  have hone : d ≠ 1 := by
    rintro rfl
    exact hd (by decide)
  exact iff_of_false (fun h ↦ hone (List.mem_singleton.mp (mem_users_of_eligible h))) hone

/-- Nobody is left to ask. -/
theorem sampleAlone_addsNothing : AddsNothing (.ride Outbox.sampleWoken) .one 1
    (sampleWaved sampleAlone).db
    (sampleDelivery sampleAlone 10, (sampleWaved sampleAlone).queue) := by
  have hrun : Run (redeliver (.ride Outbox.sampleWoken) .one 1) (sampleWaved sampleAlone).db
      [((sampleWaved sampleAlone).db,
        (sampleDelivery sampleAlone 10, (sampleWaved sampleAlone).queue))] _ := .single rfl
  have hdone : runTripWave (sampleDelivery sampleAlone 0) (Outbox.sampleBackend .empty)
      (.ride Outbox.sampleWoken) .one 1 = (sampleWaved sampleAlone, .ok ()) := rfl
  have hk : 1 ≤ (sampleWave.params.waveParams .one).1 := Nat.le_refl 1
  have hiff := (redelivered_iff (by decide) hk sampleAlone_fixed hdone hrun fun x hx ↦ by
    rw [List.mem_singleton.mp hx]
    exact sampleAlone_again_fixed).1
  refine hiff.mpr (fun x hx ↦ ?_) _ List.mem_cons_self
  rw [List.mem_singleton.mp hx]
  refine ⟨Or.inr (Or.inr ?_), fun _ ↦ ?_⟩
  · decide
  · exact ⟨rfl, rfl⟩

/-- With two drivers nearby the second delivery asks the other one. -/
theorem sampleWaved_asks_again : ¬ ∀ (params : DispatchParams) (trip : LockedTrip)
    (wave : WaveNumber) (g : ℕ) (order : List GeoMember) (eligible : DriverId → Prop)
    (env env' : WaveEnv) (b b' : Backend), order.Nodup → 1 ≤ (params.waveParams wave).1 →
      env.Fixed params trip wave g order eligible b.db →
      runTripWave env b trip wave g = (b', .ok ()) →
      env'.Fixed params trip wave g order eligible b'.db →
      AddsNothing trip wave g b'.db (env', b'.queue) := by
  intro h
  have htwo : ∀ d : DriverId, d ∈ [1, 2] ↔ d = 1 ∨ d = 2 := fun d ↦ by simp
  have hadds := h sampleWave.params (.ride Outbox.sampleWoken) .one 1 sampleMembers (· ∈ [1, 2])
    (sampleDelivery sampleAccounts 0) (sampleDelivery sampleAccounts 10)
    (Outbox.sampleBackend .empty) (sampleWaved sampleAccounts) (by decide) (Nat.le_refl 1)
    (sampleDelivery_fixed (fun d _ ↦ ⟨mem_users_of_eligible, fun hd ↦ by
      rcases (htwo d).mp hd with rfl | rfl <;> decide⟩) (by decide))
    rfl
    (sampleDelivery_fixed (fun d hd ↦ ⟨mem_users_of_eligible, fun hd' ↦ by
      rcases (htwo d).mp hd' with rfl | rfl
      · exact absurd (by decide) hd
      · decide⟩) (by decide))
  have hdb := congrArg (fun r ↦ (waveOffers r.1.db (.solo 1) 1 1).length) hadds
  revert hdb
  decide

end Rcab.Dispatch
