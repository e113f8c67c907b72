import Rcab.DriverApp.FromServer
import Rcab.Pools.Stops
import Rcab.Realtime.Publish

/-!
# What is taken back

Once a stop was shown confirmed it stays so, as long as the notifier takes up no itinerary older
than one it noted before.  Its own check misses two kinds: the bookkeeping remembers one trip, and
an outcome about the offer shown is not checked at all.
-/

universe u

namespace Rcab.DriverApp

open Realtime (driverStopView)
open Dispatch (acceptInTx sharedRideOffer)
open RideLifecycle (StopEcho confirmStop)

/-- The notifier with all it was before, the last state first. -/
structure Timeline where
  now : SharedRideNotifier
  past : List SharedRideNotifier

namespace Timeline

def start (offerSender : Bool) : Timeline := ⟨.create offerSender, []⟩

def next (h : Timeline) (i : Input) : Timeline := ⟨h.now.apply i, h.now :: h.past⟩

def step (h : Timeline) (i : Input) (h' : Timeline) : Prop := h.next i = h'

/-- The notifier and all it was. -/
def states (h : Timeline) : List SharedRideNotifier := h.now :: h.past

/-- What was shown of a trip is never taken back. -/
def NeverRewinds (h : Timeline) : Prop :=
  h.states.Pairwise fun later earlier ↦ ∀ tripId f, earlier.Shows tripId f → ¬ later.TakesBack tripId f

/-- No itinerary is taken up that is older than what was noted of its trip at any time, and no
offer starts a trip of which something was shown. -/
structure Current (h : Timeline) (i : Input) : Prop where
  takes : ∀ a, h.now.Takes i a → ∀ m ∈ h.states, ¬ m.isOlder a.tripId (some a.version)
  starts : h.now.Starts i → ∀ m ∈ h.states, ∀ tripId f, h.now.state.sharedRideId = some tripId →
    ¬ m.Shows tripId f

end Timeline

/-! ## The invariant -/

section Invariant

variable (tr : List (Db × Step)) (s : Db)

/-- The notifier has noted a version by which it had come true. -/
def Backed (n : SharedRideNotifier) (tripId : Uuid) (f : TripFact) : Prop :=
  n.versionTripId = some tripId ∧ ∃ db row, Committed tr s db ∧
    db.sharedRides.get tripId = some row ∧ row.stateVersion ≤ n.appliedVersion ∧
      f.Holds (db.poolView tripId).stops

/-- The stops shown are those of the trip, each once. -/
structure Itinerary (n : SharedRideNotifier) : Prop where
  nodup : (n.state.stops.map fun x ↦ x.stop.sequenceIndex).Nodup
  covers : ∀ tripId, n.state.sharedRideId = some tripId → n.state.stops ≠ [] →
    ∀ db, Committed tr s db → ∀ x ∈ (db.poolView tripId).stops,
      x.sequenceIndex ∈ n.state.stops.map fun y ↦ y.stop.sequenceIndex

/-- What is shown has come true, and is not taken back. -/
structure Honest (h : Timeline) : Prop where
  itinerary : Itinerary tr s h.now
  backed : ∀ m ∈ h.states, ∀ tripId f, m.Shows tripId f → ∃ m' ∈ h.states, Backed tr s m' tripId f
  current : ∀ m ∈ h.states, ∀ tripId f, m.Shows tripId f → h.now.state.sharedRideId = some tripId →
    h.now.state.isAssigned → Backed tr s h.now tripId f ∧ ¬ h.now.state.Denies f

variable {tr s}

theorem Honest.start (offerSender : Bool) : Honest tr s (.start offerSender) where
  itinerary := ⟨List.nodup_nil, fun _ h ↦ by cases h⟩
  backed m hm tripId f hf := by
    obtain rfl := List.mem_singleton.mp hm
    cases hf.1
  current m hm tripId f hf := by
    obtain rfl := List.mem_singleton.mp hm
    cases hf.1

end Invariant

/-! ## What was read -/

section Read

variable {tr : List (Db × Step)} {s db : Db} {a : DriverAssignment} {row : SharedRide}
  {n n' : SharedRideNotifier} {tripId : Uuid}

open SharedRideNotifier

theorem Read.tells (h : Read tr s a db row) {f : TripFact} (hf : (n.hydrate a).state.Tells f) :
    f.Holds (db.poolView a.tripId).stops := by
  cases f with
  | confirmed i =>
      obtain ⟨x, hx, hidx, hst⟩ := hf
      obtain ⟨j, hj, rfl⟩ := mem_hydrate_stops.mp hx
      rw [h.stops] at hj
      obtain ⟨y, hy, rfl⟩ := List.mem_map.mp hj
      exact ⟨y, hy, hidx, Option.isSome_iff_ne_none.mp (restoredStop_status.mp hst)⟩
  | completed =>
      obtain ⟨hne, hall⟩ := hydrate_completed.mp hf
      rw [h.stops] at hne hall
      exact ⟨fun hnil ↦ hne (List.map_eq_nil_iff.mpr hnil), fun y hy ↦
        Option.isSome_iff_ne_none.mp (hall _ (List.mem_map_of_mem hy))⟩

theorem Read.told (h : Read tr s a db row) {k : ℕ}
    (hk : (TripFact.confirmed k).Holds (db.poolView a.tripId).stops) :
    (n.hydrate a).state.Tells (.confirmed k) := by
  obtain ⟨y, hy, hyk, hc⟩ := hk
  refine ⟨restoredStop (driverStopView y), mem_hydrate_stops.mpr ⟨driverStopView y, ?_, rfl⟩, hyk,
    restoredStop_status.mpr (Option.isSome_iff_ne_none.mpr hc)⟩
  rw [h.stops]
  exact List.mem_map_of_mem hy

theorem Read.not_denies (h : Read tr s a db row) (hi : PoolInv (db.poolView a.tripId))
    {f : TripFact} (hf : f.Holds (db.poolView a.tripId).stops) :
    ¬ (n.hydrate a).state.Denies f := by
  cases f with
  | confirmed i =>
      rintro ⟨x, hx, hidx, hst⟩
      obtain ⟨j, hj, rfl⟩ := mem_hydrate_stops.mp hx
      rw [h.stops] at hj
      obtain ⟨y, hy, rfl⟩ := List.mem_map.mp hj
      obtain ⟨z, hz, hzi, hc⟩ := hf
      obtain rfl := hi.stop_ext hz hy (hzi.trans hidx.symm)
      rw [restoredStop_status.mpr (Option.isSome_iff_ne_none.mpr hc)] at hst
      cases hst
  | completed =>
      have hdone : (n.hydrate a).state.completed = true := by
        refine hydrate_completed.mpr ?_
        rw [h.stops]
        refine ⟨fun hnil ↦ hf.1 (List.map_eq_nil_iff.mp hnil), fun j hj ↦ ?_⟩
        obtain ⟨y, hy, rfl⟩ := List.mem_map.mp hj
        exact Option.isSome_iff_ne_none.mpr (hf.2 y hy)
      intro hd
      cases hdone.symm.trans hd

theorem Read.perm (h : Read tr s a db row) :
    ((n.hydrate a).state.stops.map fun x ↦ x.stop.sequenceIndex).Perm
      ((db.poolView a.tripId).stops.map RideStop.sequenceIndex) := by
  refine ((sortStops_perm _).map _).trans ?_
  rw [h.stops, List.map_map, List.map_map]
  exact .refl _

theorem Read.backed (h : Read tr s a db row) {f : TripFact}
    (hf : f.Holds (db.poolView a.tripId).stops) : Backed tr s (n.hydrate a) a.tripId f := by
  refine ⟨hydrate_versionTripId, db, row, h.committed, h.found, ?_, hf⟩
  rw [hydrate_appliedVersion, ← h.version]
  exact le_noteVersion n a.tripId a.version

section Runs

variable {D : Type u} [LinearOrder D] {dist : Point → Point → D} {s₀ : Db}

/-- The stops of a committed pool are an itinerary. -/
theorem Itinerary.of_perm (h₀ : s₀.NoPools) (hr : Run (Rcab.step dist) s₀ tr s)
    (hc : Committed tr s db) (hrow : db.sharedRides.get tripId = some row)
    (hid : n.state.sharedRideId = some tripId)
    (hp : (n.state.stops.map fun x ↦ x.stop.sequenceIndex).Perm
      ((db.poolView tripId).stops.map RideStop.sequenceIndex)) : Itinerary tr s n where
  nodup := by
    rw [hp.nodup_iff, ((poolsInv_of_committed h₀ hr hc).pool tripId).range]
    exact List.nodup_range
  covers tripId' hid' hne db' hc' x hx := by
    obtain rfl := Option.some.inj (hid.symm.trans hid')
    have hne' : (db.poolView tripId).stops ≠ [] := by
      intro hnil
      rw [hnil] at hp
      exact hne (List.map_eq_nil_iff.mp hp.eq_nil)
    cases hrow' : db'.sharedRides.get tripId with
    | none =>
        have hnil := (((poolsInv_of_committed h₀ hr hc').pool tripId).absent hrow').2
        rw [hnil] at hx
        cases hx
    | some row' =>
        have hidx := indexes_of_committed h₀ hr hc hc' hrow hrow' hne' (List.ne_nil_of_mem hx)
        rw [hp.mem_iff, ← hidx]
        exact List.mem_map_of_mem hx

/-- The itinerary is the same as long as its stops are. -/
theorem Itinerary.of_eq (h : Itinerary tr s n) (hid : n'.state.sharedRideId = n.state.sharedRideId)
    (hstops : (n'.state.stops.map fun x ↦ x.stop.sequenceIndex) =
      n.state.stops.map fun x ↦ x.stop.sequenceIndex) : Itinerary tr s n' where
  nodup := hstops ▸ h.nodup
  covers tripId hid' hne db hc x hx := by
    rw [hstops]
    refine h.covers tripId (hid ▸ hid') (fun hnil ↦ hne ?_) db hc x hx
    rw [hnil] at hstops
    exact List.map_eq_nil_iff.mp hstops

/-- **Every call leaves an itinerary**, or no stops. -/
theorem Itinerary.next (h : Itinerary tr s n) (h₀ : s₀.NoPools) (hr : Run (Rcab.step dist) s₀ tr s)
    {driverId : DriverId} {i : Input} (hi : FromServer tr s driverId i) :
    Itinerary tr s (n.apply i) := by
  rcases n.apply_cases i with ⟨a, ha, hnext⟩ | ⟨-, hs⟩ | ⟨echo, rfl, he⟩ | ⟨-, hstops⟩
  · obtain ⟨db, row, hread⟩ := hi.read h₀ hr ha
    rw [hnext]
    exact .of_perm h₀ hr hread.committed hread.found rfl hread.perm
  · exact h.of_eq hs.sharedRideId (by rw [hs.stops])
  · exact h.of_eq (he.trip'.trans he.trip.symm) he.indexes
  · generalize n.apply i = n' at hstops
    cases hstops with
    | kept hid hst => exact h.of_eq hid (by rw [hst])
    | none hid hst =>
        refine ⟨by rw [hst]; exact List.nodup_nil, fun tripId hid' ↦ ?_⟩
        rw [hid] at hid'
        cases hid'
    | offer o hid hst =>
        obtain ⟨-, db, row, hcommitted, hrow, hidx⟩ := hi.offered h₀ hr
        refine .of_perm h₀ hr hcommitted hrow hid ?_
        rw [hst, ← hidx]
        refine ((sortStops_perm _).map _).trans ?_
        rw [List.map_map]
        exact .refl _

end Runs

end Read

/-! ## One call -/

section Step

open SharedRideNotifier

variable {tr : List (Db × Step)} {s db : Db} {a : DriverAssignment} {row : SharedRide}
  {h : Timeline} {i : Input} {D : Type u} [LinearOrder D] {dist : Point → Point → D} {s₀ : Db}

theorem Backed.of_eq {n n' : SharedRideNotifier} {tripId : Uuid} {f : TripFact}
    (hb : Backed tr s n tripId f) (hid : n'.versionTripId = n.versionTripId)
    (hv : n'.appliedVersion = n.appliedVersion) : Backed tr s n' tripId f := by
  obtain ⟨hb, db, row, hc, hrow, hle, hf⟩ := hb
  exact ⟨hid.trans hb, db, row, hc, hrow, hv ▸ hle, hf⟩

/-- What a version backs holds of every state whose version is not older. -/
theorem Backed.holds {n : SharedRideNotifier} {tripId : Uuid} {f : TripFact}
    (hb : Backed tr s n tripId f) (h₀ : s₀.NoPools) (hr : Run (Rcab.step dist) s₀ tr s)
    (hc : Committed tr s db) (hrow : db.sharedRides.get tripId = some row)
    (hnew : ¬ n.isOlder tripId (some row.stateVersion)) : f.Holds (db.poolView tripId).stops := by
  obtain ⟨hid, db₁, row₁, hc₁, hrow₁, hle, hf⟩ := hb
  have hge : ¬ row.stateVersion < n.appliedVersion := fun hlt ↦ hnew ⟨hid, hlt⟩
  exact holds_of_version h₀ hr hc₁ hc hrow₁ hrow (hle.trans (not_lt.mp hge)) hf

/-- An itinerary is taken up that no state of the past calls older. -/
theorem Honest.takes (hh : Honest tr s h) (h₀ : s₀.NoPools) (hr : Run (Rcab.step dist) s₀ tr s)
    (hread : Read tr s a db row)
    (hnew : ∀ m ∈ h.states, ¬ m.isOlder a.tripId (some a.version))
    (hnext : h.now.apply i = h.now.hydrate a) (hitin : Itinerary tr s (h.now.apply i)) :
    Honest tr s (h.next i) := by
  have hi := (poolsInv_of_committed h₀ hr hread.committed).pool a.tripId
  have hnow : (h.next i).now = h.now.hydrate a := hnext
  -- All that was ever shown of the trip had come true when it was read.
  have hall : ∀ m ∈ (h.next i).states, ∀ f, m.Shows a.tripId f →
      f.Holds (db.poolView a.tripId).stops := by
    intro m hm f hf
    rcases List.mem_cons.mp hm with rfl | hm
    · rw [hnow] at hf
      exact hread.tells hf.2
    · obtain ⟨m', hm', hb⟩ := hh.backed m hm a.tripId f hf
      refine hb.holds h₀ hr hread.committed hread.found ?_
      rw [← hread.version]
      exact hnew m' hm'
  refine ⟨hitin, fun m hm tripId f hf ↦ ?_, fun m hm tripId f hf hid _ ↦ ?_⟩
  · rcases List.mem_cons.mp hm with rfl | hm'
    · refine ⟨_, List.mem_cons_self, ?_⟩
      have hid : tripId = a.tripId := by
        have := hf.1
        rw [hnow] at this
        exact (Option.some.inj this).symm
      rw [hid] at hf ⊢
      rw [hnow]
      exact hread.backed (hall _ hm f hf)
    · obtain ⟨m', hm'', hb⟩ := hh.backed m hm' tripId f hf
      exact ⟨m', List.mem_cons_of_mem _ hm'', hb⟩
  · rw [hnow] at hid ⊢
    obtain rfl := Option.some.inj hid
    exact ⟨hread.backed (hall m hm f hf), hread.not_denies hi (hall m hm f hf)⟩

/-- The offer of a trip of which nothing was shown becomes the assignment. -/
theorem Honest.starts (hh : Honest tr s h) (hs : Started h.now (h.now.apply i))
    (hnone : ∀ m ∈ h.states, ∀ tripId f, h.now.state.sharedRideId = some tripId →
      ¬ m.Shows tripId f) (hitin : Itinerary tr s (h.now.apply i)) : Honest tr s (h.next i) := by
  have hshows : ∀ tripId f, (h.now.apply i).Shows tripId f → h.now.Shows tripId f := by
    intro tripId f hf
    refine ⟨hs.sharedRideId.symm.trans hf.1, ?_⟩
    cases f with
    | confirmed j =>
        obtain ⟨x, hx, hc⟩ := hf.2
        exact ⟨x, hs.stops ▸ hx, hc⟩
    | completed => exact hs.completed.symm.trans hf.2
  refine ⟨hitin, fun m hm tripId f hf ↦ ?_, fun m hm tripId f hf hid _ ↦ ?_⟩
  · rcases List.mem_cons.mp hm with rfl | hm
    · exact absurd (hshows tripId f hf)
        (hnone _ List.mem_cons_self tripId f (hshows tripId f hf).1)
    · obtain ⟨m', hm', hb⟩ := hh.backed m hm tripId f hf
      exact ⟨m', List.mem_cons_of_mem _ hm', hb⟩
  · have hid' : h.now.state.sharedRideId = some tripId := hs.sharedRideId.symm.trans hid
    rcases List.mem_cons.mp hm with rfl | hm
    · exact absurd (hshows tripId f hf) (hnone _ List.mem_cons_self tripId f hid')
    · exact absurd hf (hnone m hm tripId f hid')

/-- No more is shown than before. -/
theorem Honest.kept (hh : Honest tr s h) (hk : Kept h.now (h.now.apply i))
    (hitin : Itinerary tr s (h.now.apply i)) : Honest tr s (h.next i) := by
  refine ⟨hitin, fun m hm tripId f hf ↦ ?_, fun m hm tripId f hf hid ha ↦ ?_⟩
  · have hbacked : ∃ m' ∈ h.states, Backed tr s m' tripId f := by
      rcases List.mem_cons.mp hm with rfl | hm
      · exact hh.backed _ List.mem_cons_self tripId f (hk.shows tripId f hf)
      · exact hh.backed m hm tripId f hf
    obtain ⟨m', hm', hb⟩ := hbacked
    exact ⟨m', List.mem_cons_of_mem _ hm', hb⟩
  · have hstate : (h.now.apply i).state = h.now.state := hk.assigned ha
    have hcur : Backed tr s h.now tripId f ∧ ¬ h.now.state.Denies f := by
      rcases List.mem_cons.mp hm with rfl | hm
      · exact hh.current _ List.mem_cons_self tripId f (hk.shows tripId f hf) (hstate ▸ hid)
          (hstate ▸ ha)
      · exact hh.current m hm tripId f hf (hstate ▸ hid) (hstate ▸ ha)
    exact ⟨hcur.1.of_eq hk.versionTripId hk.appliedVersion, fun hd ↦ hcur.2 (hstate ▸ hd)⟩

/-- What an echo leaves shown of its trip had come true when it was sent, and what it leaves
denied was denied before, or had not come true. -/
theorem Echoed.shows {n n' : SharedRideNotifier} {echo : StopEcho} (he : n.Echoed echo n')
    (hheard : Heard tr s echo db row) (hi : PoolInv (db.poolView echo.rideId))
    (hn' : Itinerary tr s n')
    (hall : ∀ f, n.Shows echo.rideId f → f.Holds (db.poolView echo.rideId).stops) :
    (∀ f, n'.Shows echo.rideId f → f.Holds (db.poolView echo.rideId).stops) ∧
      ∀ f, f.Holds (db.poolView echo.rideId).stops → n'.state.Denies f → n.state.Denies f := by
  rcases he.stops with hstate | ⟨l₁, x, l₂, hl, hx, hpending, hl', hdone⟩
  · refine ⟨fun f hf ↦ hall f ?_, fun f _ hd ↦ hstate ▸ hd⟩
    exact ⟨hstate ▸ hf.1, hstate ▸ hf.2⟩
  -- Stop by stop.
  have hstop : ∀ k, n'.state.Tells (.confirmed k) →
      (TripFact.confirmed k).Holds (db.poolView echo.rideId).stops := by
    rintro k ⟨y, hy, rfl, hc⟩
    rw [hl'] at hy
    rcases List.mem_append.mp hy with hy | hy
    · refine hall _ ⟨he.trip, y, ?_, rfl, hc⟩
      rw [hl]
      exact List.mem_append_left _ hy
    · rcases List.mem_cons.mp hy with rfl | hy
      · exact hx ▸ hheard.confirmed
      · refine hall _ ⟨he.trip, y, ?_, rfl, hc⟩
        rw [hl]
        exact List.mem_append_right _ (List.mem_cons_of_mem _ hy)
  refine ⟨fun f hf ↦ ?_, fun f hf hd ↦ ?_⟩
  · cases f with
    | confirmed k => exact hstop k hf.2
    | completed =>
        rcases hdone.mp hf.2 with hdone | hdone
        · exact hheard.completed.mp hdone
        · -- All that is shown is confirmed, and all stops are shown.
          obtain ⟨z, hz, -⟩ := hheard.confirmed
          refine ⟨List.ne_nil_of_mem hz, fun w hw ↦ ?_⟩
          have hne : n'.state.stops ≠ [] := by
            rw [hl']
            exact List.append_ne_nil_of_right_ne_nil _ (List.cons_ne_nil _ _)
          obtain ⟨y, hy, hyw⟩ := List.mem_map.mp
            (hn'.covers echo.rideId he.trip' hne db hheard.committed w hw)
          obtain ⟨v, hv, hvi, hc⟩ := hstop w.sequenceIndex ⟨y, hy, hyw, hdone y hy⟩
          obtain rfl := hi.stop_ext hv hw hvi
          exact hc
  · cases f with
    | confirmed k =>
        obtain ⟨y, hy, hyk, hst⟩ := hd
        rw [hl'] at hy
        refine ⟨y, ?_, hyk, hst⟩
        rw [hl]
        rcases List.mem_append.mp hy with hy | hy
        · exact List.mem_append_left _ hy
        · rcases List.mem_cons.mp hy with rfl | hy
          · cases hst
          · exact List.mem_append_right _ (List.mem_cons_of_mem _ hy)
    | completed =>
        have := hdone.mpr (Or.inl (hheard.completed.mpr hf))
        cases this.symm.trans hd

/-- No stop is shown both ways. -/
theorem Itinerary.not_denies {n : SharedRideNotifier} (hn : Itinerary tr s n) {f : TripFact}
    (hf : n.state.Tells f) : ¬ n.state.Denies f := by
  cases f with
  | confirmed k =>
      obtain ⟨x, hx, hxk, hxc⟩ := hf
      rintro ⟨y, hy, hyk, hyc⟩
      obtain rfl := List.inj_on_of_nodup_map hn.nodup hx hy (hxk.trans hyk.symm)
      cases hxc.symm.trans hyc
  | completed =>
      intro hd
      cases Eq.trans (Eq.symm hf) hd

/-- An echo is applied. -/
theorem Honest.echoed (hh : Honest tr s h) (h₀ : s₀.NoPools) (hr : Run (Rcab.step dist) s₀ tr s)
    {echo : StopEcho} (hheard : Heard tr s echo db row) (he : h.now.Echoed echo (h.now.apply i))
    (hitin : Itinerary tr s (h.now.apply i)) : Honest tr s (h.next i) := by
  have hi := (poolsInv_of_committed h₀ hr hheard.committed).pool echo.rideId
  have hid' : (h.now.apply i).versionTripId = some echo.rideId := by
    rw [he.versionTripId, hheard.version]
    exact noteVersion_versionTripId ..
  have hle : row.stateVersion ≤ (h.now.apply i).appliedVersion := by
    rw [he.appliedVersion, hheard.version]
    exact le_noteVersion ..
  -- What was shown before had come true when the echo was sent.
  have hall : ∀ m ∈ h.states, ∀ f, m.Shows echo.rideId f →
      f.Holds (db.poolView echo.rideId).stops ∧ ¬ h.now.state.Denies f := by
    intro m hm f hf
    obtain ⟨hb, hd⟩ := hh.current m hm echo.rideId f hf he.trip he.assigned
    refine ⟨hb.holds h₀ hr hheard.committed hheard.found ?_, hd⟩
    rw [← hheard.version]
    exact he.newer
  obtain ⟨hshows, hdenies⟩ := Echoed.shows he hheard hi hitin fun f hf ↦
    (hall _ List.mem_cons_self f hf).1
  have hbacked : ∀ {f : TripFact}, f.Holds (db.poolView echo.rideId).stops →
      Backed tr s (h.now.apply i) echo.rideId f := fun hf ↦
    ⟨hid', db, row, hheard.committed, hheard.found, hle, hf⟩
  refine ⟨hitin, fun m hm tripId f hf ↦ ?_, fun m hm tripId f hf hid _ ↦ ?_⟩
  · rcases List.mem_cons.mp hm with rfl | hm
    · obtain rfl : echo.rideId = tripId := Option.some.inj (he.trip'.symm.trans hf.1)
      exact ⟨_, List.mem_cons_self, hbacked (hshows f hf)⟩
    · obtain ⟨m', hm', hb⟩ := hh.backed m hm tripId f hf
      exact ⟨m', List.mem_cons_of_mem _ hm', hb⟩
  · obtain rfl : echo.rideId = tripId := Option.some.inj (he.trip'.symm.trans hid)
    rcases List.mem_cons.mp hm with rfl | hm
    · exact ⟨hbacked (hshows f hf), hitin.not_denies hf.2⟩
    · obtain ⟨hf', hd⟩ := hall m hm f hf
      exact ⟨hbacked hf', fun hd' ↦ hd (hdenies f hf' hd')⟩

/-- **One call under the condition keeps the notifier honest.** -/
theorem Honest.next (hh : Honest tr s h) (h₀ : s₀.NoPools) (hr : Run (Rcab.step dist) s₀ tr s)
    {driverId : DriverId} (hi : FromServer tr s driverId i) (hc : h.Current i) :
    Honest tr s (h.next i) := by
  have hitin := hh.itinerary.next h₀ hr hi
  rcases h.now.apply_cases i with ⟨a, ha, hnext⟩ | ⟨hs, hstarted⟩ | ⟨echo, rfl, he⟩ | ⟨hk, -⟩
  · obtain ⟨db, row, hread⟩ := hi.read h₀ hr ha
    exact hh.takes h₀ hr hread (hc.takes a ha) hnext hitin
  · exact hh.starts hstarted (hc.starts hs) hitin
  · obtain ⟨db, row, hheard⟩ := hi.heard h₀ hr
    exact hh.echoed h₀ hr hheard he hitin
  · exact hh.kept hk hitin

end Step

/-! ## Runs -/

section Runs

variable {D : Type u} [LinearOrder D]

/-- **Nothing shown is taken back**, in every sequence of calls none of which takes up an
itinerary older than what was noted of its trip, or starts a trip of which something was shown. -/
theorem never_rewinds (dist : Point → Point → D) {s₀ s : Db} {tr : List (Db × Step)}
    (h₀ : s₀.NoPools) (hr : Run (Rcab.step dist) s₀ tr s) (driverId : DriverId) (offerSender : Bool)
    {calls : List (Timeline × Input)} {h : Timeline}
    (hcalls : Run (only Timeline.step fun h i ↦ FromServer tr s driverId i ∧ h.Current i)
      (.start offerSender) calls h) : h.NeverRewinds := by
  have key : Honest tr s h ∧ h.NeverRewinds := by
    refine hcalls.invariant (I := fun h ↦ Honest tr s h ∧ h.NeverRewinds) ?_
      ⟨.start offerSender, List.pairwise_singleton _ _⟩
    rintro h i _ ⟨hh, hnever⟩ ⟨rfl, hfrom, hcur⟩
    have hnext := hh.next h₀ hr hfrom hcur
    refine ⟨hnext, List.pairwise_cons.mpr ⟨fun m hm tripId f hf ↦ ?_, hnever⟩⟩
    rintro ⟨hid, ha, hd⟩
    exact (hnext.current m (List.mem_cons_of_mem _ hm) tripId f hf hid ha).2 hd
  exact key.2

end Runs

/-! ## A duplicated outcome -/

/-- The pool of passenger 2 and of passenger 3, who joins it. -/
def sampleShared : Matching.OpenPoolParams := { samplePool with maxSeats := 2 }

def sampleJoin : Matching.JoinPoolParams where
  poolId := 1
  joiner := ⟨3, ⟨0, 1⟩, ⟨1, 2⟩, 5⟩
  quoteFare := fun _ ↦ some ⟨⟨400, "INR"⟩, 1, 1, "fixed_at_join"⟩
  idempotency := none
  dateNow := 5

/-- Driver 7 accepts the pool and confirms both pickups. -/
def sampleCommits : List Step :=
  [.openPool ⟨0, 0⟩ sampleShared,
    .joinPool ⟨5, 5⟩ sampleJoin,
    .createOffer ⟨60001, 60001⟩ 20 [] ⟨.shared 1, 7, 1, 1, 12000⟩,
    .acceptInTx ⟨60002, 60002⟩ ⟨[⟨7, .active, .driver, true⟩], [⟨7, 4, true⟩]⟩ 20 7 (.shared 1),
    .confirmStop ⟨60003, 60003⟩ ⟨1, 7, 0, .pickup⟩,
    .confirmStop ⟨60004, 60004⟩ ⟨1, 7, 1, .pickup⟩]

/-- The states these lead through. -/
def sampleTrace : List (Db × Step) := traceOf (exec (D := ℕ) fun _ _ ↦ 0) .empty sampleCommits

/-- The database after the first `k` of them. -/
def sampleAt (k : ℕ) : Db := (sampleCommits.take k).foldl (exec (D := ℕ) fun _ _ ↦ 0) .empty

theorem sampleTrace_run : Run (Rcab.step (D := ℕ) fun _ _ ↦ 0) .empty sampleTrace (sampleAt 6) := by
  have hexec : ∀ db e, True → Rcab.step (D := ℕ) (fun _ _ ↦ 0) db e (exec (fun _ _ ↦ 0) db e) :=
    fun _ _ _ ↦ rfl
  exact Run.of_enabled (Rcab.step (D := ℕ) fun _ _ ↦ 0) hexec sampleCommits
    ⟨trivial, trivial, trivial, trivial, trivial, trivial, trivial⟩

theorem sampleAt_mem {k : ℕ} (hk : k < 6) :
    (sampleAt k, sampleCommits.get ⟨k, hk⟩) ∈ sampleTrace := by
  have hk' : k < sampleCommits.length := hk
  exact mem_traceOf hk' _

theorem sampleAt_committed {k : ℕ} (hk : k < 6) : Committed sampleTrace (sampleAt 6) (sampleAt k) :=
  Or.inr ⟨_, sampleAt_mem hk, rfl⟩

def sampleOffer : SharedRideOffer where
  sharedRideId := 1
  stops := [⟨0, 2, .pickup, ⟨0, 0⟩⟩, ⟨1, 3, .pickup, ⟨0, 1⟩⟩, ⟨2, 2, .dropoff, ⟨1, 1⟩⟩,
    ⟨3, 3, .dropoff, ⟨1, 2⟩⟩]
  passengerCount := 2
  offerId := some 20
  ttlMs := 12000

/-- The outcome, with the itinerary as it was read right after the accept. -/
def sampleOutcome : OfferOutcome where
  offerId := 20
  kind := .assigned
  tripKind := some .shared
  tripId := some 1
  generation := some 1
  reason := none
  assignment := some
    { tripKind := .shared
      tripId := 1
      offerId := some 20
      generation := 1
      version := 4
      stops := [⟨0, .pickup, 2, ⟨0, 0⟩, false, none⟩, ⟨1, .pickup, 3, ⟨0, 1⟩, false, none⟩,
        ⟨2, .dropoff, 2, ⟨1, 1⟩, false, none⟩, ⟨3, .dropoff, 3, ⟨1, 2⟩, false, none⟩] }

/-- The echoes of the two pickups. -/
def sampleEcho : StopEcho := ⟨1, 0, 2, .pickup, 60003, false, some 6⟩

def sampleEcho' : StopEcho := ⟨1, 1, 3, .pickup, 60004, false, some 7⟩

theorem sampleOffer_fromServer :
    FromServer sampleTrace (sampleAt 6) 7 (.applyOffer sampleOffer) := by
  have h : ((sampleAt 3).sharedRides.get 1).bind (fun pool ↦
      (sharedRideOffer (sampleAt 3) pool ⟨20, 72001⟩ 12000 1).bind SharedRideOffer.fromPayload) =
        some sampleOffer := by decide +kernel
  obtain ⟨pool, hpool, h⟩ := Option.bind_eq_some_iff.mp h
  obtain ⟨payload, hp, ho⟩ := Option.bind_eq_some_iff.mp h
  refine .offer (sampleAt_committed (k := 3) (by decide)) ?_ hp ho
  rw [show pool.rideId = 1 from Table.key_of_get hpool]
  exact hpool

theorem sampleOutcome_eq : sampleOutcome =
    .fromPayload (Dispatch.assignedOutcome (sampleAt 4) 7 20 (.shared 1) 1) := by decide +kernel

theorem sampleAt_accept : ∃ db', acceptInTx ⟨60002, 60002⟩ (sampleAt 3)
    ⟨[⟨7, .active, .driver, true⟩], [⟨7, 4, true⟩]⟩ 20 7 (.shared 1) =
      .ok (db', ⟨.ok (.shared 1) 1 false, []⟩) :=
  Tx.ok_of_result? (by decide +kernel)

theorem sampleOutcome_fromServer :
    FromServer sampleTrace (sampleAt 6) 7 (.applyOutcome sampleOutcome) := by
  obtain ⟨db', hok⟩ := sampleAt_accept
  rw [sampleOutcome_eq]
  exact .assigned (sampleAt_mem (k := 3) (by decide)) rfl hok (sampleAt_committed (by decide))

/-- Both echoes were sent. -/
theorem sampleEcho_sent : ∃ db' r, confirmStop ⟨60003, 60003⟩ (sampleAt 4) ⟨1, 7, 0, .pickup⟩ =
    .ok (db', r) ∧ r.echo 60003 ⟨1, 7, 0, .pickup⟩ = some sampleEcho := by
  have h : (confirmStop ⟨60003, 60003⟩ (sampleAt 4) ⟨1, 7, 0, .pickup⟩).result?.bind
      (fun r ↦ r.echo 60003 ⟨1, 7, 0, .pickup⟩) = some sampleEcho := by decide +kernel
  obtain ⟨r, hr, hecho⟩ := Option.bind_eq_some_iff.mp h
  obtain ⟨db', hok⟩ := Tx.ok_of_result? hr
  exact ⟨db', r, hok, hecho⟩

theorem sampleEcho'_sent : ∃ db' r, confirmStop ⟨60004, 60004⟩ (sampleAt 5) ⟨1, 7, 1, .pickup⟩ =
    .ok (db', r) ∧ r.echo 60004 ⟨1, 7, 1, .pickup⟩ = some sampleEcho' := by
  have h : (confirmStop ⟨60004, 60004⟩ (sampleAt 5) ⟨1, 7, 1, .pickup⟩).result?.bind
      (fun r ↦ r.echo 60004 ⟨1, 7, 1, .pickup⟩) = some sampleEcho' := by decide +kernel
  obtain ⟨r, hr, hecho⟩ := Option.bind_eq_some_iff.mp h
  obtain ⟨db', hok⟩ := Tx.ok_of_result? hr
  exact ⟨db', r, hok, hecho⟩

theorem sampleEcho_fromServer :
    FromServer sampleTrace (sampleAt 6) 7 (.applyServerEcho sampleEcho) := by
  obtain ⟨db', r, hok, hecho⟩ := sampleEcho_sent
  exact .echo (sampleAt_mem (k := 4) (by decide)) rfl rfl hok hecho

/-- The driver accepts, is assigned and confirms the first stop. -/
def sampleCalls : List Input :=
  [.applyOffer sampleOffer, .accept, .applyOutcome sampleOutcome, .applyServerEcho sampleEcho]

def sampleScreen : Timeline := sampleCalls.foldl Timeline.next (.start true)

/-- The outcome delivered once more takes the first stop back. -/
theorem duplicated_outcome_rewinds : ¬ ∀ (s₀ s : Db) (tr : List (Db × Step)) (driverId : DriverId)
    (offerSender : Bool) (calls : List (Timeline × Input)) (h : Timeline), s₀.NoPools →
    Run (Rcab.step (D := ℕ) fun _ _ ↦ 0) s₀ tr s →
    Run (only Timeline.step fun _ i ↦ FromServer tr s driverId i) (.start offerSender) calls h →
    h.NeverRewinds := by
  intro h
  let again : Input := .applyOutcome sampleOutcome
  have hall : Enabled (fun _ i ↦ FromServer sampleTrace (sampleAt 6) 7 i) Timeline.next
      (.start true) (sampleCalls ++ [again]) :=
    ⟨sampleOffer_fromServer, .accept, sampleOutcome_fromServer, sampleEcho_fromServer,
      sampleOutcome_fromServer, trivial⟩
  have hrun : Run (only Timeline.step fun _ i ↦ FromServer sampleTrace (sampleAt 6) 7 i)
      (.start true) (traceOf Timeline.next (.start true) (sampleCalls ++ [again]))
      (sampleScreen.next again) := Run.of_enabled _ (fun _ _ h ↦ ⟨rfl, h⟩) _ hall
  have hnever := h .empty (sampleAt 6) sampleTrace 7 true _ _ Db.empty_noPools sampleTrace_run hrun
  have hback := (List.pairwise_cons.mp hnever).1 sampleScreen.now List.mem_cons_self 1 (.confirmed 0)
  exact hback (by decide +kernel) (by decide +kernel)

/-- Delivered once, the outcome leaves the confirmed stop shown. -/
theorem never_rewinds_sample : sampleScreen.NeverRewinds := by
  have hnone : ∀ {h : Timeline} {i : Input}, (∀ outcome, i ≠ .applyOutcome outcome) →
      (∀ a, i ≠ .applyAssignment a) → h.Current i := by
    intro h i hout hassign
    constructor
    · intro a ha
      cases i with
      | applyOutcome o => exact absurd rfl (hout o)
      | applyAssignment a => exact absurd rfl (hassign a)
      | _ => exact ha.elim
    · intro hs
      cases i with
      | applyOutcome o => exact absurd rfl (hout o)
      | _ => exact hs.elim
  have hcur : ((sampleCalls.take 2).foldl Timeline.next (.start true)).Current
      (.applyOutcome sampleOutcome) := by
    constructor
    · rintro a ⟨-, -, ha, -⟩ m hm
      obtain rfl := Option.some.inj ha
      revert m
      decide +kernel
    · rintro ⟨-, -, -, -, hne⟩
      exact absurd (by decide +kernel) (hne _ rfl (by decide))
  have hall : Enabled (fun h i ↦ FromServer sampleTrace (sampleAt 6) 7 i ∧ h.Current i)
      Timeline.next (.start true) sampleCalls := by
    refine ⟨⟨sampleOffer_fromServer, ?_⟩, ⟨.accept, ?_⟩, ⟨sampleOutcome_fromServer, hcur⟩,
      ⟨sampleEcho_fromServer, ?_⟩, trivial⟩
    all_goals exact hnone (fun _ h ↦ by cases h) (fun _ h ↦ by cases h)
  exact never_rewinds (D := ℕ) (fun _ _ ↦ 0) Db.empty_noPools sampleTrace_run 7 true
    (Run.of_enabled _ (fun _ _ h ↦ ⟨rfl, h⟩) sampleCalls hall)

end Rcab.DriverApp
