import Rcab.Matching.RideStop
import Rcab.Realtime.Protocol

/-!
# Snapshots

`realtime-snapshot.service.ts`: what a socket may follow, and what it is told of it, read from
committed rows in one instant.  Vehicles are left out.
-/

namespace Rcab.Realtime

open Matching (findByRideId)

/-! ## Authorization -/

/-- Any membership row, active or released. -/
def isPoolMember (db : Db) (poolId : PoolId) (passengerId : PassengerId) : Prop :=
  (db.poolMember.get (poolId, passengerId)).isSome

instance {db : Db} {poolId : PoolId} {passengerId : PassengerId} :
    Decidable (isPoolMember db poolId passengerId) :=
  inferInstanceAs (Decidable (_ = true))

/-- The ride's passenger or its bound driver. -/
def Party (userId : Uuid) (r : Ride) : Prop := r.passengerId = userId ∨ r.driverId = some userId

instance {userId : Uuid} : DecidablePred (Party userId) := fun _ ↦
  inferInstanceAs (Decidable (_ ∨ _))

def isRideParty (db : Db) (rideId : RideId) (userId : Uuid) : Prop :=
  db.rides.Any fun r ↦ r.id = rideId ∧ Party userId r

instance {db : Db} {rideId : RideId} {userId : Uuid} : Decidable (isRideParty db rideId userId) :=
  inferInstanceAs (Decidable (db.rides.Any _))

/-! ## Snapshots -/

def memberItineraryStop (passengerId : PassengerId) (s : RideStop) : MemberItineraryStop where
  sequenceIndex := s.sequenceIndex
  type := s.type
  mine := s.passengerId = passengerId
  confirmed := s.confirmedAt.isSome
  point := if s.passengerId = passengerId then some s.point else none

/-- The pool as one member sees it; nothing when the caller is not a member. -/
def poolSnapshot (db : Db) (poolId : PoolId) (passengerId : PassengerId) : Option PoolSnapshot :=
  match db.sharedRides.get poolId, db.poolMember.get (poolId, passengerId) with
  | some row, some m => some
      { poolUpdatePayload row with
        completedAt := row.completedAt
        me :=
          { active := m.active
            quotedFareCents := m.agreedFareCents.or m.quotedFareCents
            pickup := m.origin
            dropoff := m.dest }
        itinerary := (findByRideId db poolId).map (memberItineraryStop passengerId) }
  | _, _ => none

/-- A solo ride for its passenger or bound driver; nothing otherwise. -/
def rideSnapshot (db : Db) (rideId : RideId) (userId : Uuid) : Option RideSnapshot :=
  match db.rides.get rideId with
  | none => none
  | some r =>
      if Party userId r then some
        { rideId := r.id
          version := rideStatusVersion r.status.text
          status := r.status.text
          terminal := r.status.text ∈ terminalRideStatuses
          driverId := r.driverId
          pickup := r.origin
          dropoff := r.dest
          fareCents := r.fareCents }
      else none

/-- The fields of the pool every member may see. -/
def poolUpdate (db : Db) (poolId : PoolId) : Option PoolUpdatePayload :=
  (db.sharedRides.get poolId).map poolUpdatePayload

end Rcab.Realtime
