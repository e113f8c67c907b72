import Mathlib.Data.Finmap
import Std.Data.String.ToNat
import Rcab.Db.Schema

/-!
# The projection of a pool

`pool-projection.service.ts`: the script that writes a committed row of `shared_rides` to the hash
`pool:<id>`, unless the hash has that version or a newer one.  A key without a hash is the empty
hash.  The time to live the script sets is left out.
-/

namespace Rcab

/-- The text of `pool_state`. -/
def PoolState.text : PoolState → String
  | .open_ => "open"
  | .closedFull => "closed_full"
  | .closedTimeout => "closed_timeout"
  | .closedStarted => "closed_started"
  | .aborted => "aborted"
  | .completed => "completed"

namespace Matching

/-- The fields of `pool:<id>`. -/
inductive PoolField where
  | version | state | seatCount | maxSeats | claimedBy
deriving DecidableEq, Repr

abbrev PoolHash := Finmap fun _ : PoolField ↦ String

/-- `tonumber`, of the integers the service writes. -/
def tonumber (s : String) : Option ℕ := s.toNat?

/-- The script's `ARGV`, without the time to live. -/
structure PoolArgs where
  version : String
  state : String
  seatCount : String
  maxSeats : String
  /-- `''` when the pool is not claimed. -/
  claimedBy : String

/-- The stored version is the incoming one or a newer one. -/
def PoolHash.current (hash : PoolHash) (version : String) : Bool :=
  (hash.lookup .version).any fun cur ↦ (tonumber cur).any fun stored ↦
    (tonumber version).any fun incoming ↦ incoming ≤ stored

/-- `PROJECT_POOL_EVAL`: the hash after the script, and whether it was written. -/
def projectPoolEval (hash : PoolHash) (args : PoolArgs) : PoolHash × Bool :=
  if hash.current args.version then (hash, false)
  else
    let hash := (((hash.insert .version args.version).insert .state args.state).insert
      .seatCount args.seatCount).insert .maxSeats args.maxSeats
    if args.claimedBy ≠ "" then (hash.insert .claimedBy args.claimedBy, true) else (hash, true)

/-- `write`: the projection of a committed row. -/
def write (hash : PoolHash) (pool : SharedRide) : PoolHash × Bool :=
  projectPoolEval hash
    { version := toString pool.stateVersion
      state := pool.poolState.text
      seatCount := toString pool.seatCount
      maxSeats := toString pool.maxSeats
      claimedBy := (pool.claimedByDriverId.map toString).getD "" }

end Matching

end Rcab
