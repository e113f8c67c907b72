import Mathlib.Data.Finmap
import Rcab.Outbox.Jobs

/-!
# `driver:state:<id>`

The hash Redis holds for a driver: their presence, and the trip they are bound to as the guard table
says.  A key without a hash is the empty hash.
-/

namespace Rcab.Drivers

/-- The fields of `driver:state:<id>`. -/
inductive StateField where
  | availability | lastSeen | sessionId
  /-- The projection of `driver_active_assignment`. -/
  | currentRideId
deriving DecidableEq, Repr

abbrev StateHash := Finmap fun _ : StateField ↦ String

/-- What follows `driver:state:` in a key: the id of a driver, or a text that is no uuid. -/
inductive StateKey where
  | driver (id : DriverId)
  | other (suffix : String)
deriving DecidableEq, Repr

/-- What a key that starts with `driver:state:` holds. -/
inductive StateValue where
  | hash (fields : StateHash)
  | notAHash
deriving DecidableEq

end Rcab.Drivers
