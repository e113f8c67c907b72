import Mathlib.Data.Rat.Defs
import Rcab.Db.Schema

/-!
# The members a pool listed

`shared_rides.members` before migration 0016: a JSON column anything may have been written to, and
`_legacy_member`, its entries.
-/

namespace Rcab.Migrations

/-! ## JSON -/

inductive Json where
  | null
  | bool (b : Bool)
  | number (q : ℚ)
  | string (text : String)
  | array (elems : List Json)
  | object (fields : List (String × Json))

/-- `jsonb_typeof`. -/
inductive JsonType where
  | null | boolean | number | string | array | object
deriving DecidableEq, Repr

namespace Json

def typeof : Json → JsonType
  | .null => .null
  | .bool _ => .boolean
  | .number _ => .number
  | .string _ => .string
  | .array _ => .array
  | .object _ => .object

/-- The operator `->`: a field, of an object that has it. -/
def get (field : String) : Json → Option Json
  | .object fields => fields.lookup field
  | _ => none

/-- The operator `->>`, of a string.  The text of any other value is neither a uuid nor a timestamp,
which is all that is asked of it. -/
def text (field : String) (elem : Json) : Option String :=
  match elem.get field with
  | some (.string text) => some text
  | _ => none

/-- `jsonb_array_elements(CASE WHEN jsonb_typeof(members) = 'array' THEN members ELSE '[]' END)`. -/
def elements : Json → List Json
  | .array elems => elems
  | _ => []

end Json

/-! ## Casts -/

def hexDigit (c : Char) : Option ℕ :=
  if '0' ≤ c ∧ c ≤ '9' then some (c.toNat - '0'.toNat)
  else if 'a' ≤ c ∧ c ≤ 'f' then some (c.toNat - 'a'.toNat + 10)
  else if 'A' ≤ c ∧ c ≤ 'F' then some (c.toNat - 'A'.toNat + 10)
  else none

/-- `CASE WHEN text ~* '^[0-9a-f]{8}-[0-9a-f]{4}-[0-9a-f]{4}-[0-9a-f]{4}-[0-9a-f]{12}$' THEN
text::uuid END`. -/
def uuid (text : String) : Option Uuid := do
  let groups := text.toList.splitOn '-'
  if groups.map List.length = [8, 4, 4, 4, 12] then
    let digits ← groups.flatten.mapM hexDigit
    return digits.foldl (fun n d ↦ 16 * n + d) 0
  else none

/-- `text ~ '^\d{4}-\d{2}-\d{2}T'`. -/
def DateTime (text : String) : Prop :=
  match text.toList with
  | y₁ :: y₂ :: y₃ :: y₄ :: '-' :: m₁ :: m₂ :: '-' :: d₁ :: d₂ :: 'T' :: _ =>
      [y₁, y₂, y₃, y₄, m₁, m₂, d₁, d₂].all Char.isDigit
  | _ => False

instance : DecidablePred DateTime := fun text ↦ by
  unfold DateTime
  split <;> infer_instance

/-- The other two casts, `none` where PostgreSQL raises an error: to a `float8`, whose values `F`
are only copied, and to a `timestamptz`. -/
structure Casts (F : Type) where
  float8 : ℚ → Option F
  timestamptz : String → Option Time

/-! ## The entries -/

/-- A row of `shared_rides`, with the columns the migration reads. -/
structure SharedRide where
  rideId : PoolId
  seatCount : Int
  maxSeats : Int
  poolState : PoolState
  createdAt : Time
  members : Json

/-- A row of `_legacy_member`. -/
structure LegacyMember where
  poolId : PoolId
  poolState : PoolState
  poolCreatedAt : Time
  /-- The entry's position in the list, from 1. -/
  ord : ℕ
  elem : Json
  /-- `NULL` when the entry has no uuid there. -/
  passengerId : Option PassengerId

namespace LegacyMember

/-- An entry of a pool. -/
def of (s : SharedRide) (elem : Json) (ord : ℕ) : LegacyMember where
  poolId := s.rideId
  poolState := s.poolState
  poolCreatedAt := s.createdAt
  ord := ord
  elem := elem
  passengerId := (elem.text "passenger_id").bind uuid

/-- The columns a pool's entries are grouped by. -/
def key (l : LegacyMember) : PoolId × Option PassengerId := (l.poolId, l.passengerId)

/-- `jsonb_typeof(l.elem->field) IS DISTINCT FROM 'number'`. -/
def NotNumber (l : LegacyMember) (field : String) : Prop :=
  (l.elem.get field).map Json.typeof ≠ some .number

instance {field : String} : DecidablePred (NotNumber · field) := fun _ ↦
  inferInstanceAs (Decidable (_ ≠ _))

/-- The entry lacks passenger or coordinates. -/
def Malformed (l : LegacyMember) : Prop :=
  l.passengerId = none ∨ l.NotNumber "origin_lat" ∨ l.NotNumber "origin_lng" ∨
    l.NotNumber "dest_lat" ∨ l.NotNumber "dest_lng"

instance : DecidablePred Malformed := fun _ ↦
  inferInstanceAs (Decidable (_ ∨ _ ∨ _ ∨ _ ∨ _))

variable {F : Type} (casts : Casts F)

/-- `(l.elem->>field)::float8`, of a number. -/
def coord (l : LegacyMember) (field : String) : Option F :=
  match l.elem.get field with
  | some (.number q) => casts.float8 q
  | _ => none

/-- `COALESCE(CASE WHEN … THEN (l.elem->>'joined_at')::timestamptz END, l.pool_created_at)`. -/
def joinedAt (l : LegacyMember) : Option Time :=
  match l.elem.text "joined_at" with
  | some text => if DateTime text then casts.timestamptz text else some l.poolCreatedAt
  | none => some l.poolCreatedAt

/-- Its well-formed fields can be cast. -/
structure Castable (l : LegacyMember) : Prop where
  coord : ∀ field ∈ ["origin_lat", "origin_lng", "dest_lat", "dest_lng"], ∀ q,
    l.elem.get field = some (.number q) → (casts.float8 q).isSome
  joinedAt : ∀ text, l.elem.text "joined_at" = some text → DateTime text →
    (casts.timestamptz text).isSome

end LegacyMember

/-- `_legacy_member`. -/
def legacyMembers (sharedRides : List SharedRide) : List LegacyMember :=
  sharedRides.flatMap fun s ↦ (s.members.elements.zipIdx 1).map fun (elem, ord) ↦ .of s elem ord

end Rcab.Migrations
