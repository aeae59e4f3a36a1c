import OutlineServer.Keyed
import OutlineServer.Number.Shortest

/-!
# JSON values

Objects are kept in canonical form: fields in increasing order of their keys, each key once.  The
order in which fields arrived is never seen in an answer, so two objects with the same fields are
equal as values, and writing one is writing its fields as they stand.
-/
namespace OutlineServer

inductive Json where
  | null
  | bool (value : Bool)
  | int (value : Int)
  | float (value : Double)
  | str (value : Text)
  | arr (items : List Json)
  | obj (fields : List (Text × Json))
deriving Inhabited

/-- The fields of an object, in increasing order of their keys. -/
abbrev Fields := Keyed Json

namespace Json

/-- The object with these fields, given in any order. -/
def object (fields : List (Text × Json)) : Json := .obj (Keyed.ofList fields)

def strings (texts : List Text) : Json := .arr (texts.map .str)

def nat (n : Nat) : Json := .int n

def get? (key : Text) : Json → Option Json
  | .obj fields => Keyed.get? key fields
  | _ => none

def str? : Json → Option Text
  | .str value => some value
  | _ => none

def int? : Json → Option Int
  | .int value => some value
  | _ => none

def obj? : Json → Option Fields
  | .obj fields => some fields
  | _ => none

/-- Whether a value counts as true: everything but null, false, zero and the empty text, list and
object. -/
def truthy : Json → Bool
  | .null => false
  | .bool value => value
  | .int value => value != 0
  | .float (.finite _ rank) => rank.val != 0
  | .float _ => true
  | .str value => !value.isEmpty
  | .arr items => !items.isEmpty
  | .obj fields => !fields.isEmpty

end Json

end OutlineServer
