import CompactSchema.Number.Decimal

set_option autoImplicit false

/-!
# Documents

A document is a JSON value. Whole numbers stay apart from the others, and an object keeps all of
its entries; of several entries with one name the last one counts.
-/

namespace CompactSchema

inductive JsonNumber
  | whole (value : Int)
  | float (value : Binary64)
deriving Repr, DecidableEq

namespace JsonNumber

def toBinary64 : JsonNumber → Binary64
  | whole i => .ofInt i
  | float x => x

end JsonNumber

inductive Json
  | null
  | bool (value : Bool)
  | number (value : JsonNumber)
  | string (text : String)
  | array (items : List Json)
  | object (entries : List (String × Json))
deriving Repr

namespace Json

/-- The value of the last entry with the given name. -/
def lookup? (name : String) : List (String × Json) → Option Json
  | [] => none
  | (key, value) :: entries =>
    (lookup? name entries).or (if key = name then some value else none)

end Json

end CompactSchema
