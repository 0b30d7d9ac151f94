import CompactSchema.Calendar
import CompactSchema.Definition.Basic
import CompactSchema.Json.Value
import CompactSchema.Unicode.Ranges

set_option autoImplicit false

/-!
# Primitive types, ranges and enumerations

Whether a single value satisfies a definition that has no parts. Whole numbers are compared
exactly; a whole number and a decimal bound are compared as binary numbers.
-/

namespace CompactSchema

/-- How documents are validated: `trim` leaves white space at the ends of a string out of its
    length. -/
structure Options where
  trim : Bool := false
deriving Repr, DecidableEq

namespace Keyword

def accepts : Keyword → Json → Bool
  | int, .number (.whole _) => true
  | double, .number _ => true
  | bool, .bool _ => true
  | string, .string _ => true
  | byte, .number (.whole i) => 0 ≤ i && i ≤ 255
  | date, .string s => Calendar.isDate s
  | datetime, .string s => Calendar.isMoment s
  | time, .string s => Calendar.isTime s
  | _, _ => false

end Keyword

inductive Magnitude
  | whole (value : Int)
  | float (value : Binary64)
deriving Repr, DecidableEq

namespace Magnitude

def compare? : Magnitude → Bound → Option Ordering
  | whole i, .int b => some (compare i b.toInt)
  | whole i, .float b => (Binary64.ofInt i).compare? b
  | float x, b => x.compare? b.toBinary64

def notBelow (m : Magnitude) (minimum : Option Bound) : Bool :=
  minimum.all fun b => m.compare? b ≠ some .lt

def notAbove (m : Magnitude) (maximum : Option Bound) : Bool :=
  maximum.all fun b => m.compare? b ≠ some .gt

end Magnitude

def Options.length (o : Options) (s : String) : Nat :=
  if o.trim then (Unicode.trim s.toList).length else s.length

namespace Range

/-- What the range compares: a whole number for `int`, any number for `double`, the length of
    a string for `string`. Other keywords have no ranges. -/
def magnitude? (o : Options) : Keyword → Json → Option Magnitude
  | .int, .number (.whole i) => some (.whole i)
  | .double, .number n => some (.float n.toBinary64)
  | .string, .string s => some (.whole (o.length s))
  | _, _ => none

def accepts (o : Options) (r : Range) (j : Json) : Bool :=
  match magnitude? o r.keyword j with
  | some m => m.notBelow r.minimum && m.notAbove r.maximum
  | none => false

end Range

def enumerates (values : List Int64) : Json → Bool
  | .number (.whole i) => values.any (·.toInt = i)
  | _ => false

end CompactSchema
