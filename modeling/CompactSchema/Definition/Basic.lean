import CompactSchema.Number.Decimal

set_option autoImplicit false

/-!
# Definitions

A definition says which values a place in a document takes: a primitive type, a range of it,
a text pattern, an object of named members, an enumeration of whole numbers, or an array.
-/

namespace CompactSchema

inductive Keyword
  | int
  | double
  | bool
  | string
  | byte
  | date
  | datetime
  | time
deriving Repr, DecidableEq

namespace Keyword

def all : List Keyword := [int, double, bool, string, byte, date, datetime, time]

def word : Keyword → String
  | int => "int"
  | double => "double"
  | bool => "bool"
  | string => "string"
  | byte => "byte"
  | date => "date"
  | datetime => "datetime"
  | time => "time"

def ofWord? (w : String) : Option Keyword := all.find? (·.word = w)

def acceptsRange : Keyword → Bool
  | int | double | string => true
  | _ => false

def hasDecimalBounds : Keyword → Bool
  | double => true
  | _ => false

end Keyword

inductive Bound
  | int (value : Int64)
  | float (value : Binary64)
deriving Repr, DecidableEq

namespace Bound

def toBinary64 : Bound → Binary64
  | int i => .ofInt i.toInt
  | float x => x

/-- A decimal keeps its point, so that it is read back as a decimal. -/
def text : Bound → String
  | int i => toString i.toInt
  | float x => x.boundText

end Bound

/-- A primitive type with an inclusive least and greatest value, of strings the length. -/
structure Range where
  keyword : Keyword
  minimum : Option Bound
  maximum : Option Bound
deriving Repr, DecidableEq

structure Flags where
  everywhere : Bool := false
  ignoreCase : Bool := false
  multiline : Bool := false
deriving Repr, DecidableEq

structure PatternLiteral where
  body : String
  flags : Flags
deriving Repr, DecidableEq

structure Member (α : Type) where
  name : String
  optional : Bool
  value : α
deriving Repr, DecidableEq

inductive Definition
  | primitive (keyword : Keyword)
  | range (range : Range)
  | pattern (literal : PatternLiteral)
  | object (members : List (Member Definition))
  | enumeration (values : List Int64)
  | array (element : Option Definition)
deriving Repr

namespace Definition

mutual

def depth : Definition → Nat
  | object members => membersDepth members + 1
  | array element => elementDepth element + 1
  | _ => 1

def membersDepth : List (Member Definition) → Nat
  | [] => 0
  | ⟨_, _, value⟩ :: members => max value.depth (membersDepth members)

def elementDepth : Option Definition → Nat
  | none => 0
  | some element => element.depth

end

end Definition

end CompactSchema
