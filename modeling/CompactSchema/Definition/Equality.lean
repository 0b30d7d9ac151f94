import CompactSchema.Definition.Basic

set_option autoImplicit false

/-!
# Equality of definitions

Two definitions are equal when they have the same shape, decimal bounds are equal as numbers,
and every member of an object occurs as often in the one object as in the other. The order of
members does not count. A bound that is not a number is equal to nothing, itself included.
-/

namespace CompactSchema

def Bound.equal : Bound → Bound → Bool
  | .int i, .int j => i = j
  | .float x, .float y => x.equal y
  | _, _ => false

def Bound.equal? : Option Bound → Option Bound → Bool
  | none, none => true
  | some a, some b => a.equal b
  | _, _ => false

def Range.equal (r s : Range) : Bool :=
  r.keyword = s.keyword && Bound.equal? r.minimum s.minimum && Bound.equal? r.maximum s.maximum

namespace Member

variable {α : Type}

def equal (same : α → α → Bool) (m n : Member α) : Bool :=
  m.name = n.name && m.optional = n.optional && same m.value n.value

def count (same : α → α → Bool) (m : Member α) (members : List (Member α)) : Nat :=
  members.countP (·.equal same m)

/-- As many members here as there, and each one from here as often there as here. -/
def sameCounts (same : α → α → Bool) (here there : List (Member α)) : Bool :=
  here.length = there.length && here.all fun m => m.count same here = m.count same there

end Member

namespace Definition

def equalWithin : Nat → Definition → Definition → Bool
  | 0, _, _ => false
  | n + 1, a, b =>
    match a, b with
    | primitive k, primitive l => k = l
    | range r, range s => r.equal s
    | pattern p, pattern q => p = q
    | object members, object others => Member.sameCounts (equalWithin n) members others
    | enumeration values, enumeration others => values = others
    | array none, array none => true
    | array (some element), array (some other) => equalWithin n element other
    | _, _ => false

def equal (a b : Definition) : Bool := equalWithin (max a.depth b.depth) a b

end Definition

end CompactSchema
