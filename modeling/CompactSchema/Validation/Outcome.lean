import CompactSchema.Definition.Printer

set_option autoImplicit false

/-!
# Outcomes

A document is accepted, or it is rejected at the place of a definition that one of its values
does not satisfy. The place is the way down by member names and array indices.
-/

namespace CompactSchema

inductive Segment
  | name (text : String)
  | index (value : Nat)
deriving Repr, DecidableEq

def Segment.text : Segment → String
  | name text => text
  | index value => toString value

structure Rejection where
  declaration : Definition
  path : List Segment
deriving Repr

namespace Rejection

def under (r : Rejection) (s : Segment) : Rejection := ⟨r.declaration, s :: r.path⟩

/-- The way down with a slash in front of each step; a slash alone at the top. -/
def location (r : Rejection) : String :=
  "/" ++ String.intercalate "/" (r.path.map Segment.text)

def message (r : Rejection) : String :=
  "value at " ++ r.location ++ " does not satisfy " ++ r.declaration.text

end Rejection

structure Outcome where
  definition : Definition
  rejection : Option Rejection
deriving Repr

namespace Outcome

def success (o : Outcome) : Bool := o.rejection.isNone

def declaration (o : Outcome) : Definition :=
  match o.rejection with
  | some r => r.declaration
  | none => o.definition

def path (o : Outcome) : List Segment :=
  match o.rejection with
  | some r => r.path
  | none => []

def location (o : Outcome) : String := (Rejection.mk o.declaration o.path).location

def reason? (o : Outcome) : Option String := o.rejection.map Rejection.message

def text (o : Outcome) : String :=
  match o.rejection with
  | some r => r.message
  | none => "value satisfies " ++ o.definition.text

end Outcome

end CompactSchema
