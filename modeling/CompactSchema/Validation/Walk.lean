import CompactSchema.Definition.Literal
import CompactSchema.Validation.Leaf
import CompactSchema.Validation.Outcome

set_option autoImplicit false

/-!
# Validation

A document is walked along its definition, members in their order and items by index, up to the
first value that is rejected. An optional member may be absent or null; a required one that is
absent is taken for null. Entries that are not declared do not count.

How a pattern is matched is left open: `Definition.reject?` compiles it each time, a validator
compiles it once. For this a pattern is known by its place in the definition.
-/

namespace CompactSchema

/-- The way to a definition inside of another one, the last step first: the position of a member,
    or zero for the element of an array. -/
abbrev Place := List Nat

namespace Definition

def isAbsent : Option Json → Bool
  | none | some .null => true
  | _ => false

section Walk

variable {m : Type → Type} [Monad m]

def walkItems (check : Json → m (Option Rejection)) (index : Nat) :
    List Json → m (Option Rejection)
  | [] => pure none
  | item :: items => do
    match ← check item with
    | some r => pure (some (r.under (.index index)))
    | none => walkItems check (index + 1) items

variable (isMatch : Place → PatternLiteral → String → m Bool) (o : Options)

def verdict (d : Definition) (accepted : Bool) : Option Rejection :=
  if accepted then none else some ⟨d, []⟩

mutual

def walk (place : Place) (d : Definition) (j : Json) : m (Option Rejection) :=
  match d with
  | primitive keyword => pure (verdict (primitive keyword) (keyword.accepts j))
  | range r => pure (verdict (range r) (r.accepts o j))
  | pattern literal =>
    match j with
    | .string s => do pure (verdict (pattern literal) (← isMatch place literal s))
    | _ => pure (verdict (pattern literal) false)
  | enumeration values => pure (verdict (enumeration values) (enumerates values j))
  | object members =>
    match j with
    | .object entries => walkMembers place 0 members entries
    | _ => pure (verdict (object members) false)
  | array element =>
    match j with
    | .array items => walkElement (0 :: place) element items
    | _ => pure (verdict (array element) false)

def walkMembers (place : Place) (index : Nat) (members : List (Member Definition))
    (entries : List (String × Json)) : m (Option Rejection) :=
  match members with
  | [] => pure none
  | ⟨name, optional, value⟩ :: members => do
    let entry := Json.lookup? name entries
    if optional && isAbsent entry then walkMembers place (index + 1) members entries
    else
      match ← walk (index :: place) value (entry.getD .null) with
      | some r => pure (some (r.under (.name name)))
      | none => walkMembers place (index + 1) members entries

def walkElement (place : Place) (element : Option Definition) (items : List Json) :
    m (Option Rejection) :=
  match element with
  | none => pure none
  | some element => walkItems (walk place element) 0 items

end

end Walk

def reject? (o : Options) (d : Definition) (j : Json) : Option Rejection :=
  Id.run (walk (fun _ literal s => pure (literal.isMatch s)) o [] d j)

def validate (o : Options) (d : Definition) (j : Json) : Outcome := ⟨d, d.reject? o j⟩

end Definition

end CompactSchema
