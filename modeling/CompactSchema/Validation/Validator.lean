import CompactSchema.Validation.Walk

set_option autoImplicit false

/-!
# Validators

A validator checks any number of documents against one definition. Each pattern is compiled when
it is first needed and kept under its place; a pattern that does not compile is kept as such.
-/

namespace CompactSchema

structure Validator where
  definition : Definition
  options : Options
  compiled : List (Place × Option Pattern.Node)

namespace Validator

def new (definition : Definition) (options : Options) : Validator := ⟨definition, options, []⟩

/-- Matches a pattern with its compiled form, which is made and kept if there is none yet. -/
def isMatch (place : Place) (literal : PatternLiteral) (s : String) :
    StateM (List (Place × Option Pattern.Node)) Bool := do
  match (← get).lookup place with
  | some node => pure (PatternLiteral.matchesNode node s)
  | none =>
    let node := literal.compile?
    modify ((place, node) :: ·)
    pure (PatternLiteral.matchesNode node s)

def validate (v : Validator) (j : Json) : Outcome × Validator :=
  let (rejection, compiled) := (Definition.walk isMatch v.options [] v.definition j).run v.compiled
  (⟨v.definition, rejection⟩, { v with compiled })

def validateAll (v : Validator) : List Json → List Outcome
  | [] => []
  | j :: js =>
    let (outcome, v) := v.validate j
    outcome :: validateAll v js

end Validator

end CompactSchema
