import CompactSchema.Diagnostic
import CompactSchema.Json.Reader
import CompactSchema.Validation.Walk

set_option autoImplicit false

/-!
# Validating texts

A document given as text against a definition given as text. The definition is read first.
-/

namespace CompactSchema

inductive TextFault
  | unreadable (fault : SyntaxError)
  | noDocument (message : String)
  | rejected (rejection : Rejection)
deriving Repr

namespace TextFault

def message : TextFault → String
  | unreadable fault => fault.report
  | noDocument message => "error parsing JSON: " ++ message
  | rejected rejection => rejection.message

def causes : TextFault → Nat
  | unreadable fault => fault.cause.causes + 1
  | noDocument _ | rejected _ => 1

end TextFault

def validateText (schema json : String) : Except TextFault Unit := do
  let definition ← (Definition.ofText schema).mapError .unreadable
  let document ← (Json.ofText json).mapError .noDocument
  match definition.reject? {} document with
  | some rejection => .error (.rejected rejection)
  | none => .ok ()

end CompactSchema
