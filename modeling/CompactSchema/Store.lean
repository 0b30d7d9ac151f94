import CompactSchema.Definition.Literal
import CompactSchema.Definition.Serialized
import CompactSchema.Diagnostic
import CompactSchema.Digest
import CompactSchema.Files.Access
import CompactSchema.Validation.Walk

set_option autoImplicit false

/-!
# Stores of definitions

A store reads definitions from notation files and keeps them twice: in memory, by the canonical
path of the file and the instant at which it was modified, and serialized in a directory of its
own, under the digest of the canonical path. What is kept in memory counts as long as the instant
is the same, what is kept in the directory as long as it is not older than the notation file.
-/

namespace CompactSchema

namespace Store

inductive Fault
  | inaccessible (path : String) (fault : Files.Fault)
  | unreadable (path : String) (fault : SyntaxError)
  | rejected (rejection : Rejection)
deriving Repr

namespace Fault

def message : Fault → String
  | inaccessible path fault => "error accessing " ++ path ++ ": " ++ fault.message
  | unreadable path fault => "error parsing " ++ path ++ ": " ++ fault.report
  | rejected rejection => rejection.message

def causes : Fault → Nat
  | inaccessible _ _ | rejected _ => 1
  | unreadable _ fault => fault.cause.causes + 1

end Fault

/-- A definition in memory; `load` tells the loads of one store apart. -/
structure Entry where
  modified : Files.Instant
  definition : Definition
  load : Nat
deriving Repr

end Store

/-- `directory` holds the serialized definitions, `entries` those in memory by canonical path. -/
structure Store where
  directory : String
  options : Options
  entries : List (String × Store.Entry)
  loads : Nat
deriving Repr

namespace Store

def defaultDirectory : String := "/tmp/pm1"

def new (directory : Option String) (options : Options) : Store where
  directory :=
    match directory with
    | some path => if path.isEmpty then defaultDirectory else path
    | none => defaultDirectory
  options
  entries := []
  loads := 0

def cachePath (s : Store) (schema : String) : String :=
  Files.join s.directory (Digest.ofText schema ++ ".json")

def entry? (s : Store) (schema : String) : Option Entry := s.entries.lookup schema

def current? (s : Store) (schema : String) (modified : Files.Instant) : Option Entry :=
  (s.entry? schema).filter (·.modified = modified)

def remember (s : Store) (schema : String) (modified : Files.Instant) (d : Definition) :
    Entry × Store :=
  let entry : Entry := ⟨modified, d, s.loads⟩
  (entry,
    { s with entries := (schema, entry) :: s.entries.filter (·.1 ≠ schema), loads := s.loads + 1 })

section Resolving

variable {m : Type → Type} [Monad m] [Files.Access m]

def find (path : String) : m (Except Fault (String × Files.Instant)) := do
  match ← Files.Access.canonical path with
  | .error fault => pure (.error (.inaccessible path fault))
  | .ok schema =>
    match ← Files.Access.modified schema with
    | .error fault => pure (.error (.inaccessible schema fault))
    | .ok modified => pure (.ok (schema, modified))

/-- The definition in a cache file that is not older than `since`. A file that is missing, older
    or not readable does not count. What is logged about it is left out, also the warning that a
    file holds no definition. -/
def readCache (cache : String) (since : Files.Instant) : m (Option Definition) := do
  match ← Files.Access.modified cache with
  | .error _ => pure none
  | .ok modified =>
    if modified < since then pure none
    else
      match ← Files.Access.read cache with
      | .error _ => pure none
      | .ok text => pure (Definition.deserialize? text)

def writeCache (s : Store) (schema : String) (d : Definition) : m (Except Fault Unit) := do
  match ← Files.Access.makeDirs s.directory with
  | .error fault => pure (.error (.inaccessible s.directory fault))
  | .ok () =>
    let cache := s.cachePath schema
    match ← Files.Access.write cache d.serialize with
    | .error fault => pure (.error (.inaccessible cache fault))
    | .ok () => pure (.ok ())

def compile (s : Store) (schema : String) : m (Except Fault Definition) := do
  match ← Files.Access.read schema with
  | .error fault => pure (.error (.inaccessible schema fault))
  | .ok text =>
    match Definition.ofText text with
    | .error fault => pure (.error (.unreadable schema fault))
    | .ok d =>
      match ← s.writeCache schema d with
      | .error fault => pure (.error fault)
      | .ok () => pure (.ok d)

def load (s : Store) (schema : String) (modified : Files.Instant) :
    m (Except Fault Definition) := do
  match ← readCache (s.cachePath schema) modified with
  | some d => pure (.ok d)
  | none => s.compile schema

def resolve (s : Store) (path : String) : m (Except Fault Entry × Store) := do
  match ← find path with
  | .error fault => pure (.error fault, s)
  | .ok (schema, modified) =>
    match s.current? schema modified with
    | some entry => pure (.ok entry, s)
    | none =>
      match ← s.load schema modified with
      | .error fault => pure (.error fault, s)
      | .ok d =>
        let (entry, s) := s.remember schema modified d
        pure (.ok entry, s)

def check (s : Store) (path : String) (document : Json) : m (Except Fault Unit × Store) := do
  let (result, s) ← s.resolve path
  match result with
  | .error fault => pure (.error fault, s)
  | .ok entry =>
    match entry.definition.reject? s.options document with
    | some rejection => pure (.error (.rejected rejection), s)
    | none => pure (.ok (), s)

end Resolving

end Store

end CompactSchema
