import CompactSchema.Files.Tree

set_option autoImplicit false

/-!
# Changes to trees of files

Writing, making, linking and removing. Every change takes place at an instant of its own, and a
directory is modified when a node in it comes or goes. What takes several changes keeps those that
were made before one of them fails.
-/

namespace CompactSchema.Files.Tree

def tick (t : Tree) : Tree := { t with now := t.now + 1 }

def put (t : Tree) (p : Names) (node : Node) : Tree :=
  { t with nodes := (p, node) :: t.nodes.filter (·.1 ≠ p) }

def drop (t : Tree) (p : Names) : Tree :=
  { t with nodes := t.nodes.filter fun (q, _) => !p.isPrefixOf q }

def noteChange (t : Tree) (p : Names) : Tree :=
  match t.node? p with
  | some (.directory _) => t.put p (.directory t.now)
  | _ => t

def add (t : Tree) (p : Names) (node : Node) : Tree :=
  ((t.put p node).noteChange p.dropLast).tick

def writeBytes (t : Tree) (path : String) (bytes : ByteArray) : Except Fault Tree := do
  let p ← t.locate true path
  match t.node? p with
  | some (.directory _) => .error .isADirectory
  | some _ => .ok (t.put p (.file bytes t.now)).tick
  | none => .ok (t.add p (.file bytes t.now))

def writeText (t : Tree) (path text : String) : Except Fault Tree := t.writeBytes path text.toUTF8

def setModified (t : Tree) (path : String) (modified : Instant) : Except Fault Tree := do
  match ← t.find path with
  | (p, .file bytes _) => .ok (t.put p (.file bytes modified))
  | (p, .directory _) => .ok (t.put p (.directory modified))
  | (_, .link _) => .error .notFound

def remove (t : Tree) (path : String) : Except Fault Tree := do
  match ← t.entry? (segmentsOf path) with
  | none => .error .isADirectory
  | some (p, slash) =>
    match t.node? p with
    | none => .error .notFound
    | some (.directory _) => .error .isADirectory
    | some _ =>
      if slash then .error .notADirectory else .ok ((t.drop p).noteChange p.dropLast).tick

def makeLink (t : Tree) (path target : String) : Except Fault Tree := do
  match ← t.entry? (segmentsOf path) with
  | none => .error .alreadyExists
  | some (p, slash) =>
    match t.node? p with
    | some _ => .error .alreadyExists
    | none => if slash then .error .notFound else .ok (t.add p (.link target))

def makeDir (t : Tree) (path : List String) : Except Fault Tree :=
  let made := do
    match ← t.entry? path with
    | none => .error .alreadyExists
    | some (p, _) =>
      match t.node? p with
      | some _ => .error .alreadyExists
      | none => .ok (t.add p (.directory t.now))
  match made, t.walk false linkLimit (t.origin path) path with
  | .error .alreadyExists, .ok q => if t.isDirectory q then .ok t else .error .alreadyExists
  | result, _ => result

/-- A change that a fault does not undo as far as it was made. -/
abbrev Change := Except Fault Unit × Tree

def atOnce (t : Tree) : Except Fault Tree → Change
  | .ok changed => (.ok (), changed)
  | .error fault => (.error fault, t)

/-- Makes the first of some directories after those behind it, which lie above, as far as they are
    missing. -/
def makeDirsBelow (t : Tree) : List (List String) → Change
  | [] => (.ok (), t)
  | path :: above =>
    match t.makeDir path with
    | .error .notFound =>
      match t.makeDirsBelow above with
      | (.ok (), t) => t.atOnce (t.makeDir path)
      | failed => failed
    | result => t.atOnce result

/-- The paths that end in the names of a path, given last segment first, longest one first. -/
def pathsTo : List String → List (List String)
  | [] => []
  | name :: above =>
    if name = "" || name = "." then pathsTo above else (name :: above).reverse :: pathsTo above

def above (path : List String) : List (List String) := (pathsTo path.reverse).tail

def makeDirs (t : Tree) (path : String) : Change :=
  if path.isEmpty then (.ok (), t)
  else t.makeDirsBelow (segmentsOf path :: above (segmentsOf path))

/-- Writes a file into a directory that is made if it is missing, and dates it back or ahead. -/
def provide (t : Tree) (path : String) (bytes : ByteArray) (modified : Option Instant) : Change :=
  match t.makeDirsBelow (above (segmentsOf path)) with
  | (.ok (), t) =>
    t.atOnce do
      let t ← t.writeBytes path bytes
      match modified with
      | some modified => t.setModified path modified
      | none => .ok t
  | failed => failed

def change (f : Tree → Change) : StateM Tree (Except Fault Unit) := f

instance : Access (StateM Tree) where
  canonical path := do pure ((← get).canonical path)
  modified path := do pure ((← get).modified path)
  read path := do pure ((← get).readText path)
  makeDirs path := change (·.makeDirs path)
  write path text := change fun t => t.atOnce (t.writeText path text)

end CompactSchema.Files.Tree
