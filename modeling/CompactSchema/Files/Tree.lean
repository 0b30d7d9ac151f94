import CompactSchema.Files.Access

set_option autoImplicit false

/-!
# Trees of files

A file system as a value: the nodes under the root directory by their names, the working
directory, and a clock that goes on with every change. `Tree.locate` leads from a path to the
names of a node, through links; the node itself may be missing, the directory above it may not.
-/

namespace CompactSchema.Files

abbrev Names := List String

inductive Node
  | file (bytes : ByteArray) (modified : Instant)
  | directory (modified : Instant)
  | link (target : String)

structure Tree where
  nodes : List (Names × Node)
  workingDirectory : Names
  now : Instant

def segments : List Char → List (List Char)
  | [] => [[]]
  | c :: cs =>
    if c = '/' then [] :: segments cs
    else
      match segments cs with
      | [] => [[c]]
      | s :: ss => (c :: s) :: ss

def segmentsOf (path : String) : List String := (segments path.toList).map String.ofList

def isAbsolute (path : List String) : Bool := path.head? = some "" && 1 < path.length

def checked (path : List String) : Except Fault (List String) :=
  if path.any (·.toList.contains '\x00') then .error .nulInName
  else if path = [""] then .error .notFound
  else if 4096 < (path.map (·.utf8ByteSize + 1)).sum then .error .nameTooLong
  else .ok path

def Names.text (p : Names) : String := "/" ++ String.intercalate "/" p

namespace Tree

def empty (workingDirectory : Names) (now : Instant) : Tree where
  nodes := (List.range (workingDirectory.length + 1)).map fun n =>
    (workingDirectory.take n, .directory now)
  workingDirectory
  now

def node? (t : Tree) (p : Names) : Option Node := t.nodes.lookup p

def isDirectory (t : Tree) (p : Names) : Bool :=
  match t.node? p with
  | some (.directory _) => true
  | _ => false

def origin (t : Tree) (path : List String) : Names :=
  if isAbsolute path then [] else t.workingDirectory

/-- Goes on from the directory `p` by segments, through at most `links` links. Where a file is to be
    `made`, the last segment has to be its name. -/
def walk (t : Tree) (made : Bool) (links : Nat) (p : Names) (todo : List String) :
    Except Fault Names :=
  match todo with
  | [] => .ok p
  | name :: rest =>
    if name = "" then t.walk made links p rest
    else if made && rest.all (· = "") && (!rest.isEmpty || name = "." || name = "..") then
      .error .isADirectory
    else if name = "." then t.walk made links p rest
    else if name = ".." then t.walk made links p.dropLast rest
    else if 255 < name.utf8ByteSize then .error .nameTooLong
    else
      let q := p ++ [name]
      match t.node? q with
      | none => if rest.isEmpty then .ok q else .error .notFound
      | some (.file _ _) => if rest.isEmpty then .ok q else .error .notADirectory
      | some (.directory _) => t.walk made links q rest
      | some (.link target) =>
        match links with
        | 0 => .error .tooManyLinks
        | links + 1 =>
          let path := segmentsOf target
          t.walk made links (if isAbsolute path then [] else p) (path ++ rest)
termination_by (links, todo.length)

def linkLimit : Nat := 40

/-- The names of what stands at a path, links followed, or would stand there. -/
def locate (t : Tree) (made : Bool) (path : String) : Except Fault Names := do
  let path ← checked (segmentsOf path)
  t.walk made linkLimit (t.origin path) path

/-- The names that the last segment of a path stands for in the directory above it, no link
    followed there, and whether slashes follow it. None if it is no name. -/
def entry? (t : Tree) (path : List String) : Except Fault (Option (Names × Bool)) := do
  let path ← checked path
  match path.reverse.dropWhile (· = "") with
  | [] => .ok none
  | name :: above =>
    let p ← t.walk false linkLimit (t.origin path) (above.reverse ++ [""])
    if name = "." || name = ".." then .ok none
    else if 255 < name.utf8ByteSize then .error .nameTooLong
    else .ok (some (p ++ [name], path.getLast? = some ""))

def find (t : Tree) (path : String) : Except Fault (Names × Node) := do
  let p ← t.locate false path
  match t.node? p with
  | some node => .ok (p, node)
  | none => .error .notFound

def canonical (t : Tree) (path : String) : Except Fault String :=
  (t.find path).map fun (p, _) => Names.text p

def modified (t : Tree) (path : String) : Except Fault Instant := do
  match (← t.find path).2 with
  | .file _ modified | .directory modified => .ok modified
  | .link _ => .error .notFound

def readBytes (t : Tree) (path : String) : Except Fault ByteArray := do
  match (← t.find path).2 with
  | .file bytes _ => .ok bytes
  | .directory _ => .error .isADirectory
  | .link _ => .error .notFound

def readText (t : Tree) (path : String) : Except Fault String := do
  match String.fromUTF8? (← t.readBytes path) with
  | some text => .ok text
  | none => .error .notText

end Tree

end CompactSchema.Files
