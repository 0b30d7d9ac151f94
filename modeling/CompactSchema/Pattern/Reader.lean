import CompactSchema.Pattern.Bracket
import CompactSchema.Pattern.Machine
import CompactSchema.Unicode.Letter

set_option autoImplicit false

/-!
# Reading patterns

A pattern is a choice of sequences of characters, classes, conditions and groups, each of which
may be repeated. There are no references back and no conditions on what stands further ahead or
behind. Why a pattern is refused is not told.
-/

namespace CompactSchema.Pattern

namespace Reader

/-- A node, the number of nested parts that it was written with, and whether it may be
    repeated. -/
structure Piece where
  node : Node
  height : Nat
  repeatable : Bool := true

/-- Pieces read one behind the other, the last one first. -/
def sequence (pieces : List Piece) : Piece :=
  match pieces with
  | [] => ⟨.empty, 0, true⟩
  | [piece] => piece
  | pieces =>
    ⟨.sequence (pieces.reverse.map (·.node)), (pieces.map (·.height)).foldl max 0 + 1, true⟩

def choice (branches : List Piece) : Piece :=
  match branches with
  | [] => ⟨.empty, 0, true⟩
  | [branch] => branch
  | branches =>
    ⟨.choice (branches.reverse.map (·.node)), (branches.map (·.height)).foldl max 0 + 1, true⟩

/-- What is still to be read, the settings that hold there, how many groups have been opened that
    are kept, and their names. -/
structure State where
  settings : Settings
  groups : Nat
  names : List (List Char)
  rest : List Char

def dot? (s : Settings) : Option CharSet :=
  if !s.wide then none
  else if s.dotAll then some CharSet.empty.compl
  else if s.returns then some (CharSet.compl (.union (.singleton '\n') (.singleton '\r')))
  else some (CharSet.singleton '\n').compl

def lineStart (s : Settings) : Look :=
  if s.multiline then (if s.returns then .returnStart else .lineStart) else .textStart

def lineEnd (s : Settings) : Look :=
  if s.multiline then (if s.returns then .returnEnd else .lineEnd) else .textEnd

def node? (s : Settings) : Atom → Option Node
  | .literal c byte =>
    if byte && !s.wide && '\x7f' < c then none
    else some (.ofSet (Bracket.fold s (.singleton c)) s.wide)
  | .set set => some (.ofSet set s.wide)
  | .look condition => some (.look condition)

def atom? (s : Settings) : List Char → Option (Node × List Char)
  | [] => none
  | '\\' :: cs => do
    let (atom, cs) ← Atom.escape? s cs
    some (← node? s atom, cs)
  | '.' :: cs => do some (.ofSet (← dot? s) true, cs)
  | '^' :: cs => some (.look (lineStart s), cs)
  | '$' :: cs => some (.look (lineEnd s), cs)
  | c :: cs => do some (← node? s (.literal c false), cs)

def digits (s : Settings) : Nat → Option Nat → List Char → Option Nat × List Char
  | 0, value, cs => (value, cs)
  | _ + 1, value, [] => (value, [])
  | fuel + 1, value, c :: cs =>
    if c.isDigit then
      digits s fuel (some (10 * value.getD 0 + (c.toNat - '0'.toNat))) (s.skip cs)
    else (value, c :: cs)

def count? (s : Settings) (cs : List Char) : Option (Nat × List Char) :=
  match digits s (cs.length + 1) none (cs.dropWhile Unicode.isBlank) with
  | (some n, rest) => if n < 2 ^ 32 then some (n, rest.dropWhile Unicode.isBlank) else none
  | (none, _) => none

def counts? (s : Settings) (cs : List Char) : Option ((Nat × Option Nat) × List Char) := do
  let (least, cs) ← count? s (s.skip cs)
  match cs with
  | ',' :: cs =>
    match s.skip cs with
    | '\x7d' :: cs => some ((least, none), s.skip cs)
    | cs => do
      let (most, cs) ← count? s cs
      match cs with
      | '\x7d' :: cs => if least ≤ most then some ((least, some most), s.skip cs) else none
      | _ => none
  | '\x7d' :: cs => some ((least, some least), s.skip cs)
  | _ => none

def preference (s : Settings) : List Char → Bool × List Char
  | '?' :: cs => (!s.swapGreed, cs)
  | cs => (s.swapGreed, cs)

def isNameChar (first : Bool) (c : Char) : Bool :=
  if first then c = '_' || Unicode.isLetter c
  else c = '_' || c = '.' || c = '[' || c = ']' || Unicode.isLetterOrNumber c

def groupName? (cs : List Char) : Option (List Char × List Char) :=
  let name := cs.takeWhile (· ≠ '>')
  match name, cs.dropWhile (· ≠ '>') with
  | c :: more, _ :: rest =>
    if isNameChar true c && more.all (isNameChar false) then some (name, rest) else none
  | _, _ => none

inductive Opening
  | change (state : State)
  | group (number : Option Nat) (state : State)

def opening? (state : State) (cs : List Char) : Option Opening :=
  let named := fun (cs : List Char) => do
    let (name, rest) ← groupName? cs
    if state.names.contains name then none
    else
      let number := state.groups + 1
      some (Opening.group (some number) ⟨state.settings, number, name :: state.names, rest⟩)
  match state.settings.skip cs with
  | '?' :: 'P' :: '<' :: cs => named cs
  | '?' :: '<' :: c :: cs => if c = '=' ∨ c = '!' then none else named (c :: cs)
  | '?' :: ')' :: _ => none
  | '?' :: cs => do
    let (settings, close, rest) ← state.settings.read? [] true cs
    let state := { state with settings, rest }
    some (if close = ')' then .change state else .group none state)
  | cs =>
    let number := state.groups + 1
    some (.group (some number) { state with groups := number, rest := cs })

/-- The last piece repeated; an alternative without a piece, or one that cannot be repeated, is
    refused. -/
def repeated? (pieces : List Piece) (least : Nat) (most : Option Nat) (short : Bool) :
    Option (List Piece) :=
  match pieces with
  | piece :: rest =>
    if piece.repeatable then
      some (⟨piece.node.repeated least most short, piece.height + 1, true⟩ :: rest)
    else none
  | [] => none

def choice? : Nat → List Piece → List Piece → State → Option (Piece × State)
  | 0, _, _, _ => none
  | fuel + 1, branches, pieces, state =>
    let s := state.settings
    let on := fun pieces rest => choice? fuel branches pieces { state with rest }
    let repeats := fun (least : Nat) (most : Option Nat) (rest : List Char) => do
      let (short, rest) := preference s rest
      on (← repeated? pieces least most short) rest
    let done := fun rest =>
      some (choice (sequence pieces :: branches), { state with rest })
    match s.skip state.rest with
    | [] => done []
    | ')' :: cs => done (')' :: cs)
    | '|' :: cs => choice? fuel (sequence pieces :: branches) [] { state with rest := cs }
    | '(' :: cs => do
      match ← opening? state cs with
      | .change changed => choice? fuel branches (⟨.empty, 0, false⟩ :: pieces) changed
      | .group number inner =>
        let (piece, inner) ← choice? fuel [] [] inner
        match inner.rest with
        | ')' :: rest =>
          let node := match number with
            | some number => .capture number piece.node
            | none => piece.node
          choice? fuel branches (⟨node, piece.height + 1, true⟩ :: pieces)
            { inner with settings := s, rest }
        | _ => none
    | '[' :: cs => do
      let (part, rest) ← Bracket.read? s cs
      on (⟨.ofSet part.set s.wide, part.height, true⟩ :: pieces) rest
    | '?' :: cs => repeats 0 (some 1) cs
    | '*' :: cs => repeats 0 none cs
    | '+' :: cs => repeats 1 none cs
    | '\x7b' :: cs => do
      let ((least, most), rest) ← counts? s cs
      repeats least most rest
    | cs => do
      let (node, rest) ← atom? s cs
      on (⟨node, 0, true⟩ :: pieces) rest

end Reader

def heightLimit : Nat := 250

def Node.ofChars? (ignoreCase multiline : Bool) (cs : List Char) : Option Node := do
  let settings : Settings := { ignoreCase, multiline }
  let (piece, state) ← Reader.choice? (cs.length + 1) [] [] ⟨settings, 0, [], cs⟩
  if state.rest.isEmpty && piece.height ≤ heightLimit && piece.node.isBuildable then
    some piece.node
  else none

end CompactSchema.Pattern
