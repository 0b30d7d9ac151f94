set_option autoImplicit false

/-!
# A cursor over text

A cursor keeps the characters already passed, the characters still to come, and the
position between them. Every operation returns a new cursor, so a lookahead is undone
by going on with the old one. `Position.after` says what the position is from the
passed text alone; `Position.after_concat` ties it to the step that the cursor takes.
-/

namespace CompactSchema.Text

/-- Lines and columns count from one, columns in characters; `index` counts bytes. -/
structure Position where
  line : Nat
  column : Nat
  index : Nat
deriving Repr, DecidableEq

namespace Position

def start : Position := ⟨1, 1, 0⟩

def advance (p : Position) (c : Char) : Position :=
  if c = '\n' then ⟨p.line + 1, 1, p.index + c.utf8Size⟩
  else ⟨p.line, p.column + 1, p.index + c.utf8Size⟩

end Position

def byteLength (cs : List Char) : Nat :=
  (cs.map Char.utf8Size).sum

def takeBytes : Nat → List Char → List Char
  | _, [] => []
  | n, c :: cs => if c.utf8Size ≤ n then c :: takeBytes (n - c.utf8Size) cs else []

/-- The position behind `passed`: one line per line feed, and the characters since the last one. -/
def Position.after (passed : List Char) : Position where
  line := passed.count '\n' + 1
  column := (passed.reverse.takeWhile (· ≠ '\n')).length + 1
  index := byteLength passed

theorem Position.after_concat (passed : List Char) (c : Char) :
    Position.after (passed ++ [c]) = (Position.after passed).advance c := by
  by_cases h : c = '\n'
  · simp [Position.after, Position.advance, byteLength, h]
  · simp [Position.after, Position.advance, byteLength, h]

def isBlank (c : Char) : Bool :=
  c = ' ' || c = '\t' || c = '\n' || c = '\r'

def isLetter (c : Char) : Bool :=
  ('a' ≤ c && c ≤ 'z') || ('A' ≤ c && c ≤ 'Z')

def isDigit (c : Char) : Bool :=
  '0' ≤ c && c ≤ '9'

def isNameStart (c : Char) : Bool :=
  isLetter c || c = '_'

def isNamePart (c : Char) : Bool :=
  isLetter c || isDigit c || c = '_'

structure Cursor where
  /-- The passed characters, the last one first. -/
  passed : List Char
  rest : List Char
  position : Position
deriving Repr, DecidableEq

namespace Cursor

def ofChars (cs : List Char) : Cursor := ⟨[], cs, .start⟩

def ofText (text : String) : Cursor := ofChars text.toList

def stop (k : Cursor) : Nat := k.position.index + byteLength k.rest

def atEnd (k : Cursor) : Bool := k.rest.isEmpty

/-- Moves over the next characters `word`, which must be how the rest starts. -/
def skipOver (k : Cursor) (word rest : List Char) : Cursor :=
  ⟨word.reverse ++ k.passed, rest, word.foldl Position.advance k.position⟩

def peek? (k : Cursor) : Option (Nat × Char) :=
  k.rest.head?.map (k.position.index, ·)

def read (k : Cursor) : Option (Nat × Char) × Cursor :=
  match k.rest with
  | [] => (none, k)
  | c :: rest => (some (k.position.index, c), ⟨c :: k.passed, rest, k.position.advance c⟩)

def readWhile (k : Cursor) (p : Char → Bool) : List Char × Cursor :=
  let word := k.rest.takeWhile p
  (word, k.skipOver word (k.rest.dropWhile p))

def skipBlanks (k : Cursor) : Cursor :=
  (k.readWhile isBlank).2

def next (k : Cursor) : Option (Nat × Char) × Cursor :=
  k.skipBlanks.read

def firstSignificant? : Nat → List Char → Option (Nat × Char)
  | _, [] => none
  | index, c :: rest =>
    if isBlank c then firstSignificant? (index + c.utf8Size) rest else some (index, c)

def peekNext? (k : Cursor) : Option (Nat × Char) :=
  firstSignificant? k.position.index k.rest

/-- The character before the one taken last. -/
def previous? (k : Cursor) : Option Char :=
  k.passed.tail.head?

end Cursor

end CompactSchema.Text
