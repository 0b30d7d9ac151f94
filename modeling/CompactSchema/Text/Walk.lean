import CompactSchema.Text.Cursor

set_option autoImplicit false

/-!
# Walks

A walk moves a cursor step by step and can go back to places marked on the way.
-/

namespace CompactSchema.Text

inductive Move
  | read
  | next
  | peek
  | peekNext
  | skipBlanks
  | readWhile (p : Char → Bool)
  | previous
  | atEnd
  | mark
  | reset

inductive Sight
  | nothing
  | place (found : Option (Nat × Char))
  | word (text : List Char)
  | char (found : Option Char)
  | truth (value : Bool)
deriving Repr, DecidableEq

structure Walk where
  cursor : Cursor
  /-- The marked places, the last one first. -/
  marks : List Cursor

namespace Walk

def ofText (text : String) : Walk := ⟨.ofText text, []⟩

/-- Going back without a mark leaves the walk as it is. -/
def step (w : Walk) : Move → Sight × Walk
  | .read =>
    let (found, k) := w.cursor.read
    (.place found, ⟨k, w.marks⟩)
  | .next =>
    let (found, k) := w.cursor.next
    (.place found, ⟨k, w.marks⟩)
  | .peek => (.place w.cursor.peek?, w)
  | .peekNext => (.place w.cursor.peekNext?, w)
  | .skipBlanks => (.nothing, ⟨w.cursor.skipBlanks, w.marks⟩)
  | .readWhile p =>
    let (word, k) := w.cursor.readWhile p
    (.word word, ⟨k, w.marks⟩)
  | .previous => (.char w.cursor.previous?, w)
  | .atEnd => (.truth w.cursor.atEnd, w)
  | .mark => (.nothing, ⟨w.cursor, w.cursor :: w.marks⟩)
  | .reset =>
    match w.marks with
    | [] => (.nothing, w)
    | k :: marks => (.nothing, ⟨k, marks⟩)

def run (w : Walk) : List Move → List (Sight × Walk)
  | [] => []
  | m :: ms =>
    let seen := w.step m
    seen :: run seen.2 ms

end Walk

end CompactSchema.Text
