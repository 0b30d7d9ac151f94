import CompactSchema.Text.Cursor

set_option autoImplicit false

/-!
# Moving cursors

No move changes the text under a cursor, and each leaves the cursor at the position behind the
passed characters. A cursor is `Placed` when this is where it stands.
-/

namespace CompactSchema.Text

theorem byteLength_append (cs ds : List Char) :
    byteLength (cs ++ ds) = byteLength cs + byteLength ds := by
  simp [byteLength]

theorem Position.foldl_advance (passed word : List Char) :
    word.foldl Position.advance (Position.after passed) = Position.after (passed ++ word) := by
  induction word generalizing passed with
  | nil => simp
  | cons c cs ih =>
    have h := ih (passed ++ [c])
    rw [Position.after_concat] at h
    simpa using h

namespace Cursor

def text (k : Cursor) : List Char := k.passed.reverse ++ k.rest

/-- The cursor stands behind the characters that it passed. -/
def Placed (k : Cursor) : Prop := k.position = Position.after k.passed.reverse

@[simp] theorem text_ofChars (cs : List Char) : (ofChars cs).text = cs := by
  simp [text, ofChars]

theorem placed_ofChars (cs : List Char) : (ofChars cs).Placed := rfl

theorem text_skipOver {k : Cursor} {word rest : List Char} (h : k.rest = word ++ rest) :
    (k.skipOver word rest).text = k.text := by
  simp [text, skipOver, h]

theorem Placed.skipOver {k : Cursor} (h : k.Placed) (word rest : List Char) :
    (k.skipOver word rest).Placed := by
  have moved := Position.foldl_advance k.passed.reverse word
  rw [← show k.position = _ from h] at moved
  simpa [Placed, Cursor.skipOver] using moved

@[simp] theorem text_readWhile (k : Cursor) (p : Char → Bool) : (k.readWhile p).2.text = k.text :=
  text_skipOver List.takeWhile_append_dropWhile.symm

theorem Placed.readWhile {k : Cursor} (h : k.Placed) (p : Char → Bool) :
    (k.readWhile p).2.Placed :=
  h.skipOver _ _

@[simp] theorem text_read (k : Cursor) : k.read.2.text = k.text := by
  cases hr : k.rest with
  | nil => simp [Cursor.read, text, hr]
  | cons c rest => simp [Cursor.read, text, hr]

theorem Placed.read {k : Cursor} (h : k.Placed) : k.read.2.Placed := by
  cases hr : k.rest with
  | nil => simpa [Cursor.read, hr] using h
  | cons c rest =>
    have moved := Position.after_concat k.passed.reverse c
    rw [← show k.position = _ from h] at moved
    simp [Placed, Cursor.read, hr, ← moved]

end Cursor

end CompactSchema.Text
