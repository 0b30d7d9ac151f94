import CompactSchema.Proofs.Positions
import CompactSchema.Text.Walk

set_option autoImplicit false

/-!
# Where walks lead

A walk reads, skips, looks ahead and goes back to places that were marked, in any order. Wherever it
leads, the cursor stands behind whole characters of the text, at the position that these have. So a
place is known by its position alone, what is seen ahead is what is taken next, and what was taken
last is found behind.
-/

namespace CompactSchema.Text

theorem byteLength_toList (text : String) : byteLength text.toList = text.utf8ByteSize := by
  have hsize : ∀ c, (String.utf8EncodeChar c).length = c.utf8Size := String.length_utf8EncodeChar
  change _ = text.toByteArray.size
  rw [← String.utf8Encode_toList, List.utf8Encode, List.size_toByteArray, List.length_flatMap]
  simp only [hsize, byteLength]

namespace Cursor

/-- The cursor over the same text that stands at a position. -/
def moveTo (k : Cursor) (p : Position) : Cursor :=
  let front := takeBytes p.index k.text
  ⟨front.reverse, k.text.drop front.length, p⟩

/-- The cursor stands in the text, at the position of the characters that it passed. -/
structure Stands (text : String) (k : Cursor) : Prop where
  text_eq : k.text = text.toList
  placed : k.Placed

variable {text : String} {k k' : Cursor} {i : Nat} {c : Char}

theorem stands_ofText (text : String) : (ofText text).Stands text :=
  ⟨text_ofChars text.toList, placed_ofChars text.toList⟩

theorem Stands.read (h : k.Stands text) : k.read.2.Stands text :=
  ⟨k.text_read.trans h.text_eq, h.placed.read⟩

theorem Stands.readWhile (h : k.Stands text) (p : Char → Bool) : (k.readWhile p).2.Stands text :=
  ⟨(k.text_readWhile p).trans h.text_eq, h.placed.readWhile p⟩

theorem Stands.skipBlanks (h : k.Stands text) : k.skipBlanks.Stands text := h.readWhile isBlank

theorem Stands.next (h : k.Stands text) : k.next.2.Stands text := h.skipBlanks.read

theorem Stands.index_eq (h : k.Stands text) : k.position.index = byteLength k.passed.reverse :=
  congrArg Position.index h.placed

/-- The characters up to the position are those that the cursor passed. -/
theorem Stands.front (h : k.Stands text) :
    takeBytes k.position.index text.toList = k.passed.reverse := by
  rw [h.index_eq, ← h.text_eq]
  exact takeBytes_byteLength _ _

theorem Stands.stop_eq (h : k.Stands text) :
    k.position.index + byteLength k.rest = text.utf8ByteSize := by
  rw [h.index_eq, ← byteLength_append, ← byteLength_toList, ← h.text_eq, Cursor.text]

/-- A position leads back to the one cursor that stands there. -/
theorem Stands.moveTo_eq (h : k.Stands text) (h' : k'.Stands text) : k.moveTo k'.position = k' := by
  have hfront : takeBytes k'.position.index k.text = k'.passed.reverse := by
    rw [h.text_eq, h'.front]
  have hrest : k.text.drop k'.passed.reverse.length = k'.rest := by
    rw [h.text_eq, ← h'.text_eq]
    exact List.drop_left
  simp only [moveTo, hfront, hrest, List.reverse_reverse]

theorem atEnd_iff_rest : k.atEnd = true ↔ k.rest = [] := List.isEmpty_iff

theorem atEnd_iff_read : k.atEnd = true ↔ k.read.1 = none := by
  rw [atEnd_iff_rest]
  cases hr : k.rest with
  | nil => simp [Cursor.read, hr]
  | cons c rest => simp [Cursor.read, hr]

theorem Stands.isValid (h : k.Stands text) :
    String.Pos.Raw.IsValid text ⟨k.position.index⟩ := by
  rw [String.Pos.Raw.isValid_iff_exists_append]
  refine ⟨.ofList k.passed.reverse, .ofList k.rest, ?_, ?_⟩
  · rw [← String.ofList_append, ← String.ofList_toList (s := text), ← h.text_eq, Cursor.text]
  · have hsize := byteLength_toList (.ofList k.passed.reverse)
    rw [String.toList_ofList] at hsize
    rw [h.index_eq, hsize]
    rfl

theorem peek?_eq_read (k : Cursor) : k.peek? = k.read.1 := by
  cases hr : k.rest with
  | nil => simp [Cursor.peek?, Cursor.read, hr]
  | cons c rest => simp [Cursor.peek?, Cursor.read, hr]

/-- The character before the last one of those up to the position. -/
theorem Stands.previous?_eq (h : k.Stands text) :
    k.previous? = (takeBytes k.position.index text.toList).dropLast.getLast? := by
  rw [h.front, List.dropLast_reverse, List.getLast?_reverse]
  rfl

/-! ## What is taken and what is run through -/

/-- The character `c` was taken at byte `i`, behind nothing but blanks. -/
structure Takes (text : String) (k : Cursor) (i : Nat) (c : Char) (k' : Cursor) : Prop where
  blanks : ∃ blanks, takeBytes i text.toList = takeBytes k.position.index text.toList ++ blanks ∧
    Grammar.Blanks blanks
  place : byteLength (takeBytes i text.toList) = i
  char : takeBytes k'.position.index text.toList = takeBytes i text.toList ++ [c]
  index_eq : k'.position.index = i + c.utf8Size
  previous?_eq : k'.previous? = (takeBytes i text.toList).getLast?
  previous?_none : k'.previous? = none ↔ i = 0

theorem Stands.takes_read (h : k.Stands text) (hread : k.read = (some (i, c), k')) :
    k.Takes text i c k' ∧ i = k.position.index := by
  have hstands : k'.Stands text := by
    have hnext := h.read
    rwa [hread] at hnext
  obtain ⟨rest, hrest⟩ : ∃ rest, k.rest = c :: rest := ⟨_, rest_of_read hread⟩
  simp only [Cursor.read, hrest, Prod.mk.injEq, Option.some.injEq] at hread
  obtain ⟨⟨rfl, -⟩, rfl⟩ := hread
  have hplace : byteLength (takeBytes k.position.index text.toList) = k.position.index := by
    rw [h.front, ← h.index_eq]
  refine ⟨⟨⟨[], (List.append_nil _).symm, fun _ hb => absurd hb List.not_mem_nil⟩, hplace, ?_, ?_,
    ?_, ?_⟩, rfl⟩
  · rw [hstands.front, h.front, List.reverse_cons]
  · rw [hstands.index_eq, h.index_eq, List.reverse_cons, byteLength_append]
    rfl
  · rw [h.front, List.getLast?_reverse]
    rfl
  · rw [← hplace, byteLength_eq_zero, h.front, List.reverse_eq_nil_iff]
    exact List.head?_eq_none_iff

theorem Stands.takes_next (h : k.Stands text) (hnext : k.next = (some (i, c), k')) :
    k.Takes text i c k' ∧ isBlank c = false := by
  obtain ⟨htakes, rfl⟩ := h.skipBlanks.takes_read hnext
  refine ⟨⟨⟨k.rest.takeWhile isBlank, ?_, ?_⟩, htakes.place, htakes.char, htakes.index_eq,
    htakes.previous?_eq, htakes.previous?_none⟩, (token_of_next hnext).1⟩
  · rw [h.skipBlanks.front, h.front]
    simp [Cursor.skipBlanks, Cursor.readWhile, Cursor.skipOver]
  · exact List.all_eq_true.mp List.all_takeWhile

/-- The characters of `word` were run through, which are as many as satisfy `p`. -/
structure RunsThrough (text : String) (k : Cursor) (p : Char → Bool) (word : List Char)
    (k' : Cursor) : Prop extends k.Passes word k' where
  front : takeBytes k'.position.index text.toList =
    takeBytes k.position.index text.toList ++ word
  all : ∀ c ∈ word, p c = true
  longest : ∀ run, run <+: k.rest → (∀ c ∈ run, p c = true) → run <+: word
  stops : k'.atEnd = true ∨ ∃ c, k'.peek? = some (k'.position.index, c) ∧ p c = false

theorem Stands.runsThrough (h : k.Stands text) (p : Char → Bool) :
    k.RunsThrough text p (k.readWhile p).1 (k.readWhile p).2 where
  toPasses := k.passes_readWhile p
  front := by
    rw [(h.readWhile p).front, h.front]
    simp [Cursor.readWhile, Cursor.skipOver]
  all := List.all_eq_true.mp List.all_takeWhile
  longest run hrun hall := by
    obtain ⟨rest, hrest⟩ := hrun
    rw [readWhile_fst, ← hrest, List.takeWhile_append_of_pos hall]
    exact List.prefix_append run _
  stops := by
    have hstops : Stops p (k.readWhile p).2.rest := stops_dropWhile p k.rest
    cases hr : (k.readWhile p).2.rest with
    | nil => exact .inl (atEnd_iff_rest.mpr hr)
    | cons c rest =>
      rw [hr] at hstops
      refine .inr ⟨c, ?_, hstops c rfl⟩
      rw [Cursor.peek?, hr]
      rfl

end Cursor

/-! ## Walks -/

namespace Walk

/-- The walks that can come about over a text: by moves, and by going back to the position of any
    place that was marked, which stays marked. -/
inductive Reached (text : String) : Walk → Prop
  | start : Reached text (.ofText text)
  | move {w : Walk} (m : Move) : Reached text w → Reached text (w.step m).2
  | back {w : Walk} {k : Cursor} : Reached text w → k ∈ w.marks →
    Reached text ⟨w.cursor.moveTo k.position, w.marks⟩

/-- The cursor and all marked places stand in the text. -/
structure Stands (text : String) (w : Walk) : Prop where
  cursor : w.cursor.Stands text
  marks : ∀ k ∈ w.marks, k.Stands text

variable {text : String} {w : Walk}

theorem Stands.step (h : w.Stands text) (m : Move) : (w.step m).2.Stands text := by
  cases m with
  | read => exact ⟨h.cursor.read, h.marks⟩
  | next => exact ⟨h.cursor.next, h.marks⟩
  | skipBlanks => exact ⟨h.cursor.skipBlanks, h.marks⟩
  | readWhile p => exact ⟨h.cursor.readWhile p, h.marks⟩
  | peek | peekNext | previous | atEnd => exact h
  | mark => exact ⟨h.cursor, List.forall_mem_cons.mpr ⟨h.cursor, h.marks⟩⟩
  | reset =>
    obtain ⟨cursor, marks⟩ := w
    cases marks with
    | nil => exact h
    | cons k marks =>
      obtain ⟨hk, hmarks⟩ := List.forall_mem_cons.mp h.marks
      exact ⟨hk, hmarks⟩

theorem Reached.stands (h : Reached text w) : w.Stands text := by
  induction h with
  | start => exact ⟨Cursor.stands_ofText text, fun k hk => absurd hk List.not_mem_nil⟩
  | move m _ ih => exact ih.step m
  | back _ hk ih =>
    rw [ih.cursor.moveTo_eq (ih.marks _ hk)]
    exact ⟨ih.marks _ hk, ih.marks⟩

theorem reached_of_mem_run {w : Walk} (h : Reached text w) {moves : List Move}
    {seen : Sight × Walk} (hseen : seen ∈ w.run moves) : Reached text seen.2 := by
  induction moves generalizing w with
  | nil => exact absurd hseen List.not_mem_nil
  | cons m moves ih =>
    rcases List.mem_cons.mp hseen with rfl | hseen
    · exact h.move m
    · exact ih (h.move m) hseen

/-- Wherever a walk leads, its cursor stands behind whole characters of the text, at the line and the
    column that these have and that a syntax error counts anew for the byte. It is at the end exactly
    if nothing can be read any more. -/
theorem position_of_reached (h : Reached text w) :
    let p := w.cursor.position
    let front := takeBytes p.index text.toList
    p.index ≤ text.utf8ByteSize ∧ String.Pos.Raw.IsValid text ⟨p.index⟩ ∧
      text.toList = front ++ w.cursor.rest ∧ byteLength front = p.index ∧
      p.line = 1 + front.count '\n' ∧
      (∃ above here, front = above ++ here ∧ (above = [] ∨ above.getLast? = some '\n') ∧
        '\n' ∉ here ∧ p.column = 1 + here.length) ∧
      (∀ cause stop, SyntaxError.position ⟨⟨cause, p.index, stop⟩, text⟩ = p) ∧
      (w.cursor.atEnd = true ↔ w.cursor.read.1 = none) ∧
      (w.cursor.atEnd = true ↔ p.index = text.utf8ByteSize) := by
  intro p front
  have hcursor := h.stands.cursor
  have hfront : front = w.cursor.passed.reverse := hcursor.front
  have hplaced : p = Position.after front := by
    rw [hfront]
    exact hcursor.placed
  have hstop : p.index + byteLength w.cursor.rest = text.utf8ByteSize := hcursor.stop_eq
  obtain ⟨above, here, hlines, hhere, habove, hafter⟩ := exists_lastLine front
  refine ⟨by omega, hcursor.isValid, ?_, ?_, ?_, ⟨above, here, hlines, habove, hhere, ?_⟩, ?_,
    Cursor.atEnd_iff_read, ?_⟩
  · rw [hfront, ← hcursor.text_eq, Cursor.text]
  · rw [hfront, ← hcursor.index_eq]
  · rw [hplaced, Nat.add_comm]
    rfl
  · rw [hplaced, hafter]
    exact Nat.add_comm _ _
  · intro cause stop
    exact hplaced.symm
  · rw [Cursor.atEnd_iff_rest, ← byteLength_eq_zero]
    omega

/-- Behind a character of two bytes and a line feed, where the walk was before it went on. -/
theorem position_of_reached_marked :
    let text := "é\n x"
    let cursor : Cursor := ⟨['\n', 'é'], [' ', 'x'], ⟨2, 1, 3⟩⟩
    Reached text ⟨cursor, [cursor]⟩ ∧ String.Pos.Raw.IsValid text ⟨3⟩ ∧
      takeBytes 3 text.toList = ['é', '\n'] ∧
      SyntaxError.position ⟨⟨.missingValue, 3, 3⟩, text⟩ = cursor.position ∧
      (cursor.atEnd = true ↔ cursor.read.1 = none) := by
  intro text cursor
  have hstart : Cursor.ofText text = ⟨[], ['é', '\n', ' ', 'x'], .start⟩ := by decide
  have hfirst : Reached text (.ofText text) := .start
  have hmarked : Reached text ⟨cursor, [cursor]⟩ := by
    have hmark := ((hfirst.move .read).move .read).move .mark
    rwa [Walk.ofText, hstart] at hmark
  have hbehind : Reached text (Walk.step ⟨cursor, [cursor]⟩ .next).2 := hmarked.move .next
  have hback : Reached text ⟨cursor, [cursor]⟩ := hbehind.back (List.mem_singleton_self cursor)
  obtain ⟨-, hvalid, -, -, -, -, hposition, hend, -⟩ := position_of_reached hback
  exact ⟨hback, hvalid, by decide, hposition .missingValue 3, hend⟩

/-- What is seen ahead is what is taken next. What was taken stands where it was found, with nothing
    but blanks in front of it, and with the character behind which it stands to be seen afterwards. A
    run ends where the next character does not belong to it. -/
theorem sight_of_reached (h : Reached text w) :
    let k := w.cursor
    k.peekNext? = k.next.1 ∧ k.peek? = k.read.1 ∧
      k.previous? = (takeBytes k.position.index text.toList).dropLast.getLast? ∧
      (∀ i c k', k.next = (some (i, c), k') → k.Takes text i c k' ∧ isBlank c = false) ∧
      (∀ i c k', k.read = (some (i, c), k') → k.Takes text i c k' ∧ i = k.position.index) ∧
      ∀ p, k.RunsThrough text p (k.readWhile p).1 (k.readWhile p).2 := by
  intro k
  have hcursor : k.Stands text := h.stands.cursor
  exact ⟨k.peekNext?_eq, k.peek?_eq_read, hcursor.previous?_eq, fun i c k' => hcursor.takes_next,
    fun i c k' => hcursor.takes_read, hcursor.runsThrough⟩

/-- Two blanks are passed over, and the second one of them is seen behind the character. -/
theorem sight_of_reached_blanks :
    let text := "é\n x"
    let k : Cursor := ⟨['é'], ['\n', ' ', 'x'], ⟨1, 2, 2⟩⟩
    Reached text ⟨k, []⟩ ∧ k.peekNext? = some (4, 'x') ∧ k.Takes text 4 'x' k.next.2 ∧
      k.next.2.previous? = some ' ' ∧ k.RunsThrough text isBlank ['\n', ' '] k.skipBlanks := by
  intro text k
  have hstart : Cursor.ofText text = ⟨[], ['é', '\n', ' ', 'x'], .start⟩ := by decide
  have hseen : (.place (some (0, 'é')), ⟨k, []⟩) ∈ (Walk.ofText text).run [.read] := by
    rw [Walk.ofText, hstart]
    exact List.mem_singleton_self _
  have hreached : Reached text ⟨k, []⟩ := reached_of_mem_run .start hseen
  obtain ⟨hpeek, -, -, hnext, -, hruns⟩ := sight_of_reached hreached
  have htakes := (hnext 4 'x' k.next.2 rfl).1
  exact ⟨hreached, hpeek, htakes, rfl, hruns isBlank⟩

end Walk

end CompactSchema.Text
