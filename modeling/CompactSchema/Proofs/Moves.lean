import CompactSchema.Proofs.Grammar
import CompactSchema.Text.Cursor.Lemmas

set_option autoImplicit false

/-!
# What a move takes off the text

The moves of a cursor seen from the text that is still to come. The blanks that a move skips
and the character behind them make up a token of the grammar, and looking ahead shows the
character that the next move takes.
-/

namespace CompactSchema.Text

open Grammar (Blanks Token)

/-- The text does not go on with a character that satisfies `p`. -/
def Stops (p : Char → Bool) (rest : List Char) : Prop := ∀ c, rest.head? = some c → p c = false

theorem stops_nil (p : Char → Bool) : Stops p [] := by
  intro c hc
  simp at hc

theorem stops_cons {p : Char → Bool} {c : Char} (hc : p c = false) (rest : List Char) :
    Stops p (c :: rest) := by
  intro d hd
  obtain rfl : c = d := by simpa using hd
  exact hc

theorem Stops.mono {p q : Char → Bool} {rest : List Char} (h : Stops p rest)
    (hq : ∀ c, q c = true → p c = true) : Stops q rest := by
  intro c hc
  have hp := h c hc
  cases hqc : q c with
  | false => rfl
  | true => simp [hq c hqc] at hp

theorem stops_dropWhile (p : Char → Bool) (cs : List Char) : Stops p (cs.dropWhile p) := by
  induction cs with
  | nil => exact stops_nil p
  | cons c cs ih =>
    by_cases hc : p c = true
    · simpa [hc] using ih
    · simpa [hc] using stops_cons (by simpa using hc) cs

theorem takeWhile_of_stops {p : Char → Bool} {word rest : List Char}
    (hw : ∀ c ∈ word, p c = true) (hr : Stops p rest) : (word ++ rest).takeWhile p = word := by
  rw [List.takeWhile_append_of_pos hw]
  cases rest with
  | nil => simp
  | cons c rest => simp [hr c rfl]

theorem dropWhile_of_stops {p : Char → Bool} {word rest : List Char}
    (hw : ∀ c ∈ word, p c = true) (hr : Stops p rest) : (word ++ rest).dropWhile p = rest := by
  rw [List.dropWhile_append_of_pos hw]
  cases rest with
  | nil => simp
  | cons c rest => simp [hr c rfl]

theorem foldl_advance_index (word : List Char) (p : Position) :
    (word.foldl Position.advance p).index = p.index + byteLength word := by
  induction word generalizing p with
  | nil => simp [byteLength]
  | cons c word ih =>
    have hc : (p.advance c).index = p.index + c.utf8Size := by
      unfold Position.advance
      split <;> rfl
    rw [List.foldl_cons, ih, hc]
    simp [byteLength, Nat.add_assoc]

namespace Cursor

@[simp] theorem readWhile_fst (k : Cursor) (p : Char → Bool) :
    (k.readWhile p).1 = k.rest.takeWhile p := rfl

@[simp] theorem rest_readWhile (k : Cursor) (p : Char → Bool) :
    (k.readWhile p).2.rest = k.rest.dropWhile p := rfl

theorem rest_skipBlanks (k : Cursor) : k.skipBlanks.rest = k.rest.dropWhile isBlank := rfl

@[simp] theorem rest_skipOver (k : Cursor) (word rest : List Char) :
    (k.skipOver word rest).rest = rest := rfl

theorem read_of_rest {k : Cursor} {c : Char} {rest : List Char} (h : k.rest = c :: rest) :
    ∃ k', k.read = (some (k.position.index, c), k') ∧ k'.rest = rest := by
  refine ⟨⟨c :: k.passed, rest, k.position.advance c⟩, ?_, rfl⟩
  simp [read, h]

theorem rest_of_read {k k' : Cursor} {i : Nat} {c : Char} (h : k.read = (some (i, c), k')) :
    k.rest = c :: k'.rest := by
  cases hr : k.rest with
  | nil => simp [read, hr] at h
  | cons d rest =>
    simp only [read, hr, Prod.mk.injEq, Option.some.injEq] at h
    obtain ⟨⟨_, rfl⟩, rfl⟩ := h
    rfl

theorem rest_of_read_none {k k' : Cursor} (h : k.read = (none, k')) : k.rest = [] := by
  cases hr : k.rest with
  | nil => rfl
  | cons d rest => simp [read, hr] at h

/-- The blanks ahead and the word behind them are a token. -/
theorem token_of_skipBlanks {k : Cursor} {word rest : List Char}
    (h : k.skipBlanks.rest = word ++ rest) : ∃ a, Token word a ∧ k.rest = a ++ rest := by
  have hb : Blanks (k.rest.takeWhile isBlank) := List.all_eq_true.mp List.all_takeWhile
  refine ⟨k.rest.takeWhile isBlank ++ word, ⟨_, hb, rfl⟩, ?_⟩
  rw [List.append_assoc, ← h, rest_skipBlanks, List.takeWhile_append_dropWhile]

theorem skipBlanks_of_token {k : Cursor} {word a rest : List Char} (ha : Token word a)
    (hs : Stops isBlank (word ++ rest)) (h : k.rest = a ++ rest) :
    k.skipBlanks.rest = word ++ rest := by
  obtain ⟨blanks, hb, rfl⟩ := ha
  rw [rest_skipBlanks, h, List.append_assoc]
  exact dropWhile_of_stops hb hs

theorem next_of_token {k : Cursor} {c : Char} {a rest : List Char} (ha : Token [c] a)
    (hc : isBlank c = false) (h : k.rest = a ++ rest) :
    ∃ i k', k.next = (some (i, c), k') ∧ k'.rest = rest := by
  have hs := skipBlanks_of_token ha (stops_cons hc rest) h
  obtain ⟨k', hk, hr⟩ := read_of_rest hs
  exact ⟨_, k', hk, hr⟩

theorem token_of_next {k k' : Cursor} {i : Nat} {c : Char} (h : k.next = (some (i, c), k')) :
    isBlank c = false ∧ ∃ a, Token [c] a ∧ k.rest = a ++ k'.rest := by
  have hr := rest_of_read h
  refine ⟨?_, token_of_skipBlanks hr⟩
  have hs := stops_dropWhile isBlank k.rest
  rw [← rest_skipBlanks, hr] at hs
  exact hs c rfl

theorem blanks_of_next_none {k k' : Cursor} (h : k.next = (none, k')) : Blanks k.rest := by
  have hr := rest_of_read_none h
  rw [rest_skipBlanks] at hr
  have ht := List.takeWhile_append_dropWhile (p := isBlank) (l := k.rest)
  rw [hr, List.append_nil] at ht
  rw [← ht]
  exact List.all_eq_true.mp List.all_takeWhile

theorem next_of_blanks {k : Cursor} (h : Blanks k.rest) : k.next.1 = none := by
  have hr : k.rest.dropWhile isBlank = [] := by
    simpa using dropWhile_of_stops h (stops_nil isBlank)
  simp [next, read, rest_skipBlanks, hr]

theorem firstSignificant?_eq (index : Nat) (cs : List Char) :
    firstSignificant? index cs = (cs.dropWhile isBlank).head?.map
      (index + byteLength (cs.takeWhile isBlank), ·) := by
  induction cs generalizing index with
  | nil => simp [firstSignificant?]
  | cons c cs ih =>
    by_cases hc : isBlank c = true
    · simp [firstSignificant?, hc, ih, byteLength, Nat.add_assoc]
    · simp [firstSignificant?, hc, byteLength]

/-- Looking ahead shows what the next move takes. -/
theorem peekNext?_eq (k : Cursor) : k.peekNext? = k.next.1 := by
  have hi : k.skipBlanks.position.index =
      k.position.index + byteLength (k.rest.takeWhile isBlank) :=
    foldl_advance_index _ _
  unfold peekNext?
  rw [firstSignificant?_eq]
  cases hr : k.rest.dropWhile isBlank with
  | nil => simp [next, read, rest_skipBlanks, hr]
  | cons c rest => simp [next, read, rest_skipBlanks, hr, hi]

end Cursor

end CompactSchema.Text
