import CompactSchema.Proofs.Numerals

set_option autoImplicit false

/-!
# Documents read back

What is written of a document is read as its outline, with arrays and objects that lie too deep
passed over, and with every number as it is read from what is written of it.
-/

namespace CompactSchema.Json

open Text

/-! ## Strings -/

theorem hexPadded_four (n : Nat) : hexPadded 4 n =
    [hexDigit (n / 16 / 16 / 16 % 16), hexDigit (n / 16 / 16 % 16), hexDigit (n / 16 % 16),
      hexDigit (n % 16)] := rfl

theorem unit?_control : ∀ n < 32, unit? (hexDigit (n / 16 / 16 / 16 % 16))
    (hexDigit (n / 16 / 16 % 16)) (hexDigit (n / 16 % 16)) (hexDigit (n % 16)) = some n := by
  decide

theorem toNat_of_control {c : Char} (h : c < ' ') : c.toNat < 32 := h

theorem escapedChar_control {c : Char} (h : c < ' ') (rest : List Char) :
    escapedChar (hexPadded 4 c.toNat ++ rest) = .ok (c, rest) := by
  have hn := toNat_of_control h
  have htrailing : isTrailing c.toNat = false := by
    simp only [isTrailing, Bool.and_eq_false_iff, decide_eq_false_iff_not]
    omega
  have hleading : isLeading c.toNat = false := by
    simp only [isLeading, Bool.and_eq_false_iff, decide_eq_false_iff_not]
    omega
  have hchar : Char.ofNat c.toNat = c := Char.ofNat_toNat c
  simp [escapedChar, escapedUnit, hexPadded_four, unit?_control _ hn, htrailing, hleading, hchar,
    bind, Except.bind]

/-- How a character stands in a string: by a letter, by its number, or as it is. -/
theorem escape_cases (c : Char) :
    (∃ d, escape c = ['\\', d] ∧ shortEscape? d = some c ∧ d ≠ 'u') ∨
      (c < ' ' ∧ escape c = '\\' :: 'u' :: hexPadded 4 c.toNat) ∨
      (escape c = [c] ∧ c ≠ '"' ∧ c ≠ '\\' ∧ ¬ c < ' ') := by
  unfold escape
  split
  · exact .inl ⟨'"', rfl, rfl, by decide⟩
  · exact .inl ⟨'\\', rfl, rfl, by decide⟩
  · exact .inl ⟨'b', rfl, rfl, by decide⟩
  · exact .inl ⟨'f', rfl, rfl, by decide⟩
  · exact .inl ⟨'n', rfl, rfl, by decide⟩
  · exact .inl ⟨'r', rfl, rfl, by decide⟩
  · exact .inl ⟨'t', rfl, rfl, by decide⟩
  · next hquote hbackslash _ _ _ _ _ =>
    split
    · next hc => exact .inr (.inl ⟨hc, rfl⟩)
    · next hc => exact .inr (.inr ⟨rfl, hquote, hbackslash, hc⟩)

theorem stringWithin_escape (steps : Nat) (c : Char) (rest : List Char) :
    stringWithin (steps + 1) (escape c ++ rest) =
      (stringWithin steps rest).map fun (content, rest) => (c :: content, rest) := by
  have honward : ∀ d (cs : List Char), (do
      let (content, cs) ← stringWithin steps cs
      .ok (d :: content, cs)) =
      (stringWithin steps cs).map fun (content, rest) => (d :: content, rest) := by
    intro d cs
    cases stringWithin steps cs <;> rfl
  rcases escape_cases c with ⟨d, he, hd, hu⟩ | ⟨hc, he⟩ | ⟨he, hquote, hbackslash, hc⟩
  · rw [he, List.cons_append, List.cons_append, List.nil_append, stringWithin]
    · simp only [hd]
      exact honward c rest
    · exact hu
  · rw [he, List.cons_append, List.cons_append, stringWithin]
    simp only [escapedChar_control hc]
    exact honward c rest
  · rw [he, List.cons_append, List.nil_append, stringWithin]
    · simp only [hc, ↓reduceIte]
      exact honward c rest
    · exact hquote
    · exact fun h => absurd h hbackslash
    · exact fun _ h => absurd h hbackslash
    · exact fun _ _ h => absurd h hbackslash

theorem stringWithin_quoted (cs rest : List Char) :
    ∀ steps, cs.length < steps →
      stringWithin steps (cs.flatMap escape ++ '"' :: rest) = .ok (cs, rest) := by
  induction cs with
  | nil =>
    intro steps hsteps
    obtain ⟨steps, rfl⟩ := Nat.exists_eq_succ_of_ne_zero (show steps ≠ 0 by omega)
    rfl
  | cons c cs ih =>
    intro steps hsteps
    rw [List.length_cons] at hsteps
    obtain ⟨steps, rfl⟩ := Nat.exists_eq_succ_of_ne_zero (show steps ≠ 0 by omega)
    rw [List.flatMap_cons, List.append_assoc, Nat.succ_eq_add_one, stringWithin_escape,
      ih steps (by omega)]
    rfl

theorem length_le_escaped (cs : List Char) : cs.length ≤ (cs.flatMap escape).length := by
  induction cs with
  | nil => simp
  | cons c cs ih =>
    have hpos : 0 < (escape c).length := by
      rcases escape_cases c with ⟨d, he, -⟩ | ⟨-, he⟩ | ⟨he, -⟩ <;> simp [he]
    rw [List.flatMap_cons, List.length_append, List.length_cons]
    omega

theorem stringText_quoted (text : String) (rest : List Char) :
    stringText (text.toList.flatMap escape ++ '"' :: rest) = .ok (text, rest) := by
  have hlen := length_le_escaped text.toList
  have hchars : stringChars (text.toList.flatMap escape ++ '"' :: rest) = .ok (text.toList, rest) :=
    stringWithin_quoted _ _ _ (by rw [List.length_append]; omega)
  simp [stringText, hchars, bind, Except.bind]

/-! ## Passing over strings -/

theorem skipString_escape (c : Char) (rest : List Char) :
    Outline.skipString (escape c ++ rest) = Outline.skipString rest := by
  rcases escape_cases c with ⟨d, he, hd, hu⟩ | ⟨hc, he⟩ | ⟨he, hquote, hbackslash, hc⟩
  · rw [he, List.cons_append, List.cons_append, List.nil_append, Outline.skipString]
    · simp only [hd]
    · exact fun _ _ _ _ _ h => absurd h hu
  · rw [he, hexPadded_four]
    simp only [List.cons_append, List.nil_append]
    rw [Outline.skipString]
    simp only [unit?_control _ (toNat_of_control hc)]
  · rw [he, List.cons_append, List.nil_append, Outline.skipString]
    · simp only [hc, ↓reduceIte]
    · exact hquote
    · exact fun _ _ _ _ _ h => absurd h hbackslash
    · exact fun _ _ h => absurd h hbackslash

theorem skipString_quoted (cs rest : List Char) :
    Outline.skipString (cs.flatMap escape ++ '"' :: rest) = .ok rest := by
  induction cs with
  | nil => simp [Outline.skipString]
  | cons c cs ih => rw [List.flatMap_cons, List.append_assoc, skipString_escape, ih]

/-! ## Documents -/

mutual

/-- Every number in the document is written by the grammar. -/
def Readable : Json → Prop
  | number n => Legible n
  | array items => ItemsReadable items
  | object entries => EntriesReadable entries
  | _ => True

def ItemsReadable : List Json → Prop
  | [] => True
  | item :: items => item.Readable ∧ ItemsReadable items

def EntriesReadable : List (String × Json) → Prop
  | [] => True
  | (_, value) :: entries => value.Readable ∧ EntriesReadable entries

end

/-- What a value may begin with. -/
def isFront (c : Char) : Bool := isDigit c || c ∈ ['n', 't', 'f', '"', '-', '[', '\x7b']

theorem not_blank_of_isFront {c : Char} (h : isFront c = true) : isBlank c = false := by
  refine Bool.eq_false_iff.mpr fun hblank => ?_
  simp only [isBlank, Bool.or_eq_true, decide_eq_true_eq] at hblank
  rcases hblank with ((rfl | rfl) | rfl) | rfl <;> exact absurd h (by decide)

theorem chars_front {j : Json} (h : j.Readable) :
    ∃ c cs, j.chars = c :: cs ∧ isFront c = true := by
  cases j with
  | null => exact ⟨_, _, rfl, rfl⟩
  | bool b => cases b <;> exact ⟨_, _, rfl, rfl⟩
  | number n =>
    rcases Legible.cases h with ⟨cs, heq, -⟩ | ⟨c, cs, heq, hc, -⟩
    · exact ⟨_, _, heq, rfl⟩
    · exact ⟨_, _, heq, by simp [isFront, hc]⟩
  | string text => exact ⟨_, _, rfl, rfl⟩
  | array items => exact ⟨_, _, rfl, rfl⟩
  | object entries => exact ⟨_, _, rfl, rfl⟩

theorem skipBlanks_cons {c : Char} (h : isBlank c = false) (cs : List Char) :
    skipBlanks (c :: cs) = c :: cs := by
  rw [skipBlanks, List.dropWhile_cons, h]
  rfl

section Skipping

open Outline

variable (steps : Nat) (frames : List Frame) (cs : List Char)

theorem skipFrames_array : skipFrames (steps + 1) .value frames ('[' :: cs) =
    skipFrames steps .opened (.array :: frames) cs := rfl

theorem skipFrames_object : skipFrames (steps + 1) .value frames ('\x7b' :: cs) =
    skipFrames steps .opened (.object :: frames) cs := rfl

theorem skipFrames_closing {stage : Stage} (h : stage = .opened ∨ stage = .closed) (frame : Frame) :
    skipFrames (steps + 1) stage (frame :: frames) (frame.closing :: cs) =
      skipFrames steps .closed frames cs := by
  rcases h with rfl | rfl <;> cases frame <;> rfl

theorem skipFrames_onward_array {c : Char} (h : isFront c = true) :
    skipFrames (steps + 1) .opened (.array :: frames) (c :: cs) =
      skipFrames steps .value (.array :: frames) (c :: cs) := by
  have hc : c ≠ Frame.array.closing := by
    rintro rfl
    exact absurd h (by decide)
  simp [skipFrames, skipBlanks_cons (not_blank_of_isFront h), hc]

theorem skipFrames_onward_object :
    skipFrames (steps + 1) .opened (.object :: frames) ('"' :: cs) =
      skipFrames steps .key (.object :: frames) ('"' :: cs) := rfl

theorem skipFrames_key (name : String) :
    skipFrames (steps + 1) .key frames (quoted name ++ ':' :: cs) =
      skipFrames steps .value frames cs := by
  have hskip := skipString_quoted name.toList (':' :: cs)
  have hblank : skipBlanks (':' :: cs) = ':' :: cs := rfl
  have hquote : skipBlanks (quoted name ++ ':' :: cs) =
      '"' :: (name.toList.flatMap escape ++ '"' :: ':' :: cs) := by
    simp [quoted, skipBlanks_cons (show isBlank '"' = false from rfl)]
  simp [skipFrames, hquote, hskip, hblank, bind, Except.bind]

theorem skipFrames_string (text : String) :
    skipFrames (steps + 1) .value frames (quoted text ++ cs) =
      skipFrames steps .closed frames cs := by
  have hskip := skipString_quoted text.toList cs
  have hquote : skipBlanks (quoted text ++ cs) =
      '"' :: (text.toList.flatMap escape ++ '"' :: cs) := by
    simp [quoted, skipBlanks_cons (show isBlank '"' = false from rfl)]
  simp [skipFrames, hquote, hskip, bind, Except.bind]

theorem skipFrames_number {n : JsonNumber} (h : Legible n) (hcs : Stops isNumberPart cs) :
    skipFrames (steps + 1) .value frames (numberChars n ++ cs) =
      skipFrames steps .closed frames cs := by
  rcases h.cases with ⟨ds, heq, htaken⟩ | ⟨c, ds, heq, hc, htaken⟩
  · have hskip := htaken.skipNumber cs hcs
    have hblank := skipBlanks_cons (show isBlank '-' = false from rfl) (ds ++ cs)
    simp [heq, skipFrames, hblank, hskip, bind, Except.bind]
  · have hskip := htaken.skipNumber cs hcs
    rw [List.cons_append] at hskip
    have hfront : isFront c = true := by simp [isFront, hc]
    have hblank := skipBlanks_cons (not_blank_of_isFront hfront) (ds ++ cs)
    have hother : ∀ d, isDigit d = false → c ≠ d := by
      rintro d hd rfl
      exact absurd hc (by simp [hd])
    simp [heq, skipFrames, hblank, hskip, hc, hother '[' (by decide), hother '\x7b' (by decide),
      hother '"' (by decide), hother 'n' (by decide), hother 't' (by decide),
      hother 'f' (by decide), hother '-' (by decide), bind, Except.bind]

end Skipping

-- The reader keeps open frames on a stack of its own, so that what lies around a value has to be
-- arbitrary in what is said of the value.

/-- The text is passed over inside of any frames, in at most twice as many steps as it has
    characters. -/
def PassesOver (stage : Outline.Stage) (inner : List Outline.Frame) (cs : List Char) : Prop :=
  ∃ cost ≤ 2 * cs.length, ∀ steps frames rest, Stops isNumberPart rest →
    Outline.skipFrames (steps + cost) stage (inner ++ frames) (cs ++ rest) =
      Outline.skipFrames steps .closed (inner ++ frames) rest

/-- What comes behind an opening bracket or a comma. -/
def onward : Outline.Frame → Outline.Stage
  | .array => .value
  | .object => .key

theorem skipFrames_comma (steps : Nat) (frame : Outline.Frame) (frames : List Outline.Frame)
    (cs : List Char) : Outline.skipFrames (steps + 1) .closed (frame :: frames) (',' :: cs) =
      Outline.skipFrames steps (onward frame) (frame :: frames) cs := by
  cases frame <;> rfl

theorem PassesOver.inside {stage : Outline.Stage} {cs : List Char} (h : PassesOver stage [] cs)
    (frame : Outline.Frame) : PassesOver stage [frame] cs := by
  obtain ⟨cost, hcost, hpass⟩ := h
  exact ⟨cost, hcost, fun steps frames rest hrest => hpass steps (frame :: frames) rest hrest⟩

theorem PassesOver.comma (frame : Outline.Frame) {cs ds : List Char}
    (h : PassesOver (onward frame) [frame] cs) (h' : PassesOver (onward frame) [frame] ds) :
    PassesOver (onward frame) [frame] (cs ++ ',' :: ds) := by
  obtain ⟨cost, hcost, hpass⟩ := h
  obtain ⟨more, hmore, hpass'⟩ := h'
  refine ⟨more + 1 + cost, by simp; omega, fun steps frames rest hrest => ?_⟩
  have hstops : Stops isNumberPart (',' :: (ds ++ rest)) := stops_cons (by decide) _
  have hcs := hpass (steps + more + 1) frames _ hstops
  rw [show steps + (more + 1 + cost) = steps + more + 1 + cost by omega, List.append_assoc]
  calc
    _ = _ := hcs
    _ = _ := skipFrames_comma (steps + more) frame frames (ds ++ rest)
    _ = _ := hpass' steps frames rest hrest

theorem PassesOver.entry {cs : List Char} (h : PassesOver .value [] cs) (name : String) :
    PassesOver .key [.object] (quoted name ++ ':' :: cs) := by
  obtain ⟨cost, hcost, hpass⟩ := h.inside .object
  refine ⟨cost + 1, by simp; omega, fun steps frames rest hrest => ?_⟩
  rw [List.append_assoc, List.cons_append, ← Nat.add_assoc, List.cons_append, List.nil_append,
    skipFrames_key]
  exact hpass steps frames rest hrest

/-- From behind the opening bracket of a frame through its closing one. -/
theorem skipFrames_frame {frame : Outline.Frame} {cs : List Char}
    (h : cs = [] ∨ PassesOver (onward frame) [frame] cs ∧ ∀ steps frames rest,
      Outline.skipFrames (steps + 1) .opened (frame :: frames) (cs ++ rest) =
        Outline.skipFrames steps (onward frame) (frame :: frames) (cs ++ rest)) :
    ∃ cost ≤ 2 * cs.length + 2, ∀ steps frames rest,
      Outline.skipFrames (steps + cost) .opened (frame :: frames) (cs ++ frame.closing :: rest) =
        Outline.skipFrames steps .closed frames rest := by
  -- One step more than characters: none is taken from behind the opening bracket to the first item.
  rcases h with rfl | ⟨⟨cost, hcost, hpass⟩, honward⟩
  · exact ⟨1, by omega, fun steps frames rest =>
      skipFrames_closing steps frames rest (.inl rfl) frame⟩
  · refine ⟨cost + 2, by omega, fun steps frames rest => ?_⟩
    have hstops : Stops isNumberPart (frame.closing :: rest) := by
      cases frame <;> exact stops_cons (by decide) _
    have hopened := honward (steps + 1 + cost) frames (frame.closing :: rest)
    have hclosed := hpass (steps + 1) frames _ hstops
    rw [show steps + (cost + 2) = steps + 1 + cost + 1 by omega, hopened]
    exact hclosed.trans (skipFrames_closing steps frames rest (.inr rfl) frame)

theorem front_of_items {item : Json} (items : List Json) (h : item.Readable) :
    ∃ c cs, itemChars (item :: items) = c :: cs ∧ isFront c = true := by
  obtain ⟨c, cs, heq, hc⟩ := chars_front h
  cases items with
  | nil => exact ⟨c, cs, heq, hc⟩
  | cons second items => exact ⟨c, _, by rw [itemChars, heq, List.cons_append], hc⟩

theorem front_of_entries (name : String) (value : Json) (entries : List (String × Json)) :
    ∃ cs, entryChars ((name, value) :: entries) = '"' :: cs := by
  cases entries with
  | nil => exact ⟨_, rfl⟩
  | cons second entries => exact ⟨_, rfl⟩

theorem skipFrames_items {items : List Json} (h : ItemsReadable items)
    (hpass : items ≠ [] → PassesOver .value [.array] (itemChars items)) :
    ∃ cost ≤ 2 * (itemChars items).length + 2, ∀ steps frames rest,
      Outline.skipFrames (steps + cost) .opened (.array :: frames)
          (itemChars items ++ ']' :: rest) =
        Outline.skipFrames steps .closed frames rest := by
  cases items with
  | nil => exact skipFrames_frame (.inl rfl)
  | cons item items =>
    obtain ⟨c, cs, heq, hc⟩ := front_of_items items h.1
    refine skipFrames_frame (.inr ⟨hpass (List.cons_ne_nil _ _), fun steps frames rest => ?_⟩)
    rw [heq]
    exact skipFrames_onward_array steps frames _ hc

theorem skipFrames_entries {entries : List (String × Json)}
    (hpass : entries ≠ [] → PassesOver .key [.object] (entryChars entries)) :
    ∃ cost ≤ 2 * (entryChars entries).length + 2, ∀ steps frames rest,
      Outline.skipFrames (steps + cost) .opened (.object :: frames)
          (entryChars entries ++ '\x7d' :: rest) =
        Outline.skipFrames steps .closed frames rest := by
  cases entries with
  | nil => exact skipFrames_frame (.inl rfl)
  | cons entry entries =>
    obtain ⟨cs, heq⟩ := front_of_entries entry.1 entry.2 entries
    refine skipFrames_frame (.inr ⟨hpass (List.cons_ne_nil _ _), fun steps frames rest => ?_⟩)
    rw [heq]
    exact skipFrames_onward_object steps frames _

mutual

theorem passesOver_chars : ∀ j : Json, j.Readable → PassesOver .value [] j.chars
  | null, _ => ⟨1, by decide, fun _ _ _ _ => rfl⟩
  | bool true, _ => ⟨1, by decide, fun _ _ _ _ => rfl⟩
  | bool false, _ => ⟨1, by decide, fun _ _ _ _ => rfl⟩
  | number n, h => by
    obtain ⟨c, cs, heq, -⟩ := chars_front h
    exact ⟨1, by rw [heq, List.length_cons]; omega, fun steps frames rest hrest =>
      skipFrames_number steps frames rest h hrest⟩
  | string text, _ =>
    ⟨1, by simp [chars, quoted]; omega, fun steps frames rest _ =>
      skipFrames_string steps frames rest text⟩
  | array items, h => by
    obtain ⟨cost, hcost, hpass⟩ := skipFrames_items h (passesOver_items items h)
    refine ⟨cost + 1, by simp [chars]; omega, fun steps frames rest _ => ?_⟩
    rw [chars, List.append_assoc, ← Nat.add_assoc]
    exact (skipFrames_array _ _ _).trans (hpass steps frames rest)
  | object entries, h => by
    obtain ⟨cost, hcost, hpass⟩ := skipFrames_entries (passesOver_entries entries h)
    refine ⟨cost + 1, by simp [chars]; omega, fun steps frames rest _ => ?_⟩
    rw [chars, List.append_assoc, ← Nat.add_assoc]
    exact (skipFrames_object _ _ _).trans (hpass steps frames rest)

theorem passesOver_items : ∀ items : List Json, ItemsReadable items → items ≠ [] →
    PassesOver .value [.array] (itemChars items)
  | [], _, hne => absurd rfl hne
  | [item], h, _ => (passesOver_chars item h.1).inside .array
  | item :: second :: items, h, _ =>
    .comma .array ((passesOver_chars item h.1).inside .array)
      (passesOver_items (second :: items) h.2 (List.cons_ne_nil _ _))

theorem passesOver_entries : ∀ entries : List (String × Json), EntriesReadable entries →
    entries ≠ [] → PassesOver .key [.object] (entryChars entries)
  | [], _, hne => absurd rfl hne
  | [(name, value)], h, _ => (passesOver_chars value h.1).entry name
  | (name, value) :: second :: entries, h, _ =>
    .comma .object ((passesOver_chars value h.1).entry name)
      (passesOver_entries (second :: entries) h.2 (List.cons_ne_nil _ _))

end

/-- An array or object is passed over through its closing bracket. -/
theorem skip_of_frame {frame : Outline.Frame} {cs : List Char}
    (h : ∃ cost ≤ 2 * cs.length + 2, ∀ steps frames rest,
      Outline.skipFrames (steps + cost) .opened (frame :: frames) (cs ++ frame.closing :: rest) =
        Outline.skipFrames steps .closed frames rest) (rest : List Char) :
    Outline.skip frame (cs ++ frame.closing :: rest) = .ok rest := by
  obtain ⟨cost, hcost, hpass⟩ := h
  obtain ⟨steps, hsteps⟩ :
      ∃ steps, 2 * (cs ++ frame.closing :: rest).length + 2 = steps + 1 + cost :=
    ⟨2 * (cs ++ frame.closing :: rest).length + 1 - cost, by simp; omega⟩
  rw [Outline.skip, hsteps, hpass]
  rfl

/-! ## Outlines -/

mutual

/-- What the text of a document is read as, when arrays and objects inside of `depth` others are
    passed over. -/
def outline : Nat → Json → Outline
  | _, null => .null
  | _, bool b => .bool b
  | _, number n => .number (reread n)
  | _, string text => .string (some text)
  | 0, array _ => .deep
  | 0, object _ => .deep
  | depth + 1, array items => .array (itemOutlines depth items)
  | depth + 1, object entries => .object (entryOutlines depth entries)

def itemOutlines (depth : Nat) : List Json → List Outline
  | [] => []
  | item :: items => item.outline depth :: itemOutlines depth items

def entryOutlines (depth : Nat) : List (String × Json) → List (Option String × Outline)
  | [] => []
  | (name, value) :: entries => (some name, value.outline depth) :: entryOutlines depth entries

end

section Lists

variable {α : Type} {value : List Char → Except Fault (α × List Char)} {a : α} {c : Char}
  {cs rest : List Char}

theorem itemsWithin_comma (steps : Nat) (h : isFront c = true) :
    itemsWithin value (steps + 1) false (',' :: c :: cs) =
      itemsWithin value (steps + 1) true (c :: cs) := by
  have hclosing : c ≠ ']' := by
    rintro rfl
    exact absurd h (by decide)
  have hblank := skipBlanks_cons (not_blank_of_isFront h) cs
  have hcomma := skipBlanks_cons (show isBlank ',' = false from rfl) (c :: cs)
  simp [itemsWithin, hblank, hcomma, hclosing]

theorem itemsWithin_first (steps : Nat) (h : isFront c = true)
    (hvalue : value (c :: cs) = .ok (a, rest)) :
    itemsWithin value (steps + 1) true (c :: cs) =
      (itemsWithin value steps false rest).map fun (items, rest) => (a :: items, rest) := by
  have hclosing : c ≠ ']' := by
    rintro rfl
    exact absurd h (by decide)
  have hblank := skipBlanks_cons (not_blank_of_isFront h) cs
  simp only [itemsWithin, hblank, hclosing, ↓reduceIte, hvalue, bind, Except.bind]
  cases itemsWithin value steps false rest <;> rfl

theorem entriesWithin_comma (steps : Nat) :
    entriesWithin Outline.stringText value (steps + 1) false (',' :: '"' :: cs) =
      entriesWithin Outline.stringText value (steps + 1) true ('"' :: cs) := rfl

theorem entriesWithin_first (steps : Nat) (name : String) (hvalue : value cs = .ok (a, rest)) :
    entriesWithin Outline.stringText value (steps + 1) true (quoted name ++ ':' :: cs) =
      (entriesWithin Outline.stringText value steps false rest).map
        fun (entries, rest) => ((some name, a) :: entries, rest) := by
  have hname : Outline.stringText (name.toList.flatMap escape ++ '"' :: ':' :: cs) =
      .ok (some name, ':' :: cs) := by
    rw [Outline.stringText, stringText_quoted]
  have hquote : skipBlanks (quoted name ++ ':' :: cs) =
      '"' :: (name.toList.flatMap escape ++ '"' :: ':' :: cs) := by
    simp [quoted, skipBlanks_cons (show isBlank '"' = false from rfl)]
  have hcolon := skipBlanks_cons (show isBlank ':' = false from rfl) cs
  have hclosing : '"' ≠ '\x7d' := by decide
  simp only [entriesWithin, hquote, hclosing, ↓reduceIte, hname, hcolon, hvalue, bind, Except.bind]
  cases entriesWithin Outline.stringText value steps false rest <;> rfl

end Lists

theorem within_number {n : JsonNumber} (h : Legible n) (depth : Nat) {rest : List Char}
    (hrest : Stops isNumberPart rest) :
    Outline.within depth (numberChars n ++ rest) = .ok (.number (reread n), rest) := by
  rcases h.cases with ⟨ds, heq, htaken⟩ | ⟨c, ds, heq, hc, htaken⟩
  · have hread := htaken.numeral rest hrest
    have hblank := skipBlanks_cons (show isBlank '-' = false from rfl) (ds ++ rest)
    simp [heq, Outline.within, hblank, hread, Except.map]
  · have hread := htaken.numeral rest hrest
    rw [List.cons_append] at hread
    have hfront : isFront c = true := by simp [isFront, hc]
    have hblank := skipBlanks_cons (not_blank_of_isFront hfront) (ds ++ rest)
    have hother : ∀ d, isDigit d = false → c ≠ d := by
      rintro d hd rfl
      exact absurd hc (by simp [hd])
    simp [heq, Outline.within, hblank, hread, hc, hother '[' (by decide),
      hother '\x7b' (by decide), hother '"' (by decide), hother 'n' (by decide),
      hother 't' (by decide), hother 'f' (by decide), hother '-' (by decide), Except.map]

theorem within_string (text : String) (depth : Nat) (rest : List Char) :
    Outline.within depth (quoted text ++ rest) = .ok (.string (some text), rest) := by
  have hquote : skipBlanks (quoted text ++ rest) =
      '"' :: (text.toList.flatMap escape ++ '"' :: rest) := by
    simp [quoted, skipBlanks_cons (show isBlank '"' = false from rfl)]
  simp [Outline.within, hquote, Outline.stringText, stringText_quoted, Except.map]

mutual

theorem within_chars : ∀ j : Json, j.Readable → ∀ depth rest, Stops isNumberPart rest →
    Outline.within depth (j.chars ++ rest) = .ok (j.outline depth, rest)
  | null, _, depth, rest, _ => by cases depth <;> rfl
  | bool true, _, depth, rest, _ => by cases depth <;> rfl
  | bool false, _, depth, rest, _ => by cases depth <;> rfl
  | number n, h, depth, rest, hrest => by
    have hn := within_number h depth hrest
    cases depth <;> exact hn
  | string text, _, depth, rest, _ => by
    have htext := within_string text depth rest
    cases depth <;> exact htext
  | array items, h, 0, rest, _ => by
    have hskip := skip_of_frame (skipFrames_items h (passesOver_items items h)) rest
    rw [chars, List.append_assoc]
    exact congrArg (Except.map (Outline.deep, ·)) hskip
  | array items, h, depth + 1, rest, _ => by
    have hlength : (itemChars items).length < (itemChars items ++ ']' :: rest).length + 1 := by
      rw [List.length_append]
      omega
    have hitems := itemsWithin_chars items h depth _ rest hlength
    rw [chars, List.append_assoc]
    exact congrArg (Except.map fun (items, rest) => (Outline.array items, rest)) hitems
  | object entries, h, 0, rest, _ => by
    have hskip := skip_of_frame (skipFrames_entries (passesOver_entries entries h)) rest
    rw [chars, List.append_assoc]
    exact congrArg (Except.map (Outline.deep, ·)) hskip
  | object entries, h, depth + 1, rest, _ => by
    have hlength :
        (entryChars entries).length < (entryChars entries ++ '\x7d' :: rest).length + 1 := by
      rw [List.length_append]
      omega
    have hentries := entriesWithin_chars entries h depth _ rest hlength
    rw [chars, List.append_assoc]
    exact congrArg (Except.map fun (entries, rest) => (Outline.object entries, rest)) hentries

theorem itemsWithin_chars : ∀ items : List Json, ItemsReadable items → ∀ depth steps rest,
    (itemChars items).length < steps →
      itemsWithin (Outline.within depth) steps true (itemChars items ++ ']' :: rest) =
        .ok (itemOutlines depth items, rest)
  | [], _, depth, steps + 1, rest, _ => rfl
  | [item], h, depth, steps + 1, rest, hsteps => by
    obtain ⟨c, cs, heq, hc⟩ := chars_front h.1
    have hread := within_chars item h.1 depth (']' :: rest) (stops_cons (by decide) _)
    rw [itemChars, heq] at hsteps
    rw [heq, List.cons_append] at hread
    rw [itemChars, heq, List.cons_append, itemsWithin_first steps hc hread]
    obtain ⟨steps, rfl⟩ := Nat.exists_eq_succ_of_ne_zero
      (show steps ≠ 0 by rw [List.length_cons] at hsteps; omega)
    rfl
  | item :: second :: items, h, depth, steps + 1, rest, hsteps => by
    obtain ⟨c, cs, heq, hc⟩ := chars_front h.1
    obtain ⟨d, ds, heq', hd⟩ := front_of_items items h.2.1
    have hread := within_chars item h.1 depth (',' :: (itemChars (second :: items) ++ ']' :: rest))
      (stops_cons (by decide) _)
    rw [itemChars, List.length_append, List.length_cons] at hsteps
    have honward := itemsWithin_chars (second :: items) h.2 depth steps rest (by omega)
    rw [heq, List.cons_append] at hread
    rw [itemChars, List.append_assoc, List.cons_append, heq, List.cons_append,
      itemsWithin_first steps hc hread]
    obtain ⟨steps, rfl⟩ := Nat.exists_eq_succ_of_ne_zero (show steps ≠ 0 by omega)
    rw [heq', List.cons_append] at honward ⊢
    rw [Nat.succ_eq_add_one, itemsWithin_comma steps hd, honward]
    rfl

theorem entriesWithin_chars : ∀ entries : List (String × Json), EntriesReadable entries →
    ∀ depth steps rest, (entryChars entries).length < steps →
      entriesWithin Outline.stringText (Outline.within depth) steps true
          (entryChars entries ++ '\x7d' :: rest) = .ok (entryOutlines depth entries, rest)
  | [], _, depth, steps + 1, rest, _ => rfl
  | [(name, value)], h, depth, steps + 1, rest, hsteps => by
    have hread := within_chars value h.1 depth ('\x7d' :: rest) (stops_cons (by decide) _)
    rw [entryChars, List.length_append, List.length_cons] at hsteps
    rw [entryChars, List.append_assoc, List.cons_append, entriesWithin_first steps name hread]
    obtain ⟨steps, rfl⟩ := Nat.exists_eq_succ_of_ne_zero (show steps ≠ 0 by omega)
    rfl
  | (name, value) :: second :: entries, h, depth, steps + 1, rest, hsteps => by
    obtain ⟨ds, heq⟩ := front_of_entries second.1 second.2 entries
    have hread := within_chars value h.1 depth
      (',' :: (entryChars (second :: entries) ++ '\x7d' :: rest)) (stops_cons (by decide) _)
    rw [entryChars, List.length_append, List.length_cons] at hsteps
    have honward := entriesWithin_chars (second :: entries) h.2 depth steps rest (by omega)
    rw [entryChars, List.append_assoc, List.append_assoc, List.cons_append, List.cons_append,
      entriesWithin_first steps name hread]
    obtain ⟨steps, rfl⟩ := Nat.exists_eq_succ_of_ne_zero (show steps ≠ 0 by omega)
    rw [heq, List.cons_append] at honward ⊢
    rw [Nat.succ_eq_add_one, entriesWithin_comma steps, honward]
    rfl

end

theorem ofText?_text {j : Json} (h : j.Readable) :
    Outline.ofText? j.text = some (j.outline depthLimit) := by
  have hread := within_chars j h depthLimit [] (stops_nil _)
  rw [List.append_nil] at hread
  rw [Outline.ofText?, text, String.toList_ofList, hread]
  rfl

end CompactSchema.Json
