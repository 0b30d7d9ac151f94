import CompactSchema.Definition.Literal
import CompactSchema.Diagnostic
import CompactSchema.Proofs.Completion
import CompactSchema.Proofs.Segments
import Mathlib.Data.List.Induction

set_option autoImplicit false

/-!
# Where faults stand

What a fault blames are characters of the text that it refers to: the next one, a word or a number,
or everything since a slash that opens something. Nothing is blamed only at the end of the text. So
the place of a fault is counted from whole characters, and its report shows lines of the text.
-/

namespace CompactSchema

open Text

namespace Definition.Parser

open SyntaxError Grammar

variable {α β : Type}

/-- The fault blames characters that the cursor has ahead, or the end behind all of them. -/
structure Blames (k : Cursor) (f : Fault) (front word back : List Char) : Prop where
  rest_eq : k.rest = front ++ word ++ back
  start_eq : f.start = k.position.index + byteLength front
  stop_eq : f.stop = f.start + byteLength word
  back_eq : word = [] → back = []
  cause_ne : f.cause ≠ .unterminatedComment

def Located (k : Cursor) (f : Fault) : Prop := ∃ front word back, Blames k f front word back

theorem Located.of_passes {k s : Cursor} {a : List Char} {f : Fault} (ha : k.Passes a s)
    (h : Located s f) : Located k f := by
  obtain ⟨front, word, back, h⟩ := h
  refine ⟨a ++ front, word, back, ?_, ?_, h.stop_eq, h.back_eq, h.cause_ne⟩
  · rw [ha.rest_eq, h.rest_eq]
    simp only [List.append_assoc]
  · rw [h.start_eq, ha.index_eq, byteLength_append, Nat.add_assoc]

/-- What was taken off the text since the cursor is to blame. -/
theorem located_of_passes {k s : Cursor} {a : List Char} {cause : Cause} (ha : k.Passes a s)
    (hne : a ≠ []) (hcause : cause ≠ .unterminatedComment) :
    Located k ⟨cause, k.position.index, s.position.index⟩ :=
  ⟨[], a, s.rest, ha.rest_eq, rfl, ha.index_eq, fun h => absurd h hne, hcause⟩

theorem located_end (k : Cursor) {cause : Cause} (hcause : cause ≠ .unterminatedComment) :
    Located k (k.fault none cause) :=
  ⟨k.rest, [], [], by simp, rfl, rfl, fun _ => rfl, hcause⟩

theorem located_peek (k : Cursor) {cause : Cause} (hcause : cause ≠ .unterminatedComment) :
    Located k (k.fault k.peek? cause) := by
  cases hr : k.rest with
  | nil =>
    have hpeek : k.peek? = none := by simp [Cursor.peek?, hr]
    exact hpeek ▸ located_end k hcause
  | cons c rest =>
    have hpeek : k.peek? = some (k.position.index, c) := by simp [Cursor.peek?, hr]
    rw [hpeek]
    exact ⟨[], [c], rest, hr, rfl, by simp [Cursor.fault, byteLength], by simp, hcause⟩

/-- Wherever the reader fails, it blames characters that it had ahead. -/
def Locates (read : Reader α) : Prop := ∀ k f, read k = .error f → Located k f

theorem locates_of_ok {read : Reader α} (h : ∀ k f, read k ≠ .error f) : Locates read :=
  fun k f hf => absurd hf (h k f)

theorem locates_give (x : α) : Locates (give x) := locates_of_ok fun _ _ => by simp [give]

theorem locates_word (p : Char → Bool) : Locates (word p) := locates_of_ok fun _ _ => by simp [word]

theorem locates_ite {c : Prop} [Decidable c] {read read' : Reader α} (h : Locates read)
    (h' : Locates read') : Locates (if c then read else read') := by
  split
  · exact h
  · exact h'

theorem locates_andThen {Seen : List Char → Prop} {read : Reader α} {next : α → Reader β}
    (hsteady : Steady Seen read read) (hread : Locates read) (hnext : ∀ x, Locates (next x)) :
    Locates (andThen read next) := by
  intro k f hf
  rcases andThen_error hf with hx | ⟨x, s, hx, hs⟩
  · exact hread k f hx
  · obtain ⟨a, ha⟩ := hsteady.moves hx
    exact (hnext x s f hs).of_passes ha

theorem locates_map {read : Reader α} (h : Locates read) (f : α → β) :
    Locates (andThen read fun x => give (f x)) :=
  fun k e he => h k e (map_error he)

theorem locates_looking {peek : List Char → Option Char} {next : Option Char → Reader α}
    (h : ∀ o, Locates (next o)) : Locates (looking peek next) :=
  fun k f hf => h _ k f hf

theorem locates_skipping {read : Reader α} (h : Locates read) : Locates (skipping read) :=
  fun k f hf => (h k.skipBlanks f hf).of_passes k.passes_skipBlanks

theorem exists_passes_read (k : Cursor) : ∃ a, k.Passes a k.read.2 := by
  cases hr : k.rest with
  | nil =>
    have hread : k.read.2 = k := by simp [Cursor.read, hr]
    exact ⟨[], hread.symm ▸ k.passes_nil⟩
  | cons c rest => exact ⟨[c], Cursor.passes_read hr⟩

theorem locates_stepping {read : Reader α} (h : Locates read) : Locates (stepping read) := by
  intro k f hf
  obtain ⟨a, ha⟩ := exists_passes_read k
  exact (h k.read.2 f hf).of_passes ha

theorem locates_after {read : Reader α} (h : Locates read) : Locates (after read) :=
  locates_skipping (locates_stepping h)

theorem locates_signed {next : Bool → Reader α} (h : ∀ negative, Locates (next negative)) :
    Locates (signed next) := by
  unfold signed
  exact locates_looking fun c => locates_ite (locates_stepping (h true)) (h false)

section Faults

variable {cause : Cause} (hcause : cause ≠ .unterminatedComment)
include hcause

theorem locates_blame : Locates (blame cause : Reader α) := by
  intro k f hf
  obtain rfl := Except.error.inj hf
  exact located_peek k hcause

theorem locates_blameNext : Locates (blameNext cause : Reader α) :=
  locates_skipping (locates_blame hcause)

end Faults

/-! ## Every reader -/

theorem locates_integer : Locates integer := by
  intro k f hf
  refine Located.of_passes k.passes_skipBlanks ?_
  have hdigits := (minus k.skipBlanks).2.passes_readWhile isDigit
  have hpasses := (passes_minus k.skipBlanks).trans hdigits
  simp only [integer, List.isEmpty_iff] at hf
  split at hf
  · obtain rfl := Except.error.inj hf
    exact (located_peek _ (by decide)).of_passes hpasses
  · next hne =>
    have hword : sign (minus k.skipBlanks).1 ++
        (minus k.skipBlanks).2.rest.takeWhile isDigit ≠ [] := by
      rw [← Cursor.readWhile_fst]
      exact fun h => hne (List.append_eq_nil_iff.mp h).2
    split at hf
    · split at hf
      · exact absurd hf (by simp)
      · obtain rfl := Except.error.inj hf
        exact located_of_passes hpasses hword (by decide)
    · split at hf
      · exact absurd hf (by simp)
      · obtain rfl := Except.error.inj hf
        exact located_of_passes hpasses hword (by decide)

theorem locates_wholeDigits : Locates wholeDigits := by
  rw [wholeDigits_eq]
  refine locates_looking fun
    | none => locates_blame (by decide)
    | some c => locates_ite (locates_stepping (locates_looking fun d => ?_)) ?_
  · exact locates_ite (locates_give _) (locates_blame (by decide))
  · exact locates_ite (locates_word _) (locates_blame (by decide))

theorem locates_decimal : Locates decimal := by
  rw [decimal_eq]
  refine locates_skipping (locates_signed fun negative =>
    locates_andThen steady_wholeDigits locates_wholeDigits fun whole => ?_)
  exact locates_of_ok fun _ _ => by simp [andThen_apply, give, ok_bind]

theorem locates_bound? (w : Keyword) : Locates (bound? w) := by
  rw [bound?_eq]
  refine locates_looking fun
    | none => locates_give _
    | some c => locates_ite (locates_ite ?_ ?_) (locates_give _)
  · exact locates_map locates_decimal _
  · exact locates_map locates_integer _

theorem locates_bounds (w : Keyword) : Locates (bounds w) := by
  rw [bounds_eq]
  refine locates_andThen (steady_bound? w) (locates_bound? w) fun low => locates_looking fun c =>
    locates_ite (locates_after (locates_give _)) (locates_ite (locates_after ?_)
      (locates_blameNext (by decide)))
  refine locates_andThen (steady_bound? w) (locates_bound? w) fun high =>
    locates_looking fun c => ?_
  exact locates_ite (locates_after (locates_give _)) (locates_blameNext (by decide))

theorem locates_keyword : Locates keyword := by
  intro k f hf
  refine Located.of_passes k.passes_skipBlanks ?_
  have hword := k.skipBlanks.passes_readWhile isNamePart
  simp only [keyword, List.isEmpty_iff] at hf
  split at hf
  · obtain rfl := Except.error.inj hf
    exact (located_peek _ (by decide)).of_passes hword
  · next hne =>
    split at hf
    · exact absurd hf (by simp)
    · obtain rfl := Except.error.inj hf
      exact located_of_passes hword (by rwa [← Cursor.readWhile_fst]) (by decide)

theorem locates_primitive : Locates primitive := by
  rw [primitive_eq]
  refine locates_andThen steady_keyword locates_keyword fun w =>
    locates_ite (locates_looking fun c => locates_ite (locates_after ?_) (locates_give _))
      (locates_give _)
  exact locates_map (locates_bounds w) _

theorem locates_name {cause : Cause} (hcause : cause ≠ .unterminatedComment) :
    Locates (name cause) := by
  rw [name_eq]
  refine locates_skipping (locates_looking fun
    | none => locates_blame hcause
    | some c => locates_ite (locates_map (locates_word _) _) (locates_blame hcause))

/-- A pattern is blamed from its opening slash on. -/
theorem locates_pattern (accepts : PatternLiteral → Bool) :
    Locates (marking fun opened => stepping (pattern accepts opened)) := by
  intro k f hf
  obtain ⟨a, ha⟩ := exists_passes_read k
  rw [marking, stepping, moving, pattern] at hf
  split at hf
  · obtain rfl := Except.error.inj hf
    exact ⟨[], k.rest, [], by simp, rfl, ha.stop_eq, fun _ => rfl, by simp⟩
  · next body rest hsplit =>
    obtain ⟨hrest, -⟩ := splitPattern?_eq_some.mp hsplit
    have hbody : k.read.2.Passes (body ++ ['/']) (k.read.2.skipOver (body ++ ['/']) rest) :=
      Cursor.passes_skipOver (by simpa using hrest)
    have hpasses := ha.trans (hbody.trans (Cursor.passes_readWhile _ isFlag))
    dsimp only at hf
    split at hf
    · exact absurd hf (by simp)
    · obtain rfl := Except.error.inj hf
      exact located_of_passes hpasses (by simp) (by decide)

theorem locates_items {Seen : List Char → Prop} {item : Reader α} (hsteady : Steady Seen item item)
    (h : Locates item) (close : Char) {missing : Cause}
    (hmissing : missing ≠ .unterminatedComment) : Locates (items close missing item) := by
  have hsteps : ∀ steps, Locates (itemsWithin close missing item steps) := by
    intro steps
    induction steps with
    | zero =>
      intro k f hf
      obtain rfl := Except.error.inj hf
      exact located_end k hmissing
    | succ steps ih =>
      rw [itemsWithin_succ]
      refine locates_looking fun c => locates_ite (locates_after (locates_give _)) ?_
      refine locates_andThen hsteady h fun x => locates_looking fun d =>
        locates_ite (locates_after (locates_map ih _)) ?_
      exact locates_ite (locates_after (locates_give _)) (locates_blameNext hmissing)
  exact fun k f hf => hsteps _ k f hf

theorem locates_enumeration : Locates enumeration := by
  have hlabelled : Locates labelled := by
    rw [labelled_eq]
    refine locates_looking fun
      | none => locates_give _
      | some c => locates_ite ?_ (locates_give _)
    refine locates_andThen (steady_name _) (locates_name (by decide)) fun _ =>
      locates_looking fun d => ?_
    exact locates_ite (locates_after (locates_give _)) (locates_blameNext (by decide))
  have hitem : Locates enumerationItem := by
    rw [enumerationItem_eq]
    exact locates_andThen steady_labelled hlabelled fun _ => locates_looking fun
      | none => locates_blameNext (by decide)
      | some c => locates_ite locates_integer (locates_blameNext (by decide))
  rw [enumeration_eq]
  exact locates_map (locates_items steady_enumerationItem hitem _ (by decide)) _

section Nested

variable {inner : Reader Definition} (hsteady : Steady Significant inner inner)
  (h : Locates inner)
include hsteady h

theorem locates_object : Locates (object inner) := by
  have hmark : Locates mark := locates_of_ok fun _ _ => by simp [mark_apply]
  have hmember : Locates (member inner) := by
    rw [member_eq]
    refine locates_andThen (steady_name _) (locates_name (by decide)) fun name =>
      locates_andThen steady_mark hmark fun optional => locates_looking fun c => ?_
    exact locates_ite (locates_after (locates_map h _)) (locates_blameNext (by decide))
  rw [object_eq]
  exact locates_map (locates_items (steady_member hsteady) hmember _ (by decide)) _

theorem locates_bareElement : Locates (bareElement inner) := by
  rw [bareElement_eq]
  refine locates_looking fun
    | none => locates_blameNext (by decide)
    | some c => locates_ite (locates_after locates_enumeration) ?_
  refine locates_ite (locates_after (locates_object hsteady h)) ?_
  exact locates_ite (locates_blameNext (by decide)) (locates_map locates_keyword _)

theorem locates_array : Locates (array inner) := by
  rw [array_eq, element_eq]
  refine locates_looking fun c => locates_ite (locates_after (locates_give _)) (locates_map ?_ _)
  refine locates_andThen (steady_bareElement hsteady) (locates_bareElement hsteady h) fun d =>
    locates_looking fun c => locates_ite (locates_after (locates_give _)) ?_
  exact locates_ite (locates_blameNext (by decide)) (locates_blameNext (by decide))

end Nested

theorem locates_value (accepts : PatternLiteral → Bool) (n : Nat) :
    Locates (value accepts n) := by
  induction n with
  | zero =>
    intro k f hf
    obtain rfl := Except.error.inj hf
    exact located_end k (by decide)
  | succ n ih =>
    have hsteady := steady_value accepts n n
    rw [value_succ]
    refine locates_looking fun
      | none => locates_blameNext (by decide)
      | some c => ?_
    refine locates_ite (locates_after (locates_object hsteady ih)) ?_
    refine locates_ite (locates_after locates_enumeration) ?_
    refine locates_ite (locates_skipping ?_) ?_
    · exact locates_map (locates_pattern accepts) Definition.pattern
    · exact locates_ite (locates_after (locates_array hsteady ih)) locates_primitive

theorem locates_wholly (accepts : PatternLiteral → Bool) : Locates (wholly accepts) := by
  have hvalue : Locates fun k => value accepts (k.rest.length + 1) k :=
    fun k f hf => locates_value accepts _ k f hf
  have hsteady := steady_choosing (steady_value accepts) (·.rest.length + 1) (·.rest.length + 1)
  refine locates_andThen hsteady hvalue fun d => locates_looking fun
    | some _ => locates_blameNext (by decide)
    | none => locates_give d

end Definition.Parser

/-! ## Characters and bytes -/

namespace Text

theorem byteLength_eq_zero {cs : List Char} : byteLength cs = 0 ↔ cs = [] := by
  cases cs with
  | nil => exact iff_of_true rfl rfl
  | cons c cs =>
    have hpos := c.utf8Size_pos
    rw [Stripper.byteLength_cons]
    exact iff_of_false (by omega) (by simp)

theorem takeBytes_byteLength (front back : List Char) :
    takeBytes (byteLength front) (front ++ back) = front := by
  induction front with
  | nil =>
    cases back with
    | nil => rfl
    | cons c cs =>
      have hpos := c.utf8Size_pos
      exact if_neg (by simp only [byteLength, List.map_nil, List.sum_nil]; omega)
  | cons c front ih =>
    rw [List.cons_append, takeBytes, Stripper.byteLength_cons, if_pos (Nat.le_add_right _ _),
      Nat.add_sub_cancel_left, ih]

/-- The last line of `cs`, as far as it goes, and the lines above it. -/
theorem exists_lastLine (cs : List Char) :
    ∃ above here, cs = above ++ here ∧ '\n' ∉ here ∧ (above = [] ∨ above.getLast? = some '\n') ∧
      Position.after cs = ⟨above.count '\n' + 1, here.length + 1, byteLength cs⟩ := by
  induction cs using List.reverseRecOn with
  | nil => exact ⟨[], [], rfl, List.not_mem_nil, .inl rfl, rfl⟩
  | append_singleton cs c ih =>
    obtain ⟨above, here, rfl, hhere, habove, hafter⟩ := ih
    have hlength : byteLength (above ++ here ++ [c]) = byteLength (above ++ here) + c.utf8Size := by
      rw [byteLength_append]
      rfl
    rw [Position.after_concat, hafter, hlength]
    by_cases hc : c = '\n'
    · subst hc
      have hcount : (above ++ here ++ ['\n']).count '\n' = above.count '\n' + 1 := by
        rw [List.count_append, List.count_append, List.count_eq_zero.mpr hhere]
        rfl
      refine ⟨above ++ here ++ ['\n'], [], (List.append_nil _).symm, List.not_mem_nil, ?_, ?_⟩
      · exact .inr (by simp)
      · rw [Position.advance, if_pos rfl, hcount]
        rfl
    · refine ⟨above, here ++ [c], List.append_assoc _ _ _, ?_, habove, ?_⟩
      · simp only [List.mem_append, List.mem_singleton, not_or]
        exact ⟨hhere, Ne.symm hc⟩
      · rw [Position.advance, if_neg hc, List.length_append]
        rfl

end Text

namespace Diagnostic

theorem numbers_linesFrom (number start : Nat) (line cs : List Char) :
    (linesFrom number start line cs).map (·.number) = List.range' number (cs.count '\n' + 1) := by
  induction cs generalizing number start line with
  | nil => rfl
  | cons c cs ih =>
    unfold linesFrom
    by_cases hc : c = '\n'
    · rw [if_pos hc, List.map_cons, ih, hc, List.count_cons_self]
      rfl
    · rw [if_neg hc, ih, List.count_cons_of_ne hc]

theorem start_le_of_mem {number start : Nat} {line cs : List Char} {l : Line}
    (h : l ∈ linesFrom number start line cs) : start ≤ l.start := by
  induction cs generalizing number start line with
  | nil =>
    obtain rfl := List.mem_singleton.mp h
    exact Nat.le_refl start
  | cons c cs ih =>
    unfold linesFrom at h
    split at h
    · rcases List.mem_cons.mp h with rfl | h
      · exact Nat.le_refl start
      · have hstart := ih h
        omega
    · exact ih h

/-- Of the lines from `start` on, one starts up to a byte of the first line. -/
theorem reached_first {number start stop : Nat} {line cs : List Char} (hstart : start ≤ stop)
    (hstop : stop ≤ start + byteLength line) :
    ((linesFrom number start line cs).filter (·.start ≤ stop)).length = 1 := by
  induction cs generalizing line with
  | nil => simp [linesFrom, hstart]
  | cons c cs ih =>
    unfold linesFrom
    split
    · have hnone : (linesFrom (number + 1) (start + byteLength line + 1) [] cs).filter
          (·.start ≤ stop) = [] := by
        rw [List.filter_eq_nil_iff]
        intro l hl
        have hle := start_le_of_mem hl
        simp only [decide_eq_true_eq]
        omega
      rw [List.filter_cons_of_pos (by simpa using hstart), hnone]
      rfl
    · refine ih ?_
      rw [Stripper.byteLength_cons]
      omega

/-- As many lines start up to the end of `front` as there are in `front`. -/
theorem reached_linesFrom (number start : Nat) (line front back : List Char) :
    ((linesFrom number start line (front ++ back)).filter
      (·.start ≤ start + byteLength line + byteLength front)).length = front.count '\n' + 1 := by
  induction front generalizing number start line with
  | nil => exact reached_first (Nat.le_add_right _ _) (Nat.le_refl _)
  | cons c front ih =>
    rw [List.cons_append, linesFrom, Stripper.byteLength_cons]
    by_cases hc : c = '\n'
    · subst hc
      have hsize : '\n'.utf8Size = 1 := rfl
      have hrest := ih (number + 1) (start + byteLength line + 1) []
      rw [if_pos rfl, List.filter_cons_of_pos (by simp only [decide_eq_true_eq]; omega),
        List.length_cons, List.count_cons_self, ← hrest, hsize]
      simp only [byteLength, List.map_nil, List.sum_nil, Nat.add_zero, Nat.add_assoc]
    · have hrest := ih number start (c :: line)
      rw [if_neg hc, List.count_cons_of_ne hc, ← hrest, Stripper.byteLength_cons]
      simp only [Nat.add_assoc, Nat.add_left_comm]

end Diagnostic

namespace SyntaxError

/-- The blamed range holds `word`. In front of it stand whole lines, `above`, and in its own line
    `here`. Nothing is blamed only at the end of the text. -/
structure Spans (e : SyntaxError) (above here word back : List Char) : Prop where
  text_eq : e.text.toList = above ++ here ++ word ++ back
  start_eq : e.start = byteLength (above ++ here)
  stop_eq : e.stop = byteLength (above ++ here ++ word)
  above_lines : above = [] ∨ above.getLast? = some '\n'
  here_line : '\n' ∉ here
  back_eq : word = [] → back = []

namespace Spans

variable {e : SyntaxError} {above here word back : List Char} (h : e.Spans above here word back)
include h

theorem takeBytes_start : takeBytes e.start e.text.toList = above ++ here := by
  rw [h.text_eq, h.start_eq, List.append_assoc]
  exact takeBytes_byteLength _ _

theorem takeBytes_stop : takeBytes e.stop e.text.toList = above ++ here ++ word := by
  rw [h.text_eq, h.stop_eq]
  exact takeBytes_byteLength _ _

theorem start_le_stop : e.start ≤ e.stop := by
  rw [h.start_eq, h.stop_eq, byteLength_append _ word]
  exact Nat.le_add_right _ _

theorem stop_le : e.stop ≤ byteLength e.text.toList := by
  rw [h.text_eq, h.stop_eq, byteLength_append _ back]
  exact Nat.le_add_right _ _

theorem start_eq_stop_iff : e.start = e.stop ↔ e.start = byteLength e.text.toList := by
  have hword : e.start = e.stop ↔ word = [] := by
    rw [← byteLength_eq_zero, h.start_eq, h.stop_eq, byteLength_append _ word]
    omega
  have hend : e.start = byteLength e.text.toList ↔ word = [] ∧ back = [] := by
    rw [← byteLength_eq_zero, ← byteLength_eq_zero, h.text_eq, h.start_eq, byteLength_append _ back,
      byteLength_append _ word]
    omega
  rw [hword, hend]
  exact ⟨fun hnil => ⟨hnil, h.back_eq hnil⟩, And.left⟩

/-- The report shows the lines from the one where the range starts to the one where it ends. -/
theorem lines : (Diagnostic.blamedLines e).map (·.number) =
    List.range' ((above ++ here).count '\n' + 1) (word.count '\n' + 1) := by
  have hreached : ∀ front behind, e.text.toList = front ++ behind →
      ((Diagnostic.linesOf e.text).filter (·.start ≤ byteLength front)).length =
        front.count '\n' + 1 := by
    intro front behind htext
    have hlines := Diagnostic.reached_linesFrom 1 0 [] front behind
    rw [← htext, show 0 + byteLength [] + byteLength front = byteLength front from
      Nat.zero_add _] at hlines
    exact hlines
  have hstart := hreached (above ++ here) (word ++ back) (by simp [h.text_eq])
  have hstop := hreached (above ++ here ++ word) back h.text_eq
  obtain ⟨more, hnumbers⟩ : ∃ more, (Diagnostic.linesOf e.text).map (·.number) =
      List.range' 1 ((above ++ here ++ word).count '\n' + 1) ++ more := by
    have hcount : e.text.toList.count '\n' + 1 =
        (above ++ here ++ word).count '\n' + 1 + back.count '\n' := by
      rw [h.text_eq, @List.count_append _ _ _ _ back]
      omega
    have hall : (Diagnostic.linesOf e.text).map (·.number) = _ :=
      Diagnostic.numbers_linesFrom 1 0 [] e.text.toList
    rw [hcount, ← List.range'_append_1] at hall
    exact ⟨_, hall⟩
  have hword : (above ++ here ++ word).count '\n' + 1 - (above ++ here).count '\n' =
      word.count '\n' + 1 := by
    rw [@List.count_append _ _ _ _ word]
    omega
  unfold Diagnostic.blamedLines
  dsimp only
  rw [h.start_eq, h.stop_eq, hstart, hstop, List.map_drop, List.map_take, hnumbers,
    List.take_left' List.length_range', List.drop_range', Nat.add_sub_cancel, hword, Nat.mul_one,
    Nat.add_comm 1]

end Spans

theorem exists_spans {e : SyntaxError} {front word back : List Char}
    (htext : e.text.toList = front ++ word ++ back) (hstart : e.start = byteLength front)
    (hstop : e.stop = e.start + byteLength word) (hback : word = [] → back = []) :
    ∃ above here, e.Spans above here word back ∧
      e.position = ⟨above.count '\n' + 1, here.length + 1, e.start⟩ := by
  obtain ⟨above, here, rfl, hhere, habove, hafter⟩ := exists_lastLine front
  have hspans : e.Spans above here word back :=
    ⟨htext, hstart, by rw [hstop, hstart, ← byteLength_append], habove, hhere, hback⟩
  refine ⟨above, here, hspans, ?_⟩
  rw [position, hspans.takeBytes_start, hafter, hstart]

theorem spans_of_ofBareText {accepts : PatternLiteral → Bool} {text : String} {e : SyntaxError}
    (h : Definition.ofBareText accepts text = .error e) :
    e.text = text ∧ e.cause ≠ .unterminatedComment ∧ ∃ above here word back,
      e.Spans above here word back ∧
        e.position = ⟨above.count '\n' + 1, here.length + 1, e.start⟩ := by
  unfold Definition.ofBareText at h
  rw [Definition.Parser.whole_eq] at h
  cases hw : Definition.Parser.wholly accepts (.ofText text) with
  | ok r => exact absurd h (by simp [hw, Except.map])
  | error f =>
    rw [hw] at h
    obtain rfl : f.inText text = e := Except.error.inj h
    obtain ⟨front, word, back, hf⟩ := Definition.Parser.locates_wholly accepts _ f hw
    refine ⟨rfl, hf.cause_ne, ?_⟩
    have hstart : f.start = byteLength front := hf.start_eq.trans (Nat.zero_add _)
    obtain ⟨above, here, hspans⟩ :=
      exists_spans (e := f.inText text) hf.rest_eq hstart hf.stop_eq hf.back_eq
    exact ⟨above, here, word, back, hspans⟩

/-- An open comment is blamed with the two characters that open it. -/
theorem stripComments_eq_error {text : String} {e : SyntaxError}
    (h : stripComments text = .error e) : ∃ front body, text.toList = front ++ ['/', '*'] ++ body ∧
      e = ⟨⟨.unterminatedComment, byteLength front, byteLength front + 2⟩, text⟩ := by
  obtain ⟨segments, tail, hsplits⟩ := Stripper.exists_splits text.toList
  have hstrip : stripChars text.toList = _ := Stripper.keep_splits hsplits 0
  unfold stripComments at h
  by_cases htail : tail = []
  · rw [hstrip, if_pos htail] at h
    exact absurd h (by simp)
  · obtain ⟨body, rfl, -⟩ := Stripper.tail_of_splits hsplits htail
    rw [hstrip, if_neg htail, Nat.zero_add] at h
    refine ⟨segments.flatMap Stripper.Segment.chars, body, ?_, (Except.error.inj h).symm⟩
    rw [List.append_assoc]
    exact Stripper.text_of_splits hsplits

end SyntaxError

namespace Definition

/-- The text that a fault refers to: the given one for an open comment, else the one without
    comments. -/
theorem spans_of_ofText {text : String} {e : SyntaxError} (h : ofText text = .error e) :
    (e.cause = .unterminatedComment ∧ e.text = text ∨
      e.cause ≠ .unterminatedComment ∧ stripComments text = .ok e.text) ∧
    ∃ above here word back, e.Spans above here word back ∧
      e.position = ⟨above.count '\n' + 1, here.length + 1, e.start⟩ := by
  unfold ofText ofTextWith at h
  cases hstrip : stripComments text with
  | error e' =>
    rw [hstrip] at h
    obtain rfl : e' = e := Except.error.inj h
    obtain ⟨front, body, htext, rfl⟩ := SyntaxError.stripComments_eq_error hstrip
    obtain ⟨above, here, hspans⟩ := SyntaxError.exists_spans
      (e := ⟨⟨.unterminatedComment, byteLength front, byteLength front + 2⟩, text⟩)
      htext rfl rfl (by simp)
    exact ⟨.inl ⟨rfl, rfl⟩, above, here, _, body, hspans⟩
  | ok bare =>
    rw [hstrip] at h
    obtain ⟨rfl, hcause, hspans⟩ := SyntaxError.spans_of_ofBareText h
    exact ⟨.inr ⟨hcause, rfl⟩, hspans⟩

/-- Every syntax error stands at characters of the text that it refers to. Its range is empty only
    at the end of the text, its line and its column are those where the range starts, and its report
    shows the lines of the range. -/
theorem position_of_ofText {text : String} {e : SyntaxError} (h : ofText text = .error e) :
    (e.cause = .unterminatedComment ∧ e.text = text ∨
      e.cause ≠ .unterminatedComment ∧ stripComments text = .ok e.text) ∧
    ∃ above here word back, e.Spans above here word back ∧
      e.start ≤ e.stop ∧ e.stop ≤ byteLength e.text.toList ∧
      (e.start = e.stop ↔ e.start = byteLength e.text.toList) ∧
      takeBytes e.start e.text.toList = above ++ here ∧
      takeBytes e.stop e.text.toList = above ++ here ++ word ∧
      e.position = ⟨above.count '\n' + 1, here.length + 1, e.start⟩ ∧
      (Diagnostic.blamedLines e).map (·.number) =
        List.range' e.position.line (word.count '\n' + 1) := by
  obtain ⟨htext, above, here, word, back, hspans, hposition⟩ := spans_of_ofText h
  refine ⟨htext, above, here, word, back, hspans, hspans.start_le_stop, hspans.stop_le,
    hspans.start_eq_stop_iff, hspans.takeBytes_start, hspans.takeBytes_stop, hposition, ?_⟩
  rw [hspans.lines, hposition, List.count_append, List.count_eq_zero.mpr hspans.here_line]

/-- A name that cannot start as it does, behind characters of two bytes and on a second line. -/
theorem position_of_invalidName :
    let e : SyntaxError := ⟨⟨.invalidMemberName, 4, 6⟩, "\x7b \n é: int \x7d"⟩
    ofText "\x7b // é\n é: int \x7d" = .error e ∧ e.position = ⟨2, 2, 4⟩ ∧
      ∃ above here word back, e.Spans above here word back ∧
        takeBytes e.start e.text.toList = above ++ here ∧
        (Diagnostic.blamedLines e).map (·.number) = [2] := by
  intro e
  have h : ofText "\x7b // é\n é: int \x7d" = .error e := rfl
  obtain ⟨-, above, here, word, back, hspans, -, -, -, hstart, -, -, -⟩ := position_of_ofText h
  exact ⟨h, by decide, above, here, word, back, hspans, hstart, by decide⟩

end Definition

end CompactSchema
