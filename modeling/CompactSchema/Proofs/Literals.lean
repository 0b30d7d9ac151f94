import CompactSchema.Proofs.Segments
import CompactSchema.Proofs.WellFormed

set_option autoImplicit false

/-!
# Patterns in the text

The patterns that a reader finds by the grammar, in the text without comments, are those that are
found in the text itself when it is taken apart into segments. Removing comments neither moves the
border of a pattern nor makes a new one, since each kept segment is told from its characters alone.
-/

namespace CompactSchema

namespace Definition

mutual

/-- The patterns of a definition from the outside in, members in their order. -/
def patterns : Definition → List PatternLiteral
  | pattern literal => [literal]
  | object members => memberPatterns members
  | array element => elementPatterns element
  | primitive _ | range _ | enumeration _ => []

def memberPatterns : List (Member Definition) → List PatternLiteral
  | [] => []
  | ⟨_, _, value⟩ :: members => value.patterns ++ memberPatterns members

def elementPatterns : Option Definition → List PatternLiteral
  | none => []
  | some element => element.patterns

end

theorem memberPatterns_eq_flatMap (members : List (Member Definition)) :
    memberPatterns members = members.flatMap fun m => m.value.patterns := by
  induction members with
  | nil => rfl
  | cons m members ih => rw [memberPatterns, ih, List.flatMap_cons]

end Definition

namespace Stripper

open Text Grammar Definition.Parser Segment

namespace Segment

def isOpen : Segment → Bool
  | openLiteral _ => true
  | _ => false

/-- What stands behind the opening slash of a pattern. -/
def body? : Segment → Option (List Char)
  | literal body | openLiteral body => some body
  | _ => none

end Segment

/-! ## The text without comments -/

theorem leads_of_kept {s : Segment} {rest : List Char} (hs : s.Leads rest)
    (hc : s.isComment = false) {others : List Char} (ho : rest = [] → others = []) :
    s.Leads others := by
  cases s with
  | plain | literal => exact hs
  | lineComment | blockComment => exact absurd hc (by simp [isComment])
  | openLiteral => exact ⟨hs.1, hs.2.1, ho hs.2.2⟩

theorem segments_of_nil {segments : List Segment} {tail : List Char} (h : Splits [] segments tail) :
    segments = [] :=
  (splits_unique .done h).1

/-- What is kept of a text is taken apart into the segments that were kept. -/
theorem splits_kept {cs tail : List Char} {segments : List Segment} (h : Splits cs segments tail)
    (ht : tail = []) :
    Splits (segments.flatMap kept) (segments.filter (!·.isComment)) [] := by
  induction h with
  | done => exact .done
  | openComment => exact absurd ht (by simp)
  | @segment s rest tail segments hs hrest ih =>
    cases hc : s.isComment with
    | true => simpa [hc, kept] using ih ht
    | false =>
      have hlead : s.Leads (segments.flatMap kept) := leads_of_kept hs hc fun hr => by
        subst hr
        rw [segments_of_nil hrest]
        rfl
      simpa [hc, kept] using Splits.segment hlead (ih ht)

theorem bodies_of_kept (segments : List Segment) :
    (segments.filter (!·.isComment)).filterMap body? = segments.filterMap body? := by
  induction segments with
  | nil => rfl
  | cons s segments ih =>
    have hnone : s.isComment = true → s.body? = none := by
      cases s <;> simp [isComment, body?]
    cases hc : s.isComment with
    | true => simp [hc, hnone hc, ih]
    | false => simp [hc, List.filterMap_cons, ih]

/-! ## Texts of the grammar -/

def Uncommented (segments : List Segment) : Prop := ∀ s ∈ segments, s.isComment = false

/-- In front of any text, the segments of `a` hold just the patterns `bodies`, all of them closed. -/
def Yields (a : List Char) (bodies : List (List Char)) : Prop :=
  ∀ rest segments, Splits (a ++ rest) segments [] → Uncommented segments →
    ∃ front back, segments = front ++ back ∧ Splits rest back [] ∧
      (∀ s ∈ front, s.isOpen = false) ∧ front.filterMap body? = bodies

theorem yields_append {a b : List Char} {xs ys : List (List Char)} (ha : Yields a xs)
    (hb : Yields b ys) : Yields (a ++ b) (xs ++ ys) := by
  intro rest segments h hu
  rw [List.append_assoc] at h
  obtain ⟨front, middle, rfl, hmiddle, hopen, rfl⟩ := ha _ _ h hu
  obtain ⟨more, back, rfl, hback, hopen', rfl⟩ :=
    hb _ _ hmiddle fun s hs => hu s (List.mem_append_right _ hs)
  refine ⟨front ++ more, back, (List.append_assoc _ _ _).symm, hback, ?_, List.filterMap_append⟩
  intro s hs
  rcases List.mem_append.mp hs with hs | hs
  · exact hopen s hs
  · exact hopen' s hs

theorem splits_leading {s : Segment} {rest tail : List Char} {segments : List Segment}
    (hs : s.Leads rest) (h : Splits (s.chars ++ rest) segments tail) :
    ∃ back, segments = s :: back ∧ Splits rest back tail := by
  obtain ⟨back, tail', hback⟩ := exists_splits rest
  obtain ⟨rfl, rfl⟩ := splits_unique (.segment hs hback) h
  exact ⟨back, rfl, hback⟩

theorem yields_segment {s : Segment} (hs : ∀ rest, s.Leads rest) (ho : s.isOpen = false) :
    Yields s.chars s.body?.toList := by
  intro rest segments h _
  obtain ⟨back, rfl, hback⟩ := splits_leading (hs rest) h
  refine ⟨[s], back, rfl, hback, by simpa using ho, ?_⟩
  cases hb : s.body? <;> simp [hb]

theorem yields_nil : Yields [] [] :=
  fun _ segments h _ => ⟨[], segments, rfl, h, by simp, rfl⟩

/-- A word without a slash holds no pattern. -/
theorem yields_word {word : List Char} (h : '/' ∉ word) : Yields word [] := by
  induction word with
  | nil => exact yields_nil
  | cons c word ih =>
    rw [List.mem_cons, not_or] at h
    have hlead : ∀ rest, (plain c).Leads rest := fun _ => Ne.symm h.1
    have hc : Yields [c] [] := yields_segment hlead rfl
    exact yields_append hc (ih h.2)

theorem yields_token {word a : List Char} (ha : Token word a) (hw : '/' ∉ word) : Yields a [] :=
  yields_word (Definition.slash_notMem_of_token ha hw)

/-- A slash that opens a comment is no part of a text without comments. -/
theorem opensPattern_of_uncommented {behind : List Char} {segments : List Segment}
    (h : Splits ('/' :: behind) segments []) (hu : Uncommented segments) : OpensPattern behind := by
  generalize hcs : '/' :: behind = cs at h
  generalize ht : ([] : List Char) = tail at h
  cases h with
  | done => exact absurd hcs (by simp)
  | openComment => exact absurd ht (by simp)
  | @segment s rest _ segments hs _ =>
    have hc : s.opening ≠ .line ∧ s.opening ≠ .block := by
      have hkept := hu s List.mem_cons_self
      cases s <;> simp_all [Segment.opening, isComment]
    have hopening := opening_of_leads hs
    rw [← hcs] at hopening
    refine ⟨fun hline => ?_, fun hblock => ?_⟩
    · obtain ⟨cs, rfl⟩ := List.head?_eq_some_iff.mp hline
      exact hc.1 hopening.symm
    · obtain ⟨cs, rfl⟩ := List.head?_eq_some_iff.mp hblock
      exact hc.2 hopening.symm

theorem yields_pattern {word : List Char} {p : PatternLiteral} (h : Grammar.Pattern word p) :
    Yields word [p.body.toList] := by
  obtain @⟨body, flags, hclosed, hflags⟩ := h
  have hslash : '/' ∉ flags := fun hs => by simpa using hflags '/' hs
  intro rest segments h hu
  have hcs : '/' :: body ++ '/' :: flags ++ rest = '/' :: (body ++ '/' :: (flags ++ rest)) := by simp
  rw [hcs] at h
  have hlead : (literal body).Leads (flags ++ rest) :=
    leads_literal rfl (opensPattern_of_uncommented h hu) hclosed
  have hliteral : Yields (literal body).chars [body] := yields_segment (fun _ => hlead) rfl
  have hword : Yields ((literal body).chars ++ flags) [body] :=
    yields_append hliteral (yields_word hslash)
  rw [String.toList_ofList]
  exact hword rest segments (by simpa [chars] using h) hu

theorem yields_listed {α : Type} {Item : List Char → α → Prop} {bodies : α → List (List Char)}
    {close : Char} (hclose : close ≠ '/') {a : List Char} {xs : List α}
    (h : Listed Item close a xs) (hitem : ∀ x ∈ xs, ∀ b, Item b x → Yields b (bodies x)) :
    Yields a (xs.flatMap bodies) := by
  have hc : '/' ∉ [close] := by simpa using Ne.symm hclose
  induction h with
  | done ha => exact yields_token ha hc
  | last ha hb =>
    have hx := yields_append (hitem _ (by simp) _ ha) (yields_token hb hc)
    simpa using hx
  | @more a b c x xs ha hb _ ih =>
    have htail : Yields c (xs.flatMap bodies) := ih fun y hy => hitem y (List.mem_cons_of_mem _ hy)
    have hx := yields_append (hitem x (by simp) _ ha) (yields_token hb (by decide))
    simpa using yields_append hx htail

/-- The body of each pattern, in the order of the text. -/
def bodies (d : Definition) : List (List Char) := d.patterns.map (·.body.toList)

theorem bodies_ofBounds (keyword : Keyword) (low high : Option Bound) :
    bodies (.ofBounds keyword low high) = [] := by
  cases low <;> cases high <;> rfl

theorem bodies_object (parts : List (Member Definition × List Char)) :
    bodies (.object (parts.map Prod.fst)) = parts.flatMap fun p => bodies p.1.value := by
  simp [bodies, Definition.patterns, Definition.memberPatterns_eq_flatMap, List.map_flatMap,
    List.flatMap_map]

theorem yields_value {accepts : PatternLiteral → Bool} {a : List Char} {d : Definition}
    (h : Value accepts a d) : Yields a (bodies d) := by
  induction h with
  | @primitive w _ ha => exact yields_token ha (Definition.slash_notMem_of_word w)
  | @range w _ _ _ low high _ ha hb hc =>
    have hword := Definition.slash_notMem_of_token ha (Definition.slash_notMem_of_word w)
    have hopen := Definition.slash_notMem_of_token hb (by decide)
    rw [bodies_ofBounds]
    exact yields_word (Definition.slash_notMem_append
      (Definition.slash_notMem_append hword hopen) (Definition.slash_notMem_bounds hc))
  | pattern hp _ ha =>
    obtain ⟨blanks, hblanks, rfl⟩ := ha
    have hb : '/' ∉ blanks := fun hs => absurd (hblanks '/' hs) (by decide)
    exact yields_append (yields_word hb) (yields_pattern hp)
  | @enumeration _ _ values ha hb =>
    have hitem : ∀ i ∈ values, ∀ b, Item b i → Yields b ((fun _ => []) i) :=
      fun i _ b hi => yields_word (Definition.slash_notMem_item hi)
    have hitems := yields_listed (by decide) hb hitem
    have hall := yields_append (yields_token ha (by decide)) hitems
    have hnone : values.flatMap (fun _ => ([] : List (List Char))) = [] := by simp
    rwa [hnone] at hall
  | @object _ _ parts ha hb _ ih =>
    rw [bodies_object]
    refine yields_append (yields_token ha (by decide)) (yields_listed (by decide) hb ?_)
    rintro p hp b ⟨head, hhead, rfl⟩
    exact yields_append (yields_word (Definition.slash_notMem_head hhead)) (ih p hp)
  | emptyArray ha hb =>
    exact yields_append (yields_token ha (by decide)) (yields_token hb (by decide))
  | @keywordArray w _ _ _ ha hb hc =>
    have hword := yields_token hb (Definition.slash_notMem_of_word w)
    exact yields_append (yields_append (yields_token ha (by decide)) hword)
      (yields_token hc (by decide))
  | @array element _ _ _ ha _ _ hc ih =>
    have hall := yields_append (yields_append (yields_token ha (by decide)) ih)
      (yields_token hc (by decide))
    rwa [List.append_nil] at hall

theorem splits_of_stripChars {cs kept : List Char} (h : stripChars cs = .ok kept) :
    ∃ segments, Splits cs segments [] ∧ kept = segments.flatMap Segment.kept := by
  obtain ⟨segments, tail, hs⟩ := exists_splits cs
  have hstrip : stripChars cs = _ := keep_splits hs 0
  rw [h] at hstrip
  split at hstrip
  · next ht =>
    subst ht
    exact ⟨segments, hs, Except.ok.inj hstrip⟩
  · exact absurd hstrip (by simp)

theorem isComment_of_isOpen {s : Segment} (h : s.isOpen = true) : s.isComment = false := by
  cases s <;> simp_all [isOpen, isComment]

/-- The patterns of a definition that was read are, one for one and in order, those of the text
    with its comments, and each of them is closed there. -/
theorem bodies_of_ofText {text : String} {d : Definition} (h : Definition.ofText text = .ok d) :
    ∃ segments, (∀ others other, Splits text.toList others other ↔
        others = segments ∧ other = []) ∧
      (∀ s ∈ segments, s.isOpen = false) ∧
      d.patterns.map (·.body.toList) = segments.filterMap body? := by
  obtain ⟨bare, hbare, hd⟩ := bind_eq_ok.mp h
  obtain ⟨a, blanks, htext, hblanks, ha⟩ := Definition.derives_of_ofBareText hd
  obtain ⟨segments, hs, hkept⟩ := splits_of_stripChars (Definition.stripComments_eq_ok.mp hbare)
  have hbareSplits := splits_kept hs rfl
  rw [← hkept, htext, ← List.append_nil (a ++ blanks)] at hbareSplits
  have huncommented : Uncommented (segments.filter (!·.isComment)) := fun s hs => by
    simpa using (List.mem_filter.mp hs).2
  have hslash : '/' ∉ blanks := fun hs => absurd (hblanks '/' hs) (by decide)
  have hyields : Yields (a ++ blanks) (bodies d ++ []) :=
    yields_append (yields_value ha) (yields_word hslash)
  obtain ⟨front, back, hfront, hback, hopen, hbodies⟩ := hyields _ _ hbareSplits huncommented
  rw [segments_of_nil hback, List.append_nil] at hfront
  refine ⟨segments, fun others other => ⟨fun h' => splits_unique hs h', ?_⟩, fun s hs => ?_, ?_⟩
  · rintro ⟨rfl, rfl⟩
    exact hs
  · cases ho : s.isOpen with
    | false => rfl
    | true =>
      have hmem : s ∈ segments.filter (!·.isComment) :=
        List.mem_filter.mpr ⟨hs, by simp [isComment_of_isOpen ho]⟩
      exact ho.symm.trans (hopen s (hfront ▸ hmem))
  · rw [← bodies_of_kept, hfront, hbodies, List.append_nil]
    rfl

/-- The slashes in a comment are no patterns, and a comment may stand right behind a pattern. -/
theorem bodies_of_commented :
    ∃ segments, (∀ others other,
        Splits "\x7b u: /a\\/b/ /* /x/ */, v: [\x7b w: /c//**/\x7d] // /y/\n \x7d".toList
          others other ↔ others = segments ∧ other = []) ∧
      (∀ s ∈ segments, s.isOpen = false) ∧
      ["a\\/b".toList, "c".toList] = segments.filterMap body? := by
  have h : Definition.ofText "\x7b u: /a\\/b/ /* /x/ */, v: [\x7b w: /c//**/\x7d] // /y/\n \x7d" =
      .ok (.object [⟨"u", false, .pattern ⟨"a\\/b", ⟨false, false, false⟩⟩⟩,
        ⟨"v", false, .array (some (.object [⟨"w", false, .pattern ⟨"c", ⟨false, false, false⟩⟩⟩]))⟩]) :=
    rfl
  exact bodies_of_ofText h

end Stripper

end CompactSchema
