import CompactSchema.Definition.Literal
import CompactSchema.Proofs.Literals

set_option autoImplicit false

/-!
# Comments put into a text and taken out of it

Behind a text that ends between two segments the stripper goes on as it does at a start. So what is
kept of a text and of what follows is kept one after the other, and a comment that is put there
changes nothing but the bytes that an open comment behind it is found at. A text that was stripped
is left as it is.
-/

namespace CompactSchema

open Text

/-- The fault as it is found behind `n` more bytes. -/
def SyntaxError.Fault.moved (fault : Fault) (n : Nat) : Fault :=
  ⟨fault.cause, n + fault.start, n + fault.stop⟩

namespace Stripper

open SyntaxError Segment

/-- The stripper that has read `cs` stands between two segments: in no comment and no pattern, and
    behind no slash whose meaning is open. -/
def Boundary (cs : List Char) : Prop := (run .plain 0 cs).1 = .plain

instance : DecidablePred Boundary := fun cs =>
  inferInstanceAs (Decidable ((run .plain 0 cs).1 = .plain))

theorem keep_append (mode : Mode) (index : Nat) (cs ds : List Char) :
    keep mode index (cs ++ ds) =
      (keep (run mode index cs).1 (index + byteLength cs) ds).map ((run mode index cs).2 ++ ·) := by
  induction cs generalizing mode index with
  | nil => exact (map_nil_append _).symm
  | cons c cs ih =>
    rw [List.cons_append, keep_cons, ih, map_append, byteLength_cons, ← Nat.add_assoc, run]

/-- Between two segments, only the bytes of a fault depend on where the text is read. -/
theorem keep_moved (index : Nat) (cs : List Char) :
    keep .plain index cs = (stripChars cs).mapError (·.moved index) := by
  obtain ⟨segments, tail, h⟩ := exists_splits cs
  have hstart : stripChars cs = _ := keep_splits h 0
  rw [keep_splits h, hstart]
  split
  · rfl
  · refine congrArg Except.error ?_
    simp [Fault.moved, Nat.add_assoc]

variable {cs ds : List Char}

theorem Boundary.stripChars_eq (h : Boundary cs) : stripChars cs = .ok (run .plain 0 cs).2 := by
  have hfinish : finish (run .plain 0 cs).1 = .ok [] := by rw [h]; rfl
  rw [show stripChars cs = (finish (run .plain 0 cs).1).map ((run .plain 0 cs).2 ++ ·) from rfl,
    hfinish]
  exact congrArg Except.ok (List.append_nil _)

theorem Boundary.stripChars_append (h : Boundary cs) (ds : List Char) :
    stripChars (cs ++ ds) =
      ((stripChars ds).mapError (·.moved (byteLength cs))).map ((run .plain 0 cs).2 ++ ·) := by
  rw [show stripChars (cs ++ ds) = keep .plain 0 (cs ++ ds) from rfl, keep_append, h, keep_moved,
    Nat.zero_add]

/-- Nothing is kept of a comment that stands in front of `ds`. -/
theorem stripChars_comment {s : Segment} (hs : s.Leads ds) (hcomment : s.isComment = true) :
    stripChars (s.chars ++ ds) = (stripChars ds).mapError (·.moved (byteLength s.chars)) := by
  have hkept : s.kept = [] := if_pos hcomment
  rw [show stripChars (s.chars ++ ds) = keep .plain 0 (s.chars ++ ds) from rfl, keep_segment hs,
    keep_moved, hkept, map_nil_append, Nat.zero_add]

theorem leads_blockComment {body : List Char} (h : ¬ ['*', '/'] <:+: body) (rest : List Char) :
    (blockComment body).Leads rest := by
  intro hi
  rcases List.infix_concat_iff.mp hi with ⟨front, hfront⟩ | hinner
  · exact absurd (congrArg List.getLast? hfront) (by simp)
  · exact h hinner

theorem byteLength_blockComment (body : List Char) :
    byteLength (blockComment body).chars = byteLength body + 4 := by
  have hends : byteLength ['/', '*'] + byteLength ['*', '/'] = 4 := rfl
  rw [show (blockComment body).chars = ['/', '*'] ++ body ++ ['*', '/'] from rfl,
    byteLength_append, byteLength_append]
  omega

theorem byteLength_lineComment (body : List Char) :
    byteLength (lineComment body).chars = byteLength body + 2 := by
  have hopen : byteLength ['/', '/'] = 2 := rfl
  rw [show (lineComment body).chars = ['/', '/'] ++ body from rfl, byteLength_append]
  omega

theorem stripChars_eq_error {fault : Fault} (h : stripChars cs = .error fault) :
    fault.cause = .unterminatedComment := by
  obtain ⟨segments, tail, hsplits⟩ := exists_splits cs
  have hstrip : stripChars cs = _ := keep_splits hsplits 0
  rw [h] at hstrip
  split at hstrip
  · exact nomatch hstrip
  · rw [Except.error.inj hstrip]

end Stripper

/-! ## Texts -/

/-- Two texts are read alike: as the same definition, with the same fault in the same text without
    comments, or each with an open comment, which in the second one stands `n` bytes further on. -/
inductive SameReading (n : Nat) :
    Except SyntaxError Definition → Except SyntaxError Definition → Prop
  | same {reading : Except SyntaxError Definition} : SameReading n reading reading
  | openComment {e e' : SyntaxError} : e.cause = .unterminatedComment →
      e'.toFault = e.toFault.moved n → SameReading n (.error e) (.error e')

namespace Definition

open Stripper

variable {cs ds : List Char} {text other : String} {s : Stripper.Segment}

theorem ofText_of_ok {kept : List Char} (h : stripChars text.toList = .ok kept) :
    ofText text = ofBareText PatternLiteral.compiles (.ofList kept) := by
  rw [ofText, ofTextWith, stripComments, h]
  rfl

theorem ofText_of_error {fault : SyntaxError.Fault} (h : stripChars text.toList = .error fault) :
    ofText text = .error (fault.inText text) := by
  rw [ofText, ofTextWith, stripComments, h]
  rfl

theorem sameReading_of_comment (h : Boundary cs) (hs : s.Leads ds) (hcomment : s.isComment = true)
    (htext : text.toList = cs ++ ds) (hother : other.toList = cs ++ (s.chars ++ ds)) :
    SameReading (byteLength s.chars) (ofText text) (ofText other) := by
  have hhere := h.stripChars_append ds
  have hthere := h.stripChars_append (s.chars ++ ds)
  rw [stripChars_comment hs hcomment] at hthere
  rw [← htext] at hhere
  rw [← hother] at hthere
  cases hds : stripChars ds with
  | ok more =>
    rw [hds] at hhere hthere
    rw [ofText_of_ok hhere, ofText_of_ok hthere]
    exact .same
  | error fault =>
    rw [hds] at hhere hthere
    rw [ofText_of_error hhere, ofText_of_error hthere]
    have hcause : fault.cause = .unterminatedComment := stripChars_eq_error hds
    refine .openComment hcause ?_
    simp only [SyntaxError.Fault.inText, SyntaxError.Fault.moved, SyntaxError.Fault.mk.injEq,
      true_and]
    omega

end Definition

namespace Stripper

/-- Comments outside of patterns do not count. Behind a text that ends between two segments, what
    is kept of `b` is kept behind what is kept of `a`; and any comment put between the two, a line
    comment in front of a line feed, leaves the same definition or the same fault. -/
theorem comments_insignificant {a : String} (h : Boundary a.toList) (b c : String) :
    (∃ kept, stripComments a = .ok kept ∧
      stripComments (a ++ b) = match stripComments b with
        | .ok more => .ok (kept ++ more)
        | .error e => .error ((e.toFault.moved (byteLength a.toList)).inText (a ++ b))) ∧
    (¬ ['*', '/'] <:+: c.toList →
      SameReading (byteLength c.toList + 4) (Definition.ofText (a ++ b))
        (Definition.ofText (a ++ "/*" ++ c ++ "*/" ++ b))) ∧
    ('\n' ∉ c.toList →
      SameReading (byteLength c.toList + 2) (Definition.ofText (a ++ "\n" ++ b))
        (Definition.ofText (a ++ "//" ++ c ++ "\n" ++ b))) := by
  refine ⟨?_, fun hc => ?_, fun hc => ?_⟩
  · refine ⟨.ofList (run .plain 0 a.toList).2, ?_, ?_⟩
    · simp only [stripComments, h.stripChars_eq]
    · simp only [stripComments, String.toList_append, h.stripChars_append]
      cases stripChars b.toList with
      | ok more => exact congrArg Except.ok String.ofList_append
      | error fault => rfl
  · rw [← byteLength_blockComment]
    refine Definition.sameReading_of_comment h (leads_blockComment hc b.toList) rfl ?_ ?_
    · simp
    · simp [Segment.chars]
  · have hleads : (Segment.lineComment c.toList).Leads ('\n' :: b.toList) := ⟨hc, .inr rfl⟩
    rw [← byteLength_lineComment]
    refine Definition.sameReading_of_comment h hleads rfl ?_ ?_
    · simp
    · simp [Segment.chars]

/-- Behind a pattern that holds the start of a comment, and a comment that holds others. -/
theorem comments_insignificant_behindPattern :
    let a := "\x7b a: /x\\/*/"
    let b := ", b: int \x7d"
    let c := "/* // é"
    Boundary a.toList ∧ ¬ ['*', '/'] <:+: c.toList ∧ '\n' ∉ c.toList ∧
      (Definition.ofText (a ++ b)).isOk = true ∧
      SameReading (byteLength c.toList + 4) (Definition.ofText (a ++ b))
        (Definition.ofText (a ++ "/*" ++ c ++ "*/" ++ b)) ∧
      SameReading (byteLength c.toList + 2) (Definition.ofText (a ++ "\n" ++ b))
        (Definition.ofText (a ++ "//" ++ c ++ "\n" ++ b)) := by
  intro a b c
  have ha : Boundary a.toList := by decide
  have hblock : ¬ ['*', '/'] <:+: c.toList := by decide +kernel
  have hline : '\n' ∉ c.toList := by decide
  obtain ⟨-, hinBlock, hinLine⟩ := comments_insignificant ha b c
  exact ⟨ha, hblock, hline, by decide +kernel, hinBlock hblock, hinLine hline⟩

/-! ## Stripping twice -/

theorem splits_iff {cs tail : List Char} {segments : List Segment} (h : Splits cs segments tail)
    (others : List Segment) (other : List Char) :
    Splits cs others other ↔ others = segments ∧ other = tail := by
  constructor
  · exact splits_unique h
  · rintro ⟨rfl, rfl⟩
    exact h

/-- Exactly the texts without comments are left as they are. -/
theorem stripComments_eq_self_iff {text : String} :
    stripComments text = .ok text ↔ Bare none text.toList := by
  rw [Definition.stripComments_eq_ok]
  exact ⟨bare_of_stripChars, stripChars_of_bare⟩

/-- Where a comment was taken out, the characters on its two sides make no new comment and no new
    pattern: a text without its comments is taken apart into the segments that were kept. So it is
    left as it is, and read as the text with the comments is. -/
theorem stripComments_idempotent {text bare : String} (h : stripComments text = .ok bare) :
    stripComments bare = .ok bare ∧ Definition.ofText bare = Definition.ofText text ∧
      ∃ segments, (∀ others other, Splits text.toList others other ↔
          others = segments ∧ other = []) ∧
        ∀ others other, Splits bare.toList others other ↔
          others = segments.filter (!·.isComment) ∧ other = [] := by
  have hchars : stripChars text.toList = .ok bare.toList := Definition.stripComments_eq_ok.mp h
  have hself : stripComments bare = .ok bare :=
    stripComments_eq_self_iff.mpr (bare_of_stripChars hchars)
  have hread : Definition.ofText bare = Definition.ofText text := by
    simp only [Definition.ofText, Definition.ofTextWith, hself, h]
  obtain ⟨segments, hsplits, hkept⟩ := splits_of_stripChars hchars
  have hbare : Splits bare.toList (segments.filter (!·.isComment)) [] := by
    rw [hkept]
    exact splits_kept hsplits rfl
  exact ⟨hself, hread, segments, splits_iff hsplits, splits_iff hbare⟩

/-- The closing slash of a pattern comes to stand in front of the opening one of another, and a
    line comment behind them is gone up to the end of its line. -/
theorem stripComments_idempotent_joined :
    stripComments "/a\\/*b//* c *//d/ // /e/\n /" = .ok "/a\\/*b//d/ \n /" ∧
      stripComments "/a\\/*b//d/ \n /" = .ok "/a\\/*b//d/ \n /" ∧
      Definition.ofText "/a\\/*b//d/ \n /" =
        Definition.ofText "/a\\/*b//* c *//d/ // /e/\n /" := by
  have h : stripComments "/a\\/*b//* c *//d/ // /e/\n /" = .ok "/a\\/*b//d/ \n /" := rfl
  obtain ⟨hself, hread, -⟩ := stripComments_idempotent h
  exact ⟨h, hself, hread⟩

end Stripper

end CompactSchema
