import CompactSchema.Definition.Literal
import CompactSchema.Proofs.Bare
import CompactSchema.Proofs.Parsing
import CompactSchema.Proofs.Rounding

set_option autoImplicit false

/-!
# Well-formed definitions

What holds at every node of a definition that was read from text. A pattern must be told from a
comment, which the grammar alone does not ask for: a text of the grammar is free of comments
exactly when the definition that it writes is well-formed.
-/

namespace CompactSchema

/-- The body can stand between slashes: they do not open a comment, and the closing slash is the
    first one that no backslash precedes. -/
structure PatternLiteral.Standalone (p : PatternLiteral) : Prop where
  body_ne_nil : p.body.toList ≠ []
  body_ne_star : p.body.toList.head? ≠ some '*'
  slashesEscaped : Grammar.SlashesEscaped p.body.toList
  last_ne_backslash : p.body.toList.getLast? ≠ some '\\'

/-- Whole bounds go with whole ranges, and decimal ones, where `admits` holds, with decimal
    ranges. -/
def Bound.Fits (admits : Binary64 → Bool) (keyword : Keyword) : Bound → Prop
  | .int _ => keyword.hasDecimalBounds = false
  | .float x => keyword.hasDecimalBounds = true ∧ admits x = true

structure Range.Proper (admits : Binary64 → Bool) (r : Range) : Prop where
  acceptsRange : r.keyword.acceptsRange = true
  bounded : r.minimum ≠ none ∨ r.maximum ≠ none
  minimum_fits : ∀ b ∈ r.minimum, b.Fits admits r.keyword
  maximum_fits : ∀ b ∈ r.maximum, b.Fits admits r.keyword

def Definition.isPrimitive : Definition → Bool
  | .primitive _ => true
  | _ => false

/-- At every node: patterns are accepted and standalone, ranges are proper, member names are
    names, and arrays hold nothing, a bare keyword, an enumeration or an object. -/
inductive Definition.WellFormed (accepts : PatternLiteral → Bool) (admits : Binary64 → Bool) :
    Definition → Prop
  | primitive {keyword : Keyword} : WellFormed accepts admits (.primitive keyword)
  | range {r : Range} : r.Proper admits → WellFormed accepts admits (.range r)
  | pattern {p : PatternLiteral} : accepts p = true → p.Standalone →
    WellFormed accepts admits (.pattern p)
  | object {members : List (Member Definition)} :
    (∀ m ∈ members, Grammar.IsName m.name.toList) →
      (∀ m ∈ members, WellFormed accepts admits m.value) → WellFormed accepts admits (.object members)
  | enumeration {values : List Int64} : WellFormed accepts admits (.enumeration values)
  | emptyArray : WellFormed accepts admits (.array none)
  | array {element : Definition} : element.isPrimitive = true ∨ element.isBracketed = true →
    WellFormed accepts admits element → WellFormed accepts admits (.array (some element))

namespace Definition

open Text Grammar Definition.Parser Stripper

/-! ## Texts without a slash -/

theorem slash_notMem_append {a b : List Char} (ha : '/' ∉ a) (hb : '/' ∉ b) : '/' ∉ a ++ b := by
  rw [List.mem_append, not_or]
  exact ⟨ha, hb⟩

theorem slash_notMem_of_all {p : Char → Bool} {word : List Char} (h : ∀ c ∈ word, p c = true)
    (hp : p '/' = false) : '/' ∉ word := by
  intro hs
  exact absurd (h '/' hs) (by simp [hp])

theorem slash_notMem_of_word (w : Keyword) : '/' ∉ w.word.toList :=
  slash_notMem_of_all (Keyword.isNamePart_word w) (by decide)

theorem slash_notMem_of_token {word a : List Char} (ha : Token word a) (hw : '/' ∉ word) :
    '/' ∉ a := by
  obtain ⟨blanks, hb, rfl⟩ := ha
  exact slash_notMem_append (slash_notMem_of_all hb (by decide)) hw

theorem slash_notMem_sign (negative : Bool) : '/' ∉ sign negative := by
  cases negative <;> decide

theorem slash_notMem_integer {word : List Char} {i : Int64} (h : IntegerWord word i) :
    '/' ∉ word := by
  obtain ⟨hn, -⟩ := h
  exact slash_notMem_append (slash_notMem_sign _) (slash_notMem_of_all hn.isDigit (by decide))

theorem slash_notMem_decimal {word : List Char} {x : Binary64} (h : DecimalWord word x) :
    '/' ∉ word := by
  cases h with
  | whole _ hn => exact slash_notMem_append (slash_notMem_sign _) (slash_notMem_of_all hn.isDigit (by decide))
  | point _ hn =>
    have hd := slash_notMem_of_all hn.isDigit (by decide)
    rw [List.mem_append, not_or] at hd
    have hpoint : '/' ∉ ['.'] := by decide
    exact slash_notMem_append (slash_notMem_append (slash_notMem_sign _) hd.1)
      (slash_notMem_append hpoint hd.2)

theorem slash_notMem_bound {w : Keyword} {a : List Char} {b : Option Bound}
    (h : BoundOf w a b) : '/' ∉ a := by
  cases h with
  | absent => exact List.not_mem_nil
  | int _ hi ha => exact slash_notMem_of_token ha (slash_notMem_integer hi)
  | float _ hx ha => exact slash_notMem_of_token ha (slash_notMem_decimal hx)

theorem slash_notMem_bounds {w : Keyword} {a : List Char} {low high : Option Bound}
    (h : Bounds w a low high) : '/' ∉ a := by
  cases h with
  | one ha hb =>
    exact slash_notMem_append (slash_notMem_bound ha) (slash_notMem_of_token hb (by decide))
  | two ha hb hc hd =>
    have hlow := slash_notMem_append (slash_notMem_bound ha) (slash_notMem_of_token hb (by decide))
    have hhigh := slash_notMem_append hlow (slash_notMem_bound hc)
    exact slash_notMem_append hhigh (slash_notMem_of_token hd (by decide))

theorem slash_notMem_item {a : List Char} {i : Int64} (h : Item a i) : '/' ∉ a := by
  cases h with
  | bare hi ha => exact slash_notMem_of_token ha (slash_notMem_integer hi)
  | labelled hn ha hb hi hc =>
    have hlabel := slash_notMem_of_token ha (slash_notMem_of_all hn.isNamePart (by decide))
    have hmark := slash_notMem_append hlabel (slash_notMem_of_token hb (by decide))
    exact slash_notMem_append hmark (slash_notMem_of_token hc (slash_notMem_integer hi))

theorem slash_notMem_head {a : List Char} {s : String} {optional : Bool}
    (h : Head a s optional) : '/' ∉ a := by
  cases h with
  | required hn ha hb =>
    have hname := slash_notMem_of_token ha (slash_notMem_of_all hn.isNamePart (by decide))
    exact slash_notMem_append hname (slash_notMem_of_token hb (by decide))
  | optional hn ha hb hc =>
    have hname := slash_notMem_of_token ha (slash_notMem_of_all hn.isNamePart (by decide))
    have hmark := slash_notMem_append hname (slash_notMem_of_token hb (by decide))
    exact slash_notMem_append hmark (slash_notMem_of_token hc (by decide))

theorem isName_of_head {a : List Char} {s : String} {optional : Bool} (h : Head a s optional) :
    IsName s.toList := by
  cases h with
  | required hn _ _ | optional hn _ _ _ => simpa using hn

/-! ## Bounds and ranges -/

theorem fits_of_bound {w : Keyword} {a : List Char} {b : Option Bound} (h : BoundOf w a b) :
    ∀ x ∈ b, x.Fits (!·.isNaN) w := by
  cases h with
  | absent => exact fun x hx => absurd hx (by simp)
  | int hw _ _ =>
    rintro x ⟨⟩
    exact hw
  | float hw hx _ =>
    rintro y ⟨⟩
    refine ⟨hw, ?_⟩
    cases hx with
    | whole | point => simp [Binary64.isNaN_ofDecimal]

theorem wellFormed_of_bounds (accepts : PatternLiteral → Bool) {w : Keyword} {a : List Char}
    {low high : Option Bound} (hw : w.acceptsRange = true) (h : Bounds w a low high) :
    WellFormed accepts (!·.isNaN) (.ofBounds w low high) := by
  obtain ⟨hlow, hhigh⟩ : (∀ x ∈ low, x.Fits (!·.isNaN) w) ∧ ∀ x ∈ high, x.Fits (!·.isNaN) w := by
    cases h with
    | one ha _ => exact ⟨fits_of_bound ha, fun x hx => absurd hx (by simp)⟩
    | two ha _ hc _ => exact ⟨fits_of_bound ha, fits_of_bound hc⟩
  cases low with
  | some low => exact .range ⟨hw, .inl (by simp), hlow, hhigh⟩
  | none =>
    cases high with
    | some high => exact .range ⟨hw, .inr (by simp), hlow, hhigh⟩
    | none => exact .primitive

/-! ## Texts of the grammar -/

theorem bare_listed {α : Type} {Item : List Char → α → Prop} (Good : α → Prop) {close : Char}
    (hclose : close ≠ '/') {a : List Char} {xs : List α} (h : Listed Item close a xs)
    (hitem : ∀ x ∈ xs, ∀ b, Item b x → ∀ rest,
      Bare none (b ++ rest) ↔ Good x ∧ Bare none rest) (rest : List Char) :
    Bare none (a ++ rest) ↔ (∀ x ∈ xs, Good x) ∧ Bare none rest := by
  have hc : '/' ∉ [close] := by simpa using Ne.symm hclose
  induction h with
  | done ha =>
    rw [bare_append (slash_notMem_of_token ha hc)]
    simp
  | last ha hb =>
    rw [List.append_assoc, hitem _ (by simp) _ ha, bare_append (slash_notMem_of_token hb hc)]
    simp
  | @more a b c x xs ha hb _ ih =>
    have htail : Bare none (c ++ rest) ↔ (∀ x ∈ xs, Good x) ∧ Bare none rest :=
      ih fun x hx => hitem x (List.mem_cons_of_mem _ hx)
    rw [List.append_assoc, List.append_assoc, hitem _ (by simp) _ ha,
      bare_append (slash_notMem_of_token hb (by decide)), htail, List.forall_mem_cons, and_assoc]

theorem standalone_iff {p : PatternLiteral} {body : List Char} (hbody : p.body.toList = body) :
    p.Standalone ↔ body ≠ [] ∧ body.head? ≠ some '*' ∧ Closed body := by
  subst hbody
  constructor
  · intro h
    exact ⟨h.body_ne_nil, h.body_ne_star, h.slashesEscaped, h.last_ne_backslash⟩
  · rintro ⟨hnil, hstar, hescaped, hlast⟩
    exact ⟨hnil, hstar, hescaped, hlast⟩

/-- The slash in front of a pattern of the grammar opens a comment unless the pattern is
    standalone. -/
theorem bare_pattern {word : List Char} {p : PatternLiteral} (h : Grammar.Pattern word p)
    (rest : List Char) : Bare none (word ++ rest) ↔ p.Standalone ∧ Bare none rest := by
  obtain @⟨body, flags, hclosed, hflags⟩ := h
  have hslash : '/' ∉ flags := fun hs => by simpa using hflags '/' hs
  rw [standalone_iff String.toList_ofList, and_iff_left hclosed]
  cases body with
  | nil =>
    simp only [List.cons_append, List.nil_append]
    rw [bare_slash]
    simp
  | cons c body =>
    obtain ⟨hc, hbehind⟩ := closedBehind_cons.mp (closedBehind_slash.mpr hclosed)
    have hne : c ≠ '/' := fun h => absurd (hc h) (by decide)
    simp only [List.cons_append, List.append_assoc]
    rw [bare_slash, bare_body hbehind, bare_append hslash]
    simp [hne]

theorem names_of_listed {a : List Char} {close : Char}
    {parts : List (Member Definition × List Char)} (h : Listed MemberText close a parts) :
    ∀ p ∈ parts, IsName p.1.name.toList := by
  induction h with
  | done _ => exact fun p hp => absurd hp List.not_mem_nil
  | last ha _ =>
    obtain ⟨head, hhead, -⟩ := ha
    simpa using isName_of_head hhead
  | more ha _ _ ih =>
    obtain ⟨head, hhead, -⟩ := ha
    exact List.forall_mem_cons.mpr ⟨isName_of_head hhead, ih⟩

/-- A text of the grammar holds no comment exactly when its definition is well-formed. -/
theorem bare_value {accepts : PatternLiteral → Bool} {a : List Char} {d : Definition}
    (h : Value accepts a d) (rest : List Char) :
    Bare none (a ++ rest) ↔ WellFormed accepts (!·.isNaN) d ∧ Bare none rest := by
  induction h generalizing rest with
  | @primitive w _ ha =>
    rw [bare_append (slash_notMem_of_token ha (slash_notMem_of_word w))]
    exact (and_iff_right .primitive).symm
  | @range w _ _ _ _ _ hw ha hb hc =>
    rw [List.append_assoc, List.append_assoc,
      bare_append (slash_notMem_of_token ha (slash_notMem_of_word w)),
      bare_append (slash_notMem_of_token hb (by decide)), bare_append (slash_notMem_bounds hc)]
    exact (and_iff_right (wellFormed_of_bounds accepts hw hc)).symm
  | pattern hp haccepts ha =>
    obtain ⟨blanks, hblanks, rfl⟩ := ha
    have hb : '/' ∉ blanks := fun hs => absurd (hblanks '/' hs) (by decide)
    rw [List.append_assoc, bare_append hb, bare_pattern hp]
    refine and_congr_left fun _ => ⟨.pattern haccepts, fun h => ?_⟩
    cases h with
    | pattern _ h => exact h
  | enumeration ha hb =>
    rw [List.append_assoc, bare_append (slash_notMem_of_token ha (by decide)),
      bare_listed (fun _ => True) (by decide) hb fun i _ b hi rest => by
        rw [bare_append (slash_notMem_item hi), true_and]]
    exact and_congr_left fun _ => ⟨fun _ => .enumeration, fun _ _ _ => trivial⟩
  | @object _ _ parts ha hb _ ih =>
    rw [List.append_assoc, bare_append (slash_notMem_of_token ha (by decide)),
      bare_listed (fun p => WellFormed accepts (!·.isNaN) p.1.value) (by decide) hb
        fun p hp b hm rest => by
          obtain ⟨head, hhead, rfl⟩ := hm
          rw [List.append_assoc, bare_append (slash_notMem_head hhead), ih p hp rest]]
    have hnames := names_of_listed hb
    refine and_congr_left fun _ => ⟨fun h => .object ?_ ?_, fun h => ?_⟩
    · exact List.forall_mem_map.mpr hnames
    · exact List.forall_mem_map.mpr h
    · cases h with
      | object _ h => exact fun p hp => h p.1 (List.mem_map_of_mem hp)
  | emptyArray ha hb =>
    rw [List.append_assoc, bare_append (slash_notMem_of_token ha (by decide)),
      bare_append (slash_notMem_of_token hb (by decide))]
    exact (and_iff_right .emptyArray).symm
  | @keywordArray w _ _ _ ha hb hc =>
    rw [List.append_assoc, List.append_assoc, bare_append (slash_notMem_of_token ha (by decide)),
      bare_append (slash_notMem_of_token hb (slash_notMem_of_word w)),
      bare_append (slash_notMem_of_token hc (by decide))]
    exact (and_iff_right (.array (.inl rfl) .primitive)).symm
  | array ha he _ hc ih =>
    rw [List.append_assoc, List.append_assoc, bare_append (slash_notMem_of_token ha (by decide)),
      ih, bare_append (slash_notMem_of_token hc (by decide))]
    refine and_congr_left fun _ => ⟨.array (.inr he), fun h => ?_⟩
    cases h with
    | array _ h => exact h

/-! ## Reading -/

theorem stripComments_eq_ok {text bare : String} :
    stripComments text = .ok bare ↔ stripChars text.toList = .ok bare.toList := by
  unfold stripComments
  constructor
  · intro h
    split at h
    · next kept hk =>
      obtain rfl := Except.ok.inj h
      rw [hk, String.toList_ofList]
    · exact absurd h (by simp)
  · intro h
    rw [h]
    exact congrArg Except.ok String.ofList_toList

theorem wellFormed_of_stripped {text bare : String} {d : Definition}
    (hbare : stripComments text = .ok bare)
    (hd : ofBareText PatternLiteral.compiles bare = .ok d) :
    WellFormed PatternLiteral.compiles (!·.isNaN) d := by
  obtain ⟨a, blanks, htext, -, ha⟩ := derives_of_ofBareText hd
  have hb : Bare none (a ++ blanks) := htext ▸ bare_of_stripChars (stripComments_eq_ok.mp hbare)
  exact ((bare_value ha blanks).mp hb).1

/-- Definitions that are read from text are well-formed. -/
theorem wellFormed_of_ofText {text : String} {d : Definition} (h : ofText text = .ok d) :
    WellFormed PatternLiteral.compiles (!·.isNaN) d := by
  obtain ⟨bare, hbare, hd⟩ := bind_eq_ok.mp h
  exact wellFormed_of_stripped hbare hd

theorem wellFormed_of_commented :
    ofText "\x7b /* x */ u?: /a\\/b/, n: int<,9> \x7d" =
        .ok (.object [⟨"u", true, .pattern ⟨"a\\/b", ⟨false, false, false⟩⟩⟩,
          ⟨"n", false, .range ⟨.int, none, some (.int 9)⟩⟩]) ∧
      WellFormed PatternLiteral.compiles (!·.isNaN)
        (.object [⟨"u", true, .pattern ⟨"a\\/b", ⟨false, false, false⟩⟩⟩,
          ⟨"n", false, .range ⟨.int, none, some (.int 9)⟩⟩]) := by
  have h : ofText "\x7b /* x */ u?: /a\\/b/, n: int<,9> \x7d" = .ok _ := rfl
  exact ⟨h, wellFormed_of_ofText h⟩

end Definition

end CompactSchema
