import CompactSchema.Definition.Printer
import CompactSchema.Proofs.Digits
import CompactSchema.Proofs.WellFormed

set_option autoImplicit false

/-!
# Printing and reading back

The canonical text of a well-formed definition is a text of the grammar and holds no comment, so
that it is read back as the same definition.
-/

namespace CompactSchema.Definition

open Text Grammar Definition.Parser Stripper

/-! ## Tokens -/

theorem blanks_space : Blanks [' '] := by
  intro c hc
  rw [List.mem_singleton.mp hc]
  rfl

theorem blanks_append {a b : List Char} (ha : Blanks a) (hb : Blanks b) : Blanks (a ++ b) := by
  intro c hc
  rcases List.mem_append.mp hc with hc | hc
  · exact ha c hc
  · exact hb c hc

theorem token_space (word : List Char) : Token word (' ' :: word) := ⟨[' '], blanks_space, rfl⟩

theorem token_of_blanks {blanks word a : List Char} (hb : Blanks blanks) (ha : Token word a) :
    Token word (blanks ++ a) := by
  obtain ⟨bs, hbs, rfl⟩ := ha
  exact ⟨blanks ++ bs, blanks_append hb hbs, (List.append_assoc _ _ _).symm⟩

/-- Blanks may be put in front of a value. -/
theorem value_of_blanks {accepts : PatternLiteral → Bool} {blanks a : List Char} {d : Definition}
    (hb : Blanks blanks) (h : Value accepts a d) : Value accepts (blanks ++ a) d := by
  cases h with
  | primitive ha => exact .primitive (token_of_blanks hb ha)
  | range hw ha hlt hc =>
    rw [← List.append_assoc, ← List.append_assoc]
    exact .range hw (token_of_blanks hb ha) hlt hc
  | pattern hp haccepts ha => exact .pattern hp haccepts (token_of_blanks hb ha)
  | enumeration ha hl =>
    rw [← List.append_assoc]
    exact .enumeration (token_of_blanks hb ha) hl
  | object ha hl hv =>
    rw [← List.append_assoc]
    exact .object (token_of_blanks hb ha) hl hv
  | emptyArray ha hc =>
    rw [← List.append_assoc]
    exact .emptyArray (token_of_blanks hb ha) hc
  | keywordArray ha hw hc =>
    rw [← List.append_assoc, ← List.append_assoc]
    exact .keywordArray (token_of_blanks hb ha) hw hc
  | array ha he hv hc =>
    rw [← List.append_assoc, ← List.append_assoc]
    exact .array (token_of_blanks hb ha) he hv hc

/-! ## Ranges -/

theorem boundOf_text {w : Keyword} {b : Bound} (h : b.Fits Binary64.isFinite w) :
    BoundOf w b.text.toList (some b) := by
  cases b with
  | int i => exact .int h (integerWord_toString i) (token_self _)
  | float x => exact .float h.1 (decimalWord_boundText h.2) (token_self _)

theorem value_of_range {accepts : PatternLiteral → Bool} {r : Range}
    (h : r.Proper Binary64.isFinite) : Value accepts r.chars (.range r) := by
  obtain ⟨w, low, high⟩ := r
  have hopen := token_self ['<']
  have hcomma := token_self [',']
  have hclose := token_self ['>']
  have hword := token_self w.word.toList
  have hvalue : ∀ {a : List Char}, Bounds w a low high →
      Value accepts (w.word.toList ++ ['<'] ++ a) (.ofBounds w low high) :=
    fun hb => .range h.acceptsRange hword hopen hb
  cases low with
  | none =>
    cases high with
    | none => exact absurd h.bounded (by simp)
    | some high =>
      simpa [Range.chars, ofBounds] using
        hvalue (.two .absent hcomma (boundOf_text (h.maximum_fits high rfl)) hclose)
  | some low =>
    have hlow := boundOf_text (h.minimum_fits low rfl)
    cases high with
    | none => simpa [Range.chars, ofBounds] using hvalue (.one hlow hclose)
    | some high =>
      simpa [Range.chars, ofBounds] using
        hvalue (.two hlow hcomma (boundOf_text (h.maximum_fits high rfl)) hclose)

/-! ## Patterns -/

theorem flags_of_chars (f : Flags) :
    (⟨f.chars.contains 'g', f.chars.contains 'i', f.chars.contains 'm'⟩ : Flags) = f := by
  obtain ⟨g, i, m⟩ := f
  cases g <;> cases i <;> cases m <;> rfl

theorem isFlag_of_mem_chars (f : Flags) : ∀ c ∈ f.chars, c = 'g' ∨ c = 'i' ∨ c = 'm' := by
  obtain ⟨g, i, m⟩ := f
  cases g <;> cases i <;> cases m <;> simp [Flags.chars]

theorem pattern_chars {p : PatternLiteral} (h : p.Standalone) : Grammar.Pattern p.chars p := by
  obtain ⟨body, flags⟩ := p
  have hp := Pattern.mk ⟨h.slashesEscaped, h.last_ne_backslash⟩ (isFlag_of_mem_chars flags)
  rwa [flags_of_chars, String.ofList_toList] at hp

/-! ## Lists -/

theorem join_cons (separator a b : List Char) (texts : List (List Char)) :
    join separator (a :: b :: texts) = a ++ separator ++ join separator (b :: texts) := by
  simp [join]

/-- Items that are printed with `lead` in front of each, and commas between them. -/
theorem listed_join {α : Type} {Item : List Char → α → Prop} {close : Char}
    {lead last : List Char} {print : α → List Char} (hlast : Token [close] last) (x : α)
    (xs : List α) (h : ∀ y ∈ x :: xs, Item (lead ++ print y) y) :
    Listed Item close (lead ++ join (',' :: lead) ((x :: xs).map print) ++ last) (x :: xs) := by
  induction xs generalizing x with
  | nil =>
    have hx := h x (List.mem_cons_self)
    simpa [join] using Listed.last hx hlast
  | cons y ys ih =>
    have hx := h x (List.mem_cons_self)
    have htail := ih y fun z hz => h z (List.mem_cons_of_mem x hz)
    have hmore := Listed.more hx (token_self [',']) htail
    rw [List.map_cons, List.map_cons, join_cons]
    simpa using hmore

def memberText (m : Member Definition) : List Char :=
  m.name.toList ++ (if m.optional then ['?', ':', ' '] else [':', ' ']) ++ m.value.chars

theorem memberChars_eq_map (members : List (Member Definition)) :
    memberChars members = members.map memberText := by
  induction members with
  | nil => rfl
  | cons m ms ih =>
    rw [memberChars, ih]
    rfl

/-- The space behind the colon belongs to the value. -/
theorem memberText_part {m : Member Definition} (h : IsName m.name.toList) :
    MemberText ([' '] ++ memberText m) (m, ' ' :: m.value.chars) := by
  obtain ⟨name, optional, value⟩ := m
  have hname : String.ofList name.toList = name := String.ofList_toList
  have ht := token_space name.toList
  cases optional with
  | true =>
    have hhead := Head.optional h ht (token_self ['?']) (token_self [':'])
    rw [hname] at hhead
    exact ⟨_, hhead, by simp [memberText]⟩
  | false =>
    have hhead := Head.required h ht (token_self [':'])
    rw [hname] at hhead
    exact ⟨_, hhead, by simp [memberText]⟩

/-! ## Values -/

theorem value_of_members {accepts : PatternLiteral → Bool} {members : List (Member Definition)}
    (hnames : ∀ m ∈ members, IsName m.name.toList)
    (hvalues : ∀ m ∈ members, Value accepts m.value.chars m.value) :
    Value accepts (chars (.object members)) (.object members) := by
  let part : Member Definition → Member Definition × List Char := fun m => (m, ' ' :: m.value.chars)
  have hfst : (members.map part).map Prod.fst = members := by simp [part, Function.comp_def]
  have hparts : ∀ p ∈ members.map part, Value accepts p.2 p.1.value := by
    refine List.forall_mem_map.mpr fun m hm => ?_
    exact value_of_blanks blanks_space (hvalues m hm)
  suffices hlisted : ∃ text, chars (.object members) = '\x7b' :: text ∧
      Listed MemberText '\x7d' text (members.map part) by
    obtain ⟨text, htext, hl⟩ := hlisted
    have hv := Value.object (token_self ['\x7b']) hl hparts
    rw [hfst] at hv
    rw [htext]
    exact hv
  cases members with
  | nil => exact ⟨['\x7d'], rfl, .done (token_self _)⟩
  | cons m ms =>
    have hitem : ∀ p ∈ part m :: ms.map part, MemberText ([' '] ++ memberText p.1) p := by
      rw [← List.map_cons]
      exact List.forall_mem_map.mpr fun n hn => memberText_part (hnames n hn)
    refine ⟨_, ?_, listed_join (token_space ['\x7d']) (part m) (ms.map part) hitem⟩
    rw [chars, memberChars_eq_map]
    simp [part, Function.comp_def]

theorem value_of_items (accepts : PatternLiteral → Bool) (values : List Int64) :
    Value accepts (chars (.enumeration values)) (.enumeration values) := by
  have hopen := token_self ['(']
  have hclose := token_self [')']
  cases values with
  | nil => exact .enumeration hopen (.done hclose)
  | cons i is =>
    have hitem : ∀ j ∈ i :: is, Item ([] ++ (toString j.toInt).toList) j :=
      fun j _ => .bare (integerWord_toString j) (token_self _)
    have hvalue := @Value.enumeration accepts _ _ _ hopen (listed_join hclose i is hitem)
    simpa [chars] using hvalue

theorem value_chars {accepts : PatternLiteral → Bool} {d : Definition}
    (h : WellFormed accepts Binary64.isFinite d) : Value accepts d.chars d := by
  induction h with
  | primitive => exact .primitive (token_self _)
  | range hr => exact value_of_range hr
  | pattern haccepts hp => exact .pattern (pattern_chars hp) haccepts (token_self _)
  | object hnames _ ih => exact value_of_members hnames ih
  | enumeration => exact value_of_items accepts _
  | emptyArray => exact .emptyArray (token_self ['[']) (token_self [']'])
  | @array element he hw ih =>
    rcases he with he | he
    · cases hw with
      | primitive => exact .keywordArray (token_self ['[']) (token_self _) (token_self [']'])
      | _ => exact absurd he (by simp [isPrimitive])
    · exact .array (token_self ['[']) he ih (token_self [']'])

theorem wellFormed_mono {accepts : PatternLiteral → Bool} {admits admits' : Binary64 → Bool}
    {d : Definition} (hmono : ∀ x, admits x = true → admits' x = true)
    (h : WellFormed accepts admits d) : WellFormed accepts admits' d := by
  have hfits : ∀ {w : Keyword} {b : Bound}, b.Fits admits w → b.Fits admits' w := by
    intro w b hb
    cases b with
    | int i => exact hb
    | float x => exact ⟨hb.1, hmono x hb.2⟩
  induction h with
  | primitive => exact .primitive
  | range hr =>
    exact .range ⟨hr.acceptsRange, hr.bounded, fun b hb => hfits (hr.minimum_fits b hb),
      fun b hb => hfits (hr.maximum_fits b hb)⟩
  | pattern haccepts hp => exact .pattern haccepts hp
  | object hnames _ ih => exact .object hnames ih
  | enumeration => exact .enumeration
  | emptyArray => exact .emptyArray
  | array he _ ih => exact .array he ih

theorem isNaN_of_isFinite (x : Binary64) (h : x.isFinite = true) : (!x.isNaN) = true := by
  simp only [Binary64.isFinite, Binary64.isNaN, decide_eq_true_eq, Bool.not_eq_true',
    decide_eq_false_iff_not] at h ⊢
  omega

theorem toList_text (d : Definition) : d.text.toList = d.chars := String.toList_ofList

theorem stripComments_text {d : Definition}
    (h : WellFormed PatternLiteral.compiles Binary64.isFinite d) :
    stripComments d.text = .ok d.text := by
  have hbare : Bare none (d.chars ++ []) :=
    (bare_value (value_chars h) []).mpr ⟨wellFormed_mono isNaN_of_isFinite h, .done⟩
  rw [stripComments_eq_ok, toList_text]
  exact stripChars_of_bare (by simpa using hbare)

theorem ofBareText_text {d : Definition}
    (h : WellFormed PatternLiteral.compiles Binary64.isFinite d) :
    ofBareText PatternLiteral.compiles d.text = .ok d := by
  refine ofBareText_of_derives ⟨d.chars, [], ?_, blanks_nil, value_chars h⟩
  rw [toList_text, List.append_nil]

/-- The canonical text of a well-formed definition is read back as the definition. -/
theorem ofText_text {d : Definition}
    (h : WellFormed PatternLiteral.compiles Binary64.isFinite d) : ofText d.text = .ok d :=
  bind_eq_ok.mpr ⟨d.text, stripComments_text h, ofBareText_text h⟩

theorem ofText_text_negativeZero :
    let d : Definition :=
      .object [⟨"x", true, .range ⟨.double, some (.float ⟨0x8000000000000000⟩), none⟩⟩,
        ⟨"s", false, .pattern ⟨"ab", ⟨false, false, true⟩⟩⟩]
    WellFormed PatternLiteral.compiles Binary64.isFinite d ∧ ofText d.text = .ok d := by
  intro d
  have hescaped : SlashesEscaped ['a', 'b'] := by
    intro front back h
    have hmem : '/' ∈ ['a', 'b'] := by
      rw [h]
      exact List.mem_append_right _ List.mem_cons_self
    exact absurd hmem (by decide)
  have hwell : WellFormed PatternLiteral.compiles Binary64.isFinite d := by
    refine .object ?_ ?_
    · rintro m (_ | ⟨_, _ | ⟨_, ⟨⟩⟩⟩)
      · exact ⟨'x', [], rfl, rfl, fun _ h => absurd h List.not_mem_nil⟩
      · exact ⟨'s', [], rfl, rfl, fun _ h => absurd h List.not_mem_nil⟩
    · rintro m (_ | ⟨_, _ | ⟨_, ⟨⟩⟩⟩)
      · refine .range ⟨rfl, .inl (by simp), ?_, fun b hb => absurd hb (by simp)⟩
        rintro b ⟨⟩
        exact ⟨rfl, by decide⟩
      · exact .pattern rfl ⟨by decide, by decide, hescaped, by decide⟩
  exact ⟨hwell, ofText_text hwell⟩

end CompactSchema.Definition
