import CompactSchema.Proofs.Literals

set_option autoImplicit false

/-!
# Escaped delimiters

A slash inside of a pattern is written with a backslash in front of it. What is compiled is the text
that this gives back: of the backslashes in the pattern, the one in front of each slash is gone.
Whether a backslash is itself escaped does not count for that. So the pairs of a backslash and the
character behind it stay as they are, unless a pair of two backslashes stands in front of a slash.
-/

namespace CompactSchema

/-- The text with a backslash in front of each slash. -/
def escapeSlash (cs : List Char) : List Char :=
  cs.flatMap fun c => if c = '/' then ['\\', '/'] else [c]

theorem escapeSlash_slash (cs : List Char) :
    escapeSlash ('/' :: cs) = '\\' :: '/' :: escapeSlash cs := rfl

theorem escapeSlash_cons {c : Char} (hc : c ≠ '/') (cs : List Char) :
    escapeSlash (c :: cs) = c :: escapeSlash cs := by
  rw [escapeSlash, List.flatMap_cons, if_neg hc]
  rfl

theorem head?_escapeSlash (cs : List Char) : (escapeSlash cs).head? ≠ some '/' := by
  cases cs with
  | nil => simp [escapeSlash]
  | cons c cs =>
    by_cases hc : c = '/'
    · subst hc
      simp [escapeSlash_slash]
    · rw [escapeSlash_cons hc]
      simpa using hc

theorem unescapeSlash_cons {c : Char} {cs : List Char} (h : c = '\\' → cs.head? ≠ some '/') :
    unescapeSlash (c :: cs) = c :: unescapeSlash cs := by
  rw [unescapeSlash]
  rintro cs rfl rfl
  exact h rfl rfl

theorem unescapeSlash_escapeSlash (cs : List Char) : unescapeSlash (escapeSlash cs) = cs := by
  induction cs with
  | nil => rfl
  | cons c cs ih =>
    by_cases hc : c = '/'
    · subst hc
      rw [escapeSlash_slash, unescapeSlash, ih]
    · rw [escapeSlash_cons hc, unescapeSlash_cons fun _ => head?_escapeSlash cs, ih]

namespace Grammar

theorem SlashesEscaped.of_cons {c : Char} {cs : List Char} (h : SlashesEscaped (c :: cs))
    (hcs : c = '\\' → cs.head? ≠ some '/') : SlashesEscaped cs := by
  rintro front back rfl
  have hlast := h (c :: front) back rfl
  cases front with
  | nil =>
    obtain rfl : c = '\\' := by simpa using hlast
    exact absurd rfl (hcs rfl)
  | cons d front => simpa using hlast

theorem SlashesEscaped.of_pair {cs : List Char} (h : SlashesEscaped ('\\' :: '/' :: cs)) :
    SlashesEscaped cs := by
  rintro front back rfl
  have hlast := h ('\\' :: '/' :: front) back rfl
  cases front with
  | nil => exact absurd hlast (by decide)
  | cons d front => simpa using hlast

end Grammar

theorem escapeSlash_unescapeSlash {cs : List Char} (h : Grammar.SlashesEscaped cs) :
    escapeSlash (unescapeSlash cs) = cs := by
  fun_induction unescapeSlash cs with
  | case1 cs ih => rw [escapeSlash_slash, ih h.of_pair]
  | case2 c cs hcs ih =>
    have hc : c ≠ '/' := by
      rintro rfl
      exact absurd (h [] cs rfl) (by simp)
    have hhead : c = '\\' → cs.head? ≠ some '/' := by
      rintro rfl hslash
      obtain ⟨rest, rfl⟩ := List.head?_eq_some_iff.mp hslash
      exact hcs rest rfl rfl
    rw [escapeSlash_cons hc, ih (h.of_cons hhead)]
  | case3 => rfl

/-! ## Escape pairs -/

namespace PatternLiteral

/-- A backslash with the character behind it, or a character alone. -/
inductive Symbol
  | pair (c : Char)
  | single (c : Char)
deriving DecidableEq

namespace Symbol

def chars : Symbol → List Char
  | pair c => ['\\', c]
  | single c => [c]

/-- The symbols of a text, read from left to right. -/
def ofChars : List Char → List Symbol
  | '\\' :: c :: cs => pair c :: ofChars cs
  | c :: cs => single c :: ofChars cs
  | [] => []

theorem flatMap_chars (cs : List Char) : (ofChars cs).flatMap chars = cs := by
  fun_induction ofChars cs with
  | case1 c cs ih => simp [chars, ih]
  | case2 c cs _ ih => simp [chars, ih]
  | case3 => rfl

/-- A slash alone in place of a pair of a backslash and a slash. -/
def unescaped : Symbol → List Char
  | pair '/' => ['/']
  | symbol => symbol.chars

/-- The symbols without the backslashes in front of slashes. Of a pair of backslashes in front of a
    slash the second one is gone. -/
def withoutEscapes : List Symbol → List Char
  | pair '\\' :: single '/' :: symbols => '\\' :: '/' :: withoutEscapes symbols
  | symbol :: symbols => symbol.unescaped ++ withoutEscapes symbols
  | [] => []

theorem unescaped_pair {c : Char} (hc : c ≠ '/') : (pair c).unescaped = ['\\', c] := by
  rw [unescaped]
  · rfl
  · rintro ⟨⟩
    exact hc rfl

theorem withoutEscapes_cons {symbol : Symbol} {symbols : List Symbol}
    (h : symbol = pair '\\' → symbols.head? ≠ some (single '/')) :
    withoutEscapes (symbol :: symbols) = symbol.unescaped ++ withoutEscapes symbols := by
  rw [withoutEscapes]
  rintro symbols rfl rfl
  exact h rfl rfl

theorem ofChars_single {c : Char} (hc : c ≠ '\\') (cs : List Char) :
    ofChars (c :: cs) = single c :: ofChars cs := by
  rw [ofChars]
  rintro d cs rfl
  exact absurd rfl hc

theorem head?_ofChars {cs : List Char} (h : cs.head? ≠ some '/') :
    (ofChars cs).head? ≠ some (single '/') := by
  fun_cases ofChars cs with
  | case1 c cs => simp
  | case2 c cs => simpa using h
  | case3 => simp

/-- Replacing each backslash with a slash behind it does not look for pairs. -/
theorem unescapeSlash_eq_withoutEscapes (cs : List Char) :
    unescapeSlash cs = withoutEscapes (ofChars cs) := by
  fun_induction ofChars cs with
  | case1 c cs ih =>
    by_cases hslash : c = '/'
    · subst hslash
      have hpair : withoutEscapes (pair '/' :: ofChars cs) = '/' :: withoutEscapes (ofChars cs) :=
        withoutEscapes_cons nofun
      rw [unescapeSlash, hpair, ih]
    · have hfirst : unescapeSlash ('\\' :: c :: cs) = '\\' :: unescapeSlash (c :: cs) :=
        unescapeSlash_cons fun _ => by simpa using hslash
      by_cases hescape : c = '\\' ∧ cs.head? = some '/'
      · -- The second backslash of the pair goes with the slash behind it.
        obtain ⟨rfl, hhead⟩ := hescape
        obtain ⟨rest, rfl⟩ := List.head?_eq_some_iff.mp hhead
        have hrest : unescapeSlash ('/' :: rest) = '/' :: unescapeSlash rest :=
          unescapeSlash_cons fun h => absurd h (by decide)
        have halone : withoutEscapes (single '/' :: ofChars rest) =
            '/' :: withoutEscapes (ofChars rest) := withoutEscapes_cons nofun
        rw [ofChars_single (by decide), hrest, halone, List.cons.injEq] at ih
        rw [hfirst, unescapeSlash, ofChars_single (by decide), withoutEscapes, ih.2]
      · have hsecond : unescapeSlash (c :: cs) = c :: unescapeSlash cs :=
          unescapeSlash_cons fun hc hhead => hescape ⟨hc, hhead⟩
        have hpair : withoutEscapes (pair c :: ofChars cs) =
            (pair c).unescaped ++ withoutEscapes (ofChars cs) := by
          refine withoutEscapes_cons fun hc => head?_ofChars fun hhead => hescape ⟨?_, hhead⟩
          exact pair.inj hc
        rw [hfirst, hsecond, hpair, unescaped_pair hslash, ih]
        rfl
  | case2 c cs hc ih =>
    have hnone : c = '\\' → cs.head? ≠ some '/' := by
      rintro rfl hhead
      obtain ⟨rest, rfl⟩ := List.head?_eq_some_iff.mp hhead
      exact hc '/' rest rfl rfl
    have halone : withoutEscapes (single c :: ofChars cs) = c :: withoutEscapes (ofChars cs) :=
      withoutEscapes_cons nofun
    rw [unescapeSlash_cons hnone, halone, ih]
  | case3 => rfl

/-- Pairs are respected unless a pair of backslashes stands in front of a slash. -/
theorem withoutEscapes_eq_flatMap_iff (symbols : List Symbol) :
    withoutEscapes symbols = symbols.flatMap unescaped ↔
      ¬ [pair '\\', single '/'] <:+: symbols := by
  fun_induction withoutEscapes symbols with
  | case1 symbols =>
    have hinfix : [pair '\\', single '/'] <:+: pair '\\' :: single '/' :: symbols :=
      ⟨[], symbols, rfl⟩
    refine iff_of_false (fun h => ?_) (not_not_intro hinfix)
    have hpair : (pair '\\' :: single '/' :: symbols).flatMap unescaped =
        '\\' :: '\\' :: '/' :: symbols.flatMap unescaped := rfl
    rw [hpair] at h
    exact absurd h (by simp)
  | case2 symbol symbols hsymbol ih =>
    have hhead : ¬ [pair '\\', single '/'] <+: symbol :: symbols := by
      rintro ⟨rest, hrest⟩
      obtain ⟨rfl, rfl⟩ := List.cons.inj hrest
      exact hsymbol rest rfl rfl
    rw [List.flatMap_cons, List.append_right_inj, ih, List.infix_cons_iff, or_iff_right hhead]
  | case3 => simp

end Symbol

end PatternLiteral

/-! ## Patterns that are read -/

namespace Definition

open PatternLiteral Stripper Definition.Parser

theorem patterns_of_wellFormed {accepts : PatternLiteral → Bool} {admits : Binary64 → Bool}
    {d : Definition} (h : WellFormed accepts admits d) :
    ∀ p ∈ d.patterns, accepts p = true ∧ p.Standalone := by
  induction h with
  | primitive | range _ | enumeration | emptyArray => exact fun p hp => absurd hp List.not_mem_nil
  | pattern haccepts hstandalone =>
    intro p hp
    obtain rfl := List.mem_singleton.mp hp
    exact ⟨haccepts, hstandalone⟩
  | object _ _ ih =>
    intro p hp
    rw [patterns, memberPatterns_eq_flatMap, List.mem_flatMap] at hp
    obtain ⟨m, hm, hp⟩ := hp
    exact ih m hm p hp
  | array _ _ ih => exact ih

theorem patterns_of_ofText {text : String} {d : Definition} (h : ofText text = .ok d) :
    ∀ p ∈ d.patterns, p.compiles = true ∧ p.Standalone := by
  obtain ⟨bare, hbare, hd⟩ := bind_eq_ok.mp h
  exact patterns_of_wellFormed (wellFormed_of_stripped hbare hd)

/-- Every pattern of a definition that was read is compiled from the one text that gives the
    pattern when its slashes are escaped. Of the symbols that make up the pattern, that text has
    each pair of a backslash and a slash replaced by the slash and keeps all others, as long as no
    pair of backslashes stands in front of a slash. -/
theorem compile?_of_ofText {text : String} {d : Definition} {p : PatternLiteral}
    (h : ofText text = .ok d) (hp : p ∈ d.patterns) :
    (∃ node, p.compile? = some node ∧
      Pattern.Node.ofChars? p.flags.ignoreCase p.flags.multiline
        (Symbol.withoutEscapes (Symbol.ofChars p.body.toList)) = some node) ∧
    (∀ regex, escapeSlash regex = p.body.toList ↔
      regex = Symbol.withoutEscapes (Symbol.ofChars p.body.toList)) ∧
    (Symbol.ofChars p.body.toList).flatMap Symbol.chars = p.body.toList ∧
    (Symbol.withoutEscapes (Symbol.ofChars p.body.toList) =
        (Symbol.ofChars p.body.toList).flatMap Symbol.unescaped ↔
      ¬ [Symbol.pair '\\', Symbol.single '/'] <:+: Symbol.ofChars p.body.toList) := by
  obtain ⟨hcompiles, hstandalone⟩ := patterns_of_ofText h p hp
  have htext := Symbol.unescapeSlash_eq_withoutEscapes p.body.toList
  refine ⟨?_, fun regex => ⟨fun hregex => ?_, fun hregex => ?_⟩,
    Symbol.flatMap_chars _, Symbol.withoutEscapes_eq_flatMap_iff _⟩
  · obtain ⟨node, hnode⟩ := Option.isSome_iff_exists.mp hcompiles
    exact ⟨node, hnode, htext ▸ hnode⟩
  · rw [← htext, ← hregex, unescapeSlash_escapeSlash]
  · rw [hregex, ← htext, escapeSlash_unescapeSlash hstandalone.slashesEscaped]

theorem compile?_of_member :
    ofText "\x7b id: [\x7b path?: /^\\\\\\/b/m \x7d] \x7d" =
        .ok (.object [⟨"id", false, .array (some (.object
          [⟨"path", true, .pattern ⟨"^\\\\\\/b", ⟨false, false, true⟩⟩⟩]))⟩]) ∧
      Symbol.withoutEscapes (Symbol.ofChars "^\\\\\\/b".toList) = "^\\\\/b".toList ∧
      (∃ node, PatternLiteral.compile? ⟨"^\\\\\\/b", ⟨false, false, true⟩⟩ = some node ∧
        Pattern.Node.ofChars? false true "^\\\\/b".toList = some node) := by
  have h : ofText "\x7b id: [\x7b path?: /^\\\\\\/b/m \x7d] \x7d" =
      .ok (.object [⟨"id", false, .array (some (.object
        [⟨"path", true, .pattern ⟨"^\\\\\\/b", ⟨false, false, true⟩⟩⟩]))⟩]) := rfl
  have hregex : Symbol.withoutEscapes (Symbol.ofChars "^\\\\\\/b".toList) = "^\\\\/b".toList := rfl
  obtain ⟨node, hnode, hread⟩ := (compile?_of_ofText h (List.mem_singleton_self _)).1
  rw [hregex] at hread
  exact ⟨h, hregex, node, hnode, hread⟩

/-- A pair of backslashes in front of a slash: the text that is compiled holds a pair of a
    backslash and a slash, so the slash is matched and no backslash is. -/
theorem not_backslash_before_slash :
    ofText "/^a\\\\/b/" = .ok (.pattern ⟨"^a\\\\/b", ⟨false, false, false⟩⟩) ∧
      unescapeSlash "^a\\\\/b".toList = "^a\\/b".toList ∧
      (Symbol.ofChars "^a\\\\/b".toList).flatMap Symbol.unescaped = "^a\\\\/b".toList ∧
      PatternLiteral.isMatch ⟨"^a\\\\/b", ⟨false, false, false⟩⟩ "a/b" = true ∧
      PatternLiteral.isMatch ⟨"^a\\\\/b", ⟨false, false, false⟩⟩ "a\\/b" = false := by
  refine ⟨rfl, rfl, rfl, ?_, ?_⟩
  · decide +kernel
  · decide +kernel

end Definition

end CompactSchema
