import CompactSchema.Definition.Basic
import CompactSchema.Text.Cursor

set_option autoImplicit false

/-!
# The grammar

Which texts write which definitions, said without a cursor. Blanks belong to the token that
they stand in front of, so they are allowed before every token and nowhere inside one; behind
the last token they are allowed once more. No rule asks for a longest word: what may follow a
name, a keyword or a number never goes on with it.
-/

namespace CompactSchema

/-- The definition that a keyword and its bounds stand for: without bounds the keyword alone. -/
def Definition.ofBounds (keyword : Keyword) : Option Bound → Option Bound → Definition
  | none, none => .primitive keyword
  | minimum, maximum => .range ⟨keyword, minimum, maximum⟩

/-- An array may hold enumerations and objects besides bare keywords. -/
def Definition.isBracketed : Definition → Bool
  | .enumeration _ | .object _ => true
  | _ => false

namespace Grammar

open Text

def Blanks (cs : List Char) : Prop := ∀ c ∈ cs, isBlank c = true

/-- The word with the blanks in front of it. -/
def Token (word text : List Char) : Prop := ∃ blanks, Blanks blanks ∧ text = blanks ++ word

theorem blanks_nil : Blanks [] := fun _ h => absurd h List.not_mem_nil

theorem token_self (word : List Char) : Token word word := ⟨[], blanks_nil, rfl⟩

theorem Token.length_pos {c : Char} {cs a : List Char} (ha : Token (c :: cs) a) :
    0 < a.length := by
  obtain ⟨blanks, -, rfl⟩ := ha
  simp only [List.length_append, List.length_cons]
  omega

def IsName (word : List Char) : Prop :=
  ∃ c cs, word = c :: cs ∧ isNameStart c = true ∧ ∀ d ∈ cs, isNamePart d = true

def sign (negative : Bool) : List Char := if negative then ['-'] else []

/-- The number that a run of digits stands for. -/
inductive Numeral : List Char → Nat → Prop
  | digit {c : Char} : isDigit c = true → Numeral [c] (c.toNat - '0'.toNat)
  | snoc {ds : List Char} {n : Nat} {c : Char} :
    Numeral ds n → isDigit c = true → Numeral (ds ++ [c]) (10 * n + (c.toNat - '0'.toNat))

/-- A whole number that 64 bits hold. Leading zeros are allowed. -/
inductive IntegerWord : List Char → Int64 → Prop
  | mk {negative : Bool} {digits : List Char} {n : Nat} {i : Int64} :
    Numeral digits n → i.toInt = (if negative then -(n : Int) else n) →
      IntegerWord (sign negative ++ digits) i

/-- A decimal number and the binary number nearest to it. A leading zero stands alone in front of
    a point; behind the point there may be no digits. -/
inductive DecimalWord : List Char → Binary64 → Prop
  | whole {negative : Bool} {digits : List Char} {n : Nat} :
    digits.head? ≠ some '0' → Numeral digits n →
      DecimalWord (sign negative ++ digits) (.ofDecimal negative n 0)
  | point {negative : Bool} {whole fraction : List Char} {n : Nat} :
    whole = ['0'] ∨ whole ≠ [] ∧ whole.head? ≠ some '0' → Numeral (whole ++ fraction) n →
      DecimalWord (sign negative ++ whole ++ '.' :: fraction)
        (.ofDecimal negative n (-(fraction.length : Int)))

/-- A bound of a range, which may be left out. -/
inductive BoundOf (keyword : Keyword) : List Char → Option Bound → Prop
  | absent : BoundOf keyword [] none
  | int {word text : List Char} {i : Int64} : keyword.hasDecimalBounds = false →
    IntegerWord word i → Token word text → BoundOf keyword text (some (.int i))
  | float {word text : List Char} {x : Binary64} : keyword.hasDecimalBounds = true →
    DecimalWord word x → Token word text → BoundOf keyword text (some (.float x))

/-- What stands between angle brackets, and the second one. -/
inductive Bounds (keyword : Keyword) : List Char → Option Bound → Option Bound → Prop
  | one {a b : List Char} {low : Option Bound} :
    BoundOf keyword a low → Token ['>'] b → Bounds keyword (a ++ b) low none
  | two {a b c d : List Char} {low high : Option Bound} :
    BoundOf keyword a low → Token [','] b → BoundOf keyword c high → Token ['>'] d →
      Bounds keyword (a ++ b ++ c ++ d) low high

/-- A backslash stands right in front of every slash. -/
def SlashesEscaped (body : List Char) : Prop :=
  ∀ front back, body = front ++ '/' :: back → front.getLast? = some '\\'

/-- The slash behind the body is the first one that no backslash stands right in front of. -/
def Closed (body : List Char) : Prop := SlashesEscaped body ∧ body.getLast? ≠ some '\\'

/-- A body between slashes and any run of flags. -/
inductive Pattern : List Char → PatternLiteral → Prop
  | mk {body flags : List Char} : Closed body → (∀ c ∈ flags, c = 'g' ∨ c = 'i' ∨ c = 'm') →
    Pattern ('/' :: body ++ '/' :: flags)
      ⟨String.ofList body, ⟨flags.contains 'g', flags.contains 'i', flags.contains 'm'⟩⟩

/-- Items with commas between them and perhaps behind the last one, and the closing character. -/
inductive Listed {α : Type} (Item : List Char → α → Prop) (close : Char) :
    List Char → List α → Prop
  | done {a : List Char} : Token [close] a → Listed Item close a []
  | last {a b : List Char} {x : α} : Item a x → Token [close] b → Listed Item close (a ++ b) [x]
  | more {a b c : List Char} {x : α} {xs : List α} :
    Item a x → Token [','] b → Listed Item close c xs → Listed Item close (a ++ b ++ c) (x :: xs)

/-- A whole number behind a label that does not count. -/
inductive Item : List Char → Int64 → Prop
  | bare {word text : List Char} {i : Int64} : IntegerWord word i → Token word text → Item text i
  | labelled {name a b word c : List Char} {i : Int64} :
    IsName name → Token name a → Token ['='] b → IntegerWord word i → Token word c →
      Item (a ++ b ++ c) i

/-- What stands in front of the value of a member: its name, the optional mark and a colon. -/
inductive Head : List Char → String → Bool → Prop
  | required {name a b : List Char} :
    IsName name → Token name a → Token [':'] b → Head (a ++ b) (String.ofList name) false
  | optional {name a b c : List Char} :
    IsName name → Token name a → Token ['?'] b → Token [':'] c →
      Head (a ++ b ++ c) (String.ofList name) true

/-- A member in the text that ends in the text of its value. -/
def MemberText (text : List Char) (part : Member Definition × List Char) : Prop :=
  ∃ head, Head head part.1.name part.1.optional ∧ text = head ++ part.2

/-- The text writes the definition. In `object` each member goes with the text of its value. -/
inductive Value (accepts : PatternLiteral → Bool) : List Char → Definition → Prop
  | primitive {keyword : Keyword} {a : List Char} :
    Token keyword.word.toList a → Value accepts a (.primitive keyword)
  | range {keyword : Keyword} {a b c : List Char} {low high : Option Bound} :
    keyword.acceptsRange = true → Token keyword.word.toList a → Token ['<'] b →
      Bounds keyword c low high → Value accepts (a ++ b ++ c) (.ofBounds keyword low high)
  | pattern {literal : PatternLiteral} {word a : List Char} :
    Pattern word literal → accepts literal = true → Token word a →
      Value accepts a (.pattern literal)
  | enumeration {a b : List Char} {values : List Int64} :
    Token ['('] a → Listed Item ')' b values → Value accepts (a ++ b) (.enumeration values)
  | object {a b : List Char} {parts : List (Member Definition × List Char)} :
    Token ['\x7b'] a → Listed MemberText '\x7d' b parts →
      (∀ p ∈ parts, Value accepts p.2 p.1.value) →
      Value accepts (a ++ b) (.object (parts.map Prod.fst))
  | emptyArray {a b : List Char} :
    Token ['['] a → Token [']'] b → Value accepts (a ++ b) (.array none)
  | keywordArray {keyword : Keyword} {a b c : List Char} :
    Token ['['] a → Token keyword.word.toList b → Token [']'] c →
      Value accepts (a ++ b ++ c) (.array (some (.primitive keyword)))
  | array {element : Definition} {a b c : List Char} :
    Token ['['] a → element.isBracketed = true → Value accepts b element → Token [']'] c →
      Value accepts (a ++ b ++ c) (.array (some element))

/-- The whole text is a value, with blanks around it. -/
def Derives (accepts : PatternLiteral → Bool) (text : List Char) (d : Definition) : Prop :=
  ∃ a blanks, text = a ++ blanks ∧ Blanks blanks ∧ Value accepts a d

end Grammar

end CompactSchema
