import CompactSchema.Pattern.Node

set_option autoImplicit false

/-!
# Settings and escapes

Settings can be changed inside a pattern. With `spaced`, white space and comments between the
parts of a pattern are skipped. An escape is a character given by name or number, a class of
characters, or a condition on a position.
-/

namespace CompactSchema.Pattern

structure Settings where
  ignoreCase : Bool := false
  multiline : Bool := false
  dotAll : Bool := false
  /-- Repetitions prefer few rounds, and many with a mark behind. -/
  swapGreed : Bool := false
  /-- Classes hold the characters of all scripts, not only seven-bit ones. -/
  wide : Bool := true
  /-- A carriage return ends a line as well. -/
  returns : Bool := false
  spaced : Bool := false
deriving Repr, DecidableEq

namespace Settings

def set? (s : Settings) (letter : Char) (value : Bool) : Option Settings :=
  match letter with
  | 'i' => some { s with ignoreCase := value }
  | 'm' => some { s with multiline := value }
  | 's' => some { s with dotAll := value }
  | 'U' => some { s with swapGreed := value }
  | 'u' => some { s with wide := value }
  | 'R' => some { s with returns := value }
  | 'x' => some { s with spaced := value }
  | _ => none

def dropSpace : Bool → List Char → List Char
  | _, [] => []
  | true, c :: cs => dropSpace (c ≠ '\n') cs
  | false, c :: cs =>
    if Unicode.isBlank c then dropSpace false cs
    else if c = '#' then dropSpace true cs
    else c :: cs

def skip (s : Settings) (cs : List Char) : List Char :=
  if s.spaced then dropSpace false cs else cs

def second? (s : Settings) (cs : List Char) : Option Char :=
  let behind := cs.tail
  if s.spaced then
    match behind.dropWhile Unicode.isBlank with
    | '#' :: comment => (comment.dropWhile Unicode.isBlank).head?
    | other => other.head?
  else behind.head?

/-- Reads letters, each at most once, and at most one minus sign that turns off the letters
    behind it and needs one. Gives the closing `:` or `)` and what follows. -/
def read? (s : Settings) (used : List Char) (value : Bool) :
    List Char → Option (Settings × Char × List Char)
  | [] => none
  | c :: cs =>
    if c = ':' ∨ c = ')' then
      if used.head? = some '-' then none else some (s, c, cs)
    else if used.contains c then none
    else if c = '-' then read? s (c :: used) false cs
    else
      match s.set? c value with
      | some s => read? s (c :: used) value cs
      | none => none

end Settings

inductive Atom
  | literal (c : Char) (byte : Bool)
  | set (s : CharSet)
  | look (condition : Look)
deriving Repr

namespace Atom

def isMeta (c : Char) : Bool := "\\.+*?()|[]\x7b\x7d^$#&-~".toList.contains c

def isEscapable (c : Char) : Bool :=
  isMeta c || (c.toNat < 128 && !c.isAlphanum && c ≠ '<' && c ≠ '>')

def hexValue? (c : Char) : Option Nat :=
  if '0' ≤ c ∧ c ≤ '9' then some (c.toNat - '0'.toNat)
  else if 'a' ≤ c ∧ c ≤ 'f' then some (c.toNat - 'a'.toNat + 10)
  else if 'A' ≤ c ∧ c ≤ 'F' then some (c.toNat - 'A'.toNat + 10)
  else none

def hexNumber? (cs : List Char) : Option Nat :=
  cs.foldlM (fun n c => (hexValue? c).map (16 * n + ·)) 0

def scalar? (n : Nat) : Option Char :=
  if n.isValidChar then some (Char.ofNat n) else none

def hexDigits? (s : Settings) : Nat → Nat → List Char → Option (Nat × List Char)
  | 0, value, cs => some (value, cs)
  | _ + 1, _, [] => none
  | n + 1, value, c :: cs =>
    match hexValue? c with
    | some digit => hexDigits? s n (16 * value + digit) (s.skip cs)
    | none => none

def braced? (s : Settings) : Nat → List Char → Option (List Char × List Char)
  | 0, _ => none
  | fuel + 1, cs =>
    match s.skip cs with
    | [] => none
    | c :: cs =>
      if c = '\x7d' then some ([], cs)
      else (braced? s fuel cs).map fun (content, rest) => (c :: content, rest)

def number? (s : Settings) (digits : Nat) (cs : List Char) : Option (Atom × List Char) :=
  match s.skip cs with
  | '\x7b' :: cs => do
    let (content, rest) ← braced? s (cs.length + 1) cs
    if content.isEmpty then none
    else
      let c ← scalar? (← hexNumber? content)
      some (literal c false, s.skip rest)
  | cs => do
    let (n, rest) ← hexDigits? s digits 0 cs
    some (literal (← scalar? n) (digits = 2), rest)

/-- Classes are closed under change of case, so that needs no care here. A class negated over
    single bytes could split a character and is refused. -/
def shorthand? (s : Settings) (wide : CharSet) (narrow : AsciiClass) (negated : Bool) :
    Option CharSet :=
  if s.wide then some (if negated then wide.compl else wide)
  else if negated then none
  else some (.ofAscii narrow)

/-- Names are compared in lower case, without spaces, underscores, hyphens and a leading `is`. -/
def looseName (cs : List Char) : List Char :=
  let cs := match cs with
    | c :: d :: rest => if c.toLower = 'i' ∧ d.toLower = 's' then rest else cs
    | short => short
  (cs.filter fun c => c.toNat < 128 && c ≠ ' ' && c ≠ '_' && c ≠ '-').map Char.toLower

/-- The set of a property given by name: of all properties, only decimal digits and white space
    are known. -/
def property? (name : List Char) : Option CharSet :=
  let name := String.ofList (looseName name)
  if ["nd", "decimalnumber", "digit"].contains name then some .digit
  else if ["whitespace", "wspace", "space"].contains name then some .blank
  else none

def splitAt? (separator : List Char) : List Char → Option (List Char × List Char)
  | [] => none
  | c :: cs =>
    if separator.isPrefixOf (c :: cs) then some ([], (c :: cs).drop separator.length)
    else (splitAt? separator cs).map fun (front, back) => (c :: front, back)

def category? (name value : List Char) : Option CharSet :=
  if ["gc", "generalcategory"].contains (String.ofList (looseName name)) then
    if ["nd", "decimalnumber", "digit"].contains (String.ofList (looseName value)) then
      some .digit
    else none
  else none

def propertyClass? (s : Settings) (negated : Bool) (cs : List Char) :
    Option (Atom × List Char) :=
  match s.skip cs with
  | '\x7b' :: cs => do
    let (content, rest) ← braced? s (cs.length + 1) cs
    let (found, negated) ←
      match splitAt? ['!', '='] content with
      | some (name, value) => some (← category? name value, !negated)
      | none =>
        match (splitAt? [':'] content).or (splitAt? ['='] content) with
        | some (name, value) => some (← category? name value, negated)
        | none => some (← property? content, negated)
    if s.wide then some (set (if negated then found.compl else found), rest) else none
  | _ => none

def isBoundaryLetter (c : Char) : Bool :=
  ('a' ≤ c && c ≤ 'z') || ('A' ≤ c && c ≤ 'Z') || c = '-'

/-- The kind of a word boundary may be given in braces; braces that do not start with a letter
    or a hyphen are left to be a repetition. -/
def boundary? (s : Settings) (cs : List Char) : Option (Atom × List Char) :=
  match cs with
  | '\x7b' :: inside =>
    match s.skip inside with
    | [] => none
    | c :: _ =>
      if !isBoundaryLetter c then some (look (.boundary s.wide), cs)
      else do
        let (content, rest) ← braced? s (inside.length + 1) inside
        match String.ofList content with
        | "start" => some (look (.wordStart s.wide), rest)
        | "end" => some (look (.wordEnd s.wide), rest)
        | "start-half" => some (look (.startHalf s.wide), rest)
        | "end-half" => some (look (.endHalf s.wide), rest)
        | _ => none
  | _ => some (look (.boundary s.wide), cs)

def escape? (s : Settings) : List Char → Option (Atom × List Char)
  | [] => none
  | c :: cs =>
    let class? := fun wide narrow negated =>
      (shorthand? s wide narrow negated).map fun found => (set found, cs)
    match c with
    | 'x' => number? s 2 cs
    | 'u' => number? s 4 cs
    | 'U' => number? s 8 cs
    | 'p' => propertyClass? s false cs
    | 'P' => propertyClass? s true cs
    | 'd' => class? .digit .digit false
    | 'D' => class? .digit .digit true
    | 's' => class? .blank .space false
    | 'S' => class? .blank .space true
    | 'w' => class? .word .word false
    | 'W' => class? .word .word true
    | 'a' => some (literal '\x07' false, cs)
    | 'f' => some (literal '\x0c' false, cs)
    | 't' => some (literal '\t' false, cs)
    | 'n' => some (literal '\n' false, cs)
    | 'r' => some (literal '\r' false, cs)
    | 'v' => some (literal '\x0b' false, cs)
    | 'A' => some (look .textStart, cs)
    | 'z' => some (look .textEnd, cs)
    | 'b' => boundary? s cs
    | 'B' => some (look (.inside s.wide), cs)
    | '<' => some (look (.wordStart s.wide), cs)
    | '>' => some (look (.wordEnd s.wide), cs)
    | _ => if isEscapable c then some (literal c false, cs) else none

end Atom

end CompactSchema.Pattern
