import CompactSchema.Comment
import CompactSchema.Definition.Basic

set_option autoImplicit false

/-!
# Reading definitions

A recursive descent over a cursor. Blanks may stand before every token, never inside a name, a
number or a pattern with its flags. A list of members or of enumeration items may end in a comma.
An array holds a bare keyword, an enumeration or an object.

Which patterns are accepted is a parameter, `accepts`: everything else about the grammar holds
for any choice of it.
-/

namespace CompactSchema

open Text SyntaxError

namespace Text.Cursor

def fault (k : Cursor) (found : Option (Nat × Char)) (cause : Cause) : Fault :=
  match found with
  | some (index, c) => ⟨cause, index, index + c.utf8Size⟩
  | none => ⟨cause, k.stop, k.stop⟩

end Text.Cursor

namespace Definition.Parser

abbrev Reader (α : Type) := Cursor → Except Fault (α × Cursor)

def digitsValue (digits : List Char) : Nat :=
  digits.foldl (fun n c => 10 * n + (c.toNat - '0'.toNat)) 0

def minus (k : Cursor) : Bool × Cursor :=
  match k.read with
  | (some (_, '-'), after) => (true, after)
  | _ => (false, k)

def integer (start : Cursor) : Except Fault (Int64 × Cursor) :=
  let start := start.skipBlanks
  let (negative, k) := minus start
  let (digits, k) := k.readWhile isDigit
  if digits.isEmpty then .error (k.fault k.peek? .invalidIntegerLiteral)
  else
    let n := digitsValue digits
    let outOfRange := fun cause => .error ⟨cause, start.position.index, k.position.index⟩
    if negative then
      if n ≤ 2 ^ 63 then .ok (Int64.ofInt (-n), k) else outOfRange .integerTooSmall
    else
      if n < 2 ^ 63 then .ok (Int64.ofNat n, k) else outOfRange .integerTooLarge

/-- The digits in front of the point: a zero alone, and only when a point follows, or a run of
    digits that starts with another one. -/
def wholeDigits (k : Cursor) : Except Fault (List Char × Cursor) :=
  match k.peek? with
  | some (_, c) =>
    if c = '0' then
      let k := k.read.2
      match k.peek? with
      | some (_, '.') => .ok ([c], k)
      | found => .error (k.fault found .leadingZeroWithoutDot)
    else if isDigit c then .ok (k.readWhile isDigit)
    else .error (k.fault (some (k.position.index, c)) .invalidDecimalLiteral)
  | none => .error (k.fault none .invalidDecimalLiteral)

def fractionDigits (k : Cursor) : List Char × Cursor :=
  match k.read with
  | (some (_, '.'), after) => after.readWhile isDigit
  | _ => ([], k)

def decimal (k : Cursor) : Except Fault (Binary64 × Cursor) := do
  let (negative, k) := minus k.skipBlanks
  let (whole, k) ← wholeDigits k
  let (fraction, k) := fractionDigits k
  .ok (.ofDecimal negative (digitsValue (whole ++ fraction)) (-(fraction.length : Int)), k)

def startsNumber (c : Char) : Bool := c = '-' || isDigit c

def bound? (keyword : Keyword) (k : Cursor) : Except Fault (Option Bound × Cursor) :=
  match k.peekNext? with
  | some (_, c) =>
    if startsNumber c then
      if keyword.hasDecimalBounds then (decimal k).map fun (x, k) => (some (.float x), k)
      else (integer k).map fun (i, k) => (some (.int i), k)
    else .ok (none, k)
  | none => .ok (none, k)

def bounds (keyword : Keyword) (k : Cursor) :
    Except Fault ((Option Bound × Option Bound) × Cursor) := do
  let (minimum, k) ← bound? keyword k
  match k.next with
  | (some (_, '>'), k) => .ok ((minimum, none), k)
  | (some (_, ','), k) =>
    let (maximum, k) ← bound? keyword k
    match k.next with
    | (some (_, '>'), k) => .ok ((minimum, maximum), k)
    | (found, k) => .error (k.fault found .missingRangeCloser)
  | (found, k) => .error (k.fault found .invalidRangeDelimiter)

def keyword (k : Cursor) : Except Fault (Keyword × Cursor) :=
  let start := k.skipBlanks
  let (word, k) := start.readWhile isNamePart
  if word.isEmpty then .error (k.fault k.peek? .invalidPrimitiveType)
  else
    match Keyword.ofWord? (String.ofList word) with
    | some keyword => .ok (keyword, k)
    | none => .error ⟨.invalidPrimitiveType, start.position.index, k.position.index⟩

/-- A keyword with the range that may follow it; a range without bounds is the keyword alone. -/
def primitive (k : Cursor) : Except Fault (Definition × Cursor) := do
  let (keyword, k) ← keyword k
  if keyword.acceptsRange then
    match k.next with
    | (some (_, '<'), inside) =>
      match ← bounds keyword inside with
      | ((none, none), k) => .ok (.primitive keyword, k)
      | ((minimum, maximum), k) => .ok (.range ⟨keyword, minimum, maximum⟩, k)
    | _ => .ok (.primitive keyword, k)
  else .ok (.primitive keyword, k)

def name (cause : Cause) (k : Cursor) : Except Fault (String × Cursor) :=
  let k := k.skipBlanks
  match k.peek? with
  | some (index, c) =>
    if isNameStart c then
      let (word, k) := k.readWhile isNamePart
      .ok (String.ofList word, k)
    else .error (k.fault (some (index, c)) cause)
  | none => .error (k.fault none cause)

/-- Splits behind the slash that closes a pattern, the first one that no backslash precedes, when
    `last` is the character in front: the body and what follows the slash. -/
def splitPattern? (last : Char) : List Char → Option (List Char × List Char)
  | [] => none
  | c :: cs =>
    if c = '/' ∧ last ≠ '\\' then some ([], cs)
    else (splitPattern? c cs).map fun (body, rest) => (c :: body, rest)

def isFlag (c : Char) : Bool := c = 'g' || c = 'i' || c = 'm'

/-- A pattern whose opening slash, at byte `opened`, is just behind the cursor. -/
def pattern (accepts : PatternLiteral → Bool) (opened : Nat) (k : Cursor) :
    Except Fault (PatternLiteral × Cursor) :=
  match splitPattern? '/' k.rest with
  | none => .error ⟨.unterminatedPattern, opened, k.stop⟩
  | some (body, rest) =>
    let (flags, k) := (k.skipOver (body ++ ['/']) rest).readWhile isFlag
    let literal : PatternLiteral :=
      ⟨String.ofList body, ⟨flags.contains 'g', flags.contains 'i', flags.contains 'm'⟩⟩
    if accepts literal then .ok (literal, k)
    else .error ⟨.invalidPattern, opened, k.position.index⟩

/-- Items up to the character `close`, with commas between them and perhaps behind the last one.
    An item takes at least one character, so `steps` beyond the rest of the text are enough. -/
def itemsWithin {α : Type} (close : Char) (missing : Cause) (item : Reader α) :
    Nat → Reader (List α)
  | 0, k => .error (k.fault none missing)
  | steps + 1, k =>
    if k.peekNext?.any (·.2 = close) then .ok ([], k.next.2)
    else do
      let (x, k) ← item k
      match k.next with
      | (some (index, c), k) =>
        if c = ',' then
          let (xs, k) ← itemsWithin close missing item steps k
          .ok (x :: xs, k)
        else if c = close then .ok ([x], k)
        else .error (k.fault (some (index, c)) missing)
      | (none, k) => .error (k.fault none missing)

def items {α : Type} (close : Char) (missing : Cause) (item : Reader α) (k : Cursor) :
    Except Fault (List α × Cursor) :=
  itemsWithin close missing item (k.rest.length + 1) k

def member (value : Reader Definition) (k : Cursor) :
    Except Fault (Member Definition × Cursor) := do
  let (name, k) ← name .invalidMemberName k
  let (optional, k) :=
    match k.next with
    | (some (_, '?'), after) => (true, after)
    | _ => (false, k)
  match k.next with
  | (some (_, ':'), k) =>
    let (value, k) ← value k
    .ok (⟨name, optional, value⟩, k)
  | (found, k) => .error (k.fault found .missingMemberColon)

def object (value : Reader Definition) (k : Cursor) : Except Fault (Definition × Cursor) :=
  (items '\x7d' .missingObjectDelimiter (member value) k).map fun (members, k) =>
    (.object members, k)

def label (k : Cursor) : Except Fault Cursor :=
  if k.peekNext?.any (isNameStart ·.2) then do
    let (_, k) ← name .invalidEnumerationValue k
    match k.next with
    | (some (_, '='), k) => .ok k
    | (found, k) => .error (k.fault found .missingEnumerationAssignment)
  else .ok k

def enumerationItem (k : Cursor) : Except Fault (Int64 × Cursor) := do
  let k ← label k
  if k.peekNext?.any (startsNumber ·.2) then integer k
  else .error (k.fault k.peekNext? .invalidEnumerationValue)

def enumeration (k : Cursor) : Except Fault (Definition × Cursor) :=
  (items ')' .missingEnumerationDelimiter enumerationItem k).map fun (values, k) =>
    (.enumeration values, k)

def bareElement (value : Reader Definition) (k : Cursor) : Except Fault (Definition × Cursor) :=
  match k.peekNext? with
  | some (_, '(') => enumeration k.next.2
  | some (_, '\x7b') => object value k.next.2
  | some (index, c) =>
    if c = '[' ∨ c = '/' then .error (k.fault (some (index, c)) .invalidArrayElement)
    else (keyword k).map fun (keyword, k) => (.primitive keyword, k)
  | none => .error (k.fault none .missingClosingBracket)

def element (value : Reader Definition) (k : Cursor) :
    Except Fault (Option Definition × Cursor) := do
  let (element, k) ← bareElement value k
  match k.next with
  | (some (_, ']'), k) => .ok (some element, k)
  | (some (index, '<'), k) => .error (k.fault (some (index, '<')) .invalidArrayElement)
  | (found, k) => .error (k.fault found .missingClosingBracket)

def array (value : Reader Definition) (k : Cursor) : Except Fault (Definition × Cursor) :=
  match k.next with
  | (some (_, ']'), k) => .ok (.array none, k)
  | _ => (element value k).map fun (element, k) => (.array element, k)

/-- A value of at most the given depth. Every level takes a character. -/
def value (accepts : PatternLiteral → Bool) : Nat → Reader Definition
  | 0, k => .error (k.fault none .missingValue)
  | depth + 1, k =>
    match k.next with
    | (some (_, '\x7b'), k) => object (value accepts depth) k
    | (some (_, '('), k) => enumeration k
    | (some (opened, '/'), k) =>
      (pattern accepts opened k).map fun (literal, k) => (.pattern literal, k)
    | (some (_, '['), k) => array (value accepts depth) k
    | (some _, _) => primitive k
    | (none, k) => .error (k.fault none .missingValue)

def whole (accepts : PatternLiteral → Bool) (k : Cursor) : Except Fault Definition := do
  let (definition, k) ← value accepts (k.rest.length + 1) k
  match k.peekNext? with
  | none => .ok definition
  | found => .error (k.fault found .unexpectedCharacter)

end Definition.Parser

namespace Definition

def ofBareText (accepts : PatternLiteral → Bool) (text : String) : Except SyntaxError Definition :=
  match Parser.whole accepts (.ofText text) with
  | .ok definition => .ok definition
  | .error fault => .error (fault.inText text)

/-- Reads a definition from text. Faults other than an open comment refer to the text without
    its comments. -/
def ofTextWith (accepts : PatternLiteral → Bool) (text : String) :
    Except SyntaxError Definition := do
  ofBareText accepts (← stripComments text)

end Definition

end CompactSchema
