import CompactSchema.Json.Numeral

set_option autoImplicit false

/-!
# Reading documents

Strict JSON: no comments, no trailing commas, no raw control characters in strings, no halves of
a surrogate pair, and at most 127 arrays and objects inside of one another.
-/

namespace CompactSchema.Json

open Text

def skipBlanks (cs : List Char) : List Char := cs.dropWhile isBlank

def hexValue? (c : Char) : Option Nat :=
  if isDigit c then some (c.toNat - '0'.toNat)
  else if 'a' ≤ c ∧ c ≤ 'f' then some (c.toNat - 'a'.toNat + 10)
  else if 'A' ≤ c ∧ c ≤ 'F' then some (c.toNat - 'A'.toNat + 10)
  else none

def unit? (a b c d : Char) : Option Nat := do
  some (4096 * (← hexValue? a) + 256 * (← hexValue? b) + 16 * (← hexValue? c) + (← hexValue? d))

def shortEscape? : Char → Option Char
  | '"' => some '"'
  | '\\' => some '\\'
  | '/' => some '/'
  | 'b' => some '\x08'
  | 'f' => some '\x0c'
  | 'n' => some '\n'
  | 'r' => some '\r'
  | 't' => some '\t'
  | _ => none

def isLeading (n : Nat) : Bool := 0xd800 ≤ n && n ≤ 0xdbff

def isTrailing (n : Nat) : Bool := 0xdc00 ≤ n && n ≤ 0xdfff

def pair (leading trailing : Nat) : Char :=
  Char.ofNat (0x10000 + (leading - 0xd800) * 0x400 + (trailing - 0xdc00))

/-- The number of an escape and what follows it. The escape takes the next four bytes, whatever
    characters they are of. -/
def escapedUnit (cs : List Char) : Except Fault (Nat × List Char) :=
  let fault :=
    if Text.byteLength cs < 4 then Fault.behind .stringEnds [] else ⟨.invalidEscape, cs, 4⟩
  match cs with
  | a :: b :: c :: d :: rest =>
    match unit? a b c d with
    | some n => .ok (n, rest)
    | none => .error fault
  | _ => .error fault

def escapedChar (cs : List Char) : Except Fault (Char × List Char) := do
  let (n, rest) ← escapedUnit cs
  if isTrailing n then .error (.behind .loneSurrogate rest)
  else if isLeading n then
    match rest with
    | '\\' :: 'u' :: rest =>
      let (m, rest) ← escapedUnit rest
      if isTrailing m then .ok (pair n m, rest) else .error (.behind .loneSurrogate rest)
    | '\\' :: [] => .error (.behind .stringEnds [])
    | '\\' :: rest => .error (.facing .halfSurrogatePair rest)
    | [] => .error (.behind .stringEnds [])
    | rest => .error (.facing .halfSurrogatePair rest)
  else .ok (Char.ofNat n, rest)

/-- The content of a string through its closing quote. Every step takes a character, so more steps
    than characters are enough. -/
def stringWithin : Nat → List Char → Except Fault (List Char × List Char)
  | 0, cs => .error (.behind .stringEnds cs)
  | steps + 1, cs =>
    let onward := fun c rest => do
      let (content, rest) ← stringWithin steps rest
      .ok (c :: content, rest)
    match cs with
    | [] => .error (.behind .stringEnds [])
    | '"' :: rest => .ok ([], rest)
    | '\\' :: [] => .error (.behind .stringEnds [])
    | '\\' :: 'u' :: rest => do
      let (c, rest) ← escapedChar rest
      onward c rest
    | '\\' :: c :: rest =>
      match shortEscape? c with
      | some c => onward c rest
      | none => .error (.facing .invalidEscape (c :: rest))
    | c :: rest =>
      if c < ' ' then .error (.facing .controlCharacter (c :: rest)) else onward c rest

def stringChars (cs : List Char) : Except Fault (List Char × List Char) :=
  stringWithin (cs.length + 1) cs

def stringText (cs : List Char) : Except Fault (String × List Char) := do
  let (content, rest) ← stringChars cs
  .ok (String.ofList content, rest)

def word {α : Type} (value : α) : List Char → List Char → Except Fault (α × List Char)
  | [], cs => .ok (value, cs)
  | _ :: _, [] => .error (.behind .valueEnds [])
  | expected :: more, c :: cs =>
    if c = expected then word value more cs else .error (.facing .expectedWord (c :: cs))

/-- The items of an array through its closing bracket. An item takes at least one character, so
    more steps than characters are enough. -/
def itemsWithin {α : Type} (value : List Char → Except Fault (α × List Char)) :
    Nat → Bool → List Char → Except Fault (List α × List Char)
  | 0, _, cs => .error (.facing .listEnds cs)
  | steps + 1, first, cs =>
    let next := fun cs => do
      let (item, cs) ← value cs
      let (items, cs) ← itemsWithin value steps false cs
      .ok (item :: items, cs)
    match skipBlanks cs with
    | [] => .error (.facing .listEnds [])
    | c :: cs =>
      if c = ']' then .ok ([], cs)
      else if first then next (c :: cs)
      else if c = ',' then
        match skipBlanks cs with
        | [] => .error (.facing .valueEnds [])
        | ']' :: rest => .error (.facing .trailingComma (']' :: rest))
        | cs => next cs
      else .error (.facing .expectedListComma (c :: cs))

def entriesWithin {κ α : Type} (key : List Char → Except Fault (κ × List Char))
    (value : List Char → Except Fault (α × List Char)) :
    Nat → Bool → List Char → Except Fault (List (κ × α) × List Char)
  | 0, _, cs => .error (.facing .objectEnds cs)
  | steps + 1, first, cs =>
    let next := fun cs => do
      let (name, cs) ← key cs
      match skipBlanks cs with
      | [] => .error (.facing .objectEnds [])
      | c :: cs =>
        if c = ':' then
          let (item, cs) ← value cs
          let (entries, cs) ← entriesWithin key value steps false cs
          .ok ((name, item) :: entries, cs)
        else .error (.facing .expectedColon (c :: cs))
    match skipBlanks cs with
    | [] => .error (.facing .objectEnds [])
    | c :: cs =>
      if c = '\x7d' then .ok ([], cs)
      else if first then
        if c = '"' then next cs else .error (.facing .keyNotString (c :: cs))
      else if c = ',' then
        match skipBlanks cs with
        | [] => .error (.facing .valueEnds [])
        | '"' :: cs => next cs
        | '\x7d' :: rest => .error (.facing .trailingComma ('\x7d' :: rest))
        | cs => .error (.facing .keyNotString cs)
      else .error (.facing .expectedObjectComma (c :: cs))

def valueWithin (depth : Nat) (cs : List Char) : Except Fault (Json × List Char) :=
  match skipBlanks cs with
  | [] => .error (.facing .valueEnds [])
  | 'n' :: cs => word .null ['u', 'l', 'l'] cs
  | 't' :: cs => word (.bool true) ['r', 'u', 'e'] cs
  | 'f' :: cs => word (.bool false) ['a', 'l', 's', 'e'] cs
  | '"' :: cs => (stringText cs).map fun (text, rest) => (.string text, rest)
  | '-' :: cs => (Numeral.read true cs).map fun (n, rest) => (.number n, rest)
  | '[' :: cs =>
    match depth with
    | 0 => .error (.facing .tooDeep ('[' :: cs))
    | depth + 1 =>
      (itemsWithin (valueWithin depth) (cs.length + 1) true cs).map fun (items, rest) =>
        (.array items, rest)
  | '\x7b' :: cs =>
    match depth with
    | 0 => .error (.facing .tooDeep ('\x7b' :: cs))
    | depth + 1 =>
      (entriesWithin stringText (valueWithin depth) (cs.length + 1) true cs).map
        fun (entries, rest) => (.object entries, rest)
  | c :: cs =>
    if isDigit c then (Numeral.read false (c :: cs)).map fun (n, rest) => (.number n, rest)
    else .error (.facing .expectedValue (c :: cs))

def depthLimit : Nat := 127

def ofChars (cs : List Char) : Except Fault Json := do
  let (value, rest) ← valueWithin depthLimit cs
  match skipBlanks rest with
  | [] => .ok value
  | rest => .error (.facing .trailingCharacters rest)

def ofText (text : String) : Except String Json :=
  match ofChars text.toList with
  | .ok value => .ok value
  | .error fault => .error (fault.report text.toList)

end CompactSchema.Json
