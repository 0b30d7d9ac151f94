import CompactSchema.Json.Reader

set_option autoImplicit false

/-!
# Outlines of documents

A document of which parts may be passed over need not be readable in those parts: only the
grammar is kept everywhere. An outline marks the numbers and strings that have no value, and what
lies deeper than a document may go.
-/

namespace CompactSchema

inductive Outline
  | null
  | bool (value : Bool)
  /-- None for a number that is out of range. -/
  | number (value? : Option JsonNumber)
  /-- None for a string with half of a surrogate pair. -/
  | string (text? : Option String)
  | array (items : List Outline)
  | object (entries : List (Option String × Outline))
  /-- An array or object that lies too deep. -/
  | deep
deriving Repr

namespace Outline

open Json Text

def skipString : List Char → Except Fault (List Char)
  | [] => .error (.behind .stringEnds [])
  | '"' :: rest => .ok rest
  | '\\' :: 'u' :: a :: b :: c :: d :: rest =>
    match unit? a b c d with
    | some _ => skipString rest
    | none => .error ⟨.invalidEscape, a :: b :: c :: d :: rest, 4⟩
  | '\\' :: c :: rest =>
    match shortEscape? c with
    | some _ => skipString rest
    | none => .error (.facing .invalidEscape (c :: rest))
  | c :: rest => if c < ' ' then .error (.facing .controlCharacter (c :: rest)) else skipString rest

def skipDigits (cs : List Char) : Except Fault (List Char) :=
  match cs with
  | [] => .error (.behind .valueEnds [])
  | c :: rest =>
    if isDigit c then .ok (rest.dropWhile isDigit) else .error (.facing .invalidNumber (c :: rest))

def skipExponent : List Char → Except Fault (List Char)
  | 'e' :: '+' :: cs | 'e' :: '-' :: cs | 'e' :: cs => skipDigits cs
  | 'E' :: '+' :: cs | 'E' :: '-' :: cs | 'E' :: cs => skipDigits cs
  | cs => .ok cs

def skipNumber (cs : List Char) : Except Fault (List Char) := do
  let rest ←
    match cs with
    | '0' :: c :: rest =>
      if isDigit c then .error (.facing .invalidNumber (c :: rest)) else .ok (c :: rest)
    | cs => skipDigits cs
  match rest with
  | '.' :: rest => skipExponent (← skipDigits rest)
  | rest => skipExponent rest

inductive Frame
  | array
  | object
deriving Repr, DecidableEq

def Frame.closing : Frame → Char
  | array => ']'
  | object => '\x7d'

inductive Stage
  | value
  | opened
  | key
  | closed
deriving Repr, DecidableEq

/-- What is left behind the end of the outermost of the open frames, of which the innermost comes
    first. Every step but those behind an opening bracket takes a character. -/
def skipFrames : Nat → Stage → List Frame → List Char → Except Fault (List Char)
  | 0, _, _, cs => .error (.facing .valueEnds cs)
  | _ + 1, .closed, [], cs => .ok cs
  | steps + 1, stage, frames, cs =>
    match stage, frames, skipBlanks cs with
    | _, _, [] => .error (.facing .valueEnds [])
    | .value, _, c :: cs => do
      match c with
      | '[' => skipFrames steps .opened (.array :: frames) cs
      | '\x7b' => skipFrames steps .opened (.object :: frames) cs
      | '"' => skipFrames steps .closed frames (← skipString cs)
      | 'n' => skipFrames steps .closed frames (← word () ['u', 'l', 'l'] cs).2
      | 't' => skipFrames steps .closed frames (← word () ['r', 'u', 'e'] cs).2
      | 'f' => skipFrames steps .closed frames (← word () ['a', 'l', 's', 'e'] cs).2
      | '-' => skipFrames steps .closed frames (← skipNumber cs)
      | c =>
        if isDigit c then skipFrames steps .closed frames (← skipNumber (c :: cs))
        else .error (.facing .expectedValue (c :: cs))
    | .key, _, c :: cs => do
      if c = '"' then
        match skipBlanks (← skipString cs) with
        | ':' :: cs => skipFrames steps .value frames cs
        | cs => .error (.facing .expectedColon cs)
      else .error (.facing .keyNotString (c :: cs))
    | stage, frame :: outer, c :: cs =>
      let onward := match frame with
        | .array => Stage.value
        | .object => Stage.key
      if c = frame.closing then skipFrames steps .closed outer cs
      else if stage = .opened then skipFrames steps onward frames (c :: cs)
      else if c = ',' then skipFrames steps onward frames cs
      else .error (.facing .expectedListComma (c :: cs))
    | _, [], cs => .error (.facing .trailingCharacters cs)

def skip (frame : Frame) (cs : List Char) : Except Fault (List Char) :=
  skipFrames (2 * cs.length + 2) .opened [frame] cs

def stringText (cs : List Char) : Except Fault (Option String × List Char) :=
  match Json.stringText cs with
  | .ok (text, rest) => .ok (some text, rest)
  | .error _ => (skipString cs).map (none, ·)

def numeral (negative : Bool) (cs : List Char) : Except Fault (Option JsonNumber × List Char) :=
  match Numeral.read negative cs with
  | .ok (n, rest) => .ok (some n, rest)
  | .error _ => (skipNumber cs).map (none, ·)

def within (depth : Nat) (cs : List Char) : Except Fault (Outline × List Char) :=
  match skipBlanks cs with
  | [] => .error (.facing .valueEnds [])
  | 'n' :: cs => word null ['u', 'l', 'l'] cs
  | 't' :: cs => word (bool true) ['r', 'u', 'e'] cs
  | 'f' :: cs => word (bool false) ['a', 'l', 's', 'e'] cs
  | '"' :: cs => (stringText cs).map fun (text?, rest) => (string text?, rest)
  | '-' :: cs => (numeral true cs).map fun (n?, rest) => (number n?, rest)
  | '[' :: cs =>
    match depth with
    | 0 => (skip .array cs).map (deep, ·)
    | depth + 1 =>
      (itemsWithin (within depth) (cs.length + 1) true cs).map fun (items, rest) =>
        (array items, rest)
  | '\x7b' :: cs =>
    match depth with
    | 0 => (skip .object cs).map (deep, ·)
    | depth + 1 =>
      (entriesWithin stringText (within depth) (cs.length + 1) true cs).map
        fun (entries, rest) => (object entries, rest)
  | c :: cs =>
    if isDigit c then (numeral false (c :: cs)).map fun (n?, rest) => (number n?, rest)
    else .error (.facing .expectedValue (c :: cs))

def ofText? (text : String) : Option Outline :=
  match within Json.depthLimit text.toList with
  | .ok (outline, rest) => if (skipBlanks rest).isEmpty then some outline else none
  | .error _ => none

def tagged? : Outline → Option (String × Outline)
  | object [(some name, value)] => some (name, value)
  | _ => none

/-- The value of a field, none when there is no such field; it must not occur twice. -/
def field? (entries : List (String × Outline)) (name : String) : Option (Option Outline) :=
  match entries.filter (·.1 = name) with
  | [] => some none
  | [(_, value)] => some (some value)
  | _ => none

/-- The values of the named fields of an object, or of a list that gives all of them. All names in
    the object have to be readable. -/
def fields? (names : List String) : Outline → Option (List (Option Outline))
  | object entries => do
    let entries ← entries.mapM fun (name?, value) => name?.map fun name => (name, value)
    names.mapM (field? entries)
  | array items => if items.length = names.length then some (items.map some) else none
  | _ => none

def bool? : Outline → Option Bool
  | bool b => some b
  | _ => none

def string? : Outline → Option String
  | string text? => text?
  | _ => none

def list? : Outline → Option (List Outline)
  | array items => some items
  | _ => none

def int64? : Outline → Option Int64
  | number (some (.whole i)) =>
    if -2 ^ 63 ≤ i ∧ i < 2 ^ 63 then some (Int64.ofInt i) else none
  | _ => none

def binary64? : Outline → Option Binary64
  | number n? => n?.map (·.toBinary64)
  | _ => none

end Outline

end CompactSchema
