import CompactSchema.Text.Cursor

set_option autoImplicit false

/-!
# Faults of a document

What can be wrong with the text of a document, and how it is reported. The place of a fault is a
number of bytes from the start of the text; its column counts bytes.
-/

namespace CompactSchema.Json

inductive Cause
  | listEnds
  | objectEnds
  | stringEnds
  | valueEnds
  | expectedColon
  | expectedListComma
  | expectedObjectComma
  | expectedWord
  | expectedValue
  | invalidEscape
  | invalidNumber
  | numberOutOfRange
  | controlCharacter
  | keyNotString
  | loneSurrogate
  | halfSurrogatePair
  | trailingComma
  | trailingCharacters
  | tooDeep
deriving Repr, DecidableEq

namespace Cause

def message : Cause → String
  | listEnds => "EOF while parsing a list"
  | objectEnds => "EOF while parsing an object"
  | stringEnds => "EOF while parsing a string"
  | valueEnds => "EOF while parsing a value"
  | expectedColon => "expected `:`"
  | expectedListComma => "expected `,` or `]`"
  | expectedObjectComma => "expected `,` or `\x7d`"
  | expectedWord => "expected ident"
  | expectedValue => "expected value"
  | invalidEscape => "invalid escape"
  | invalidNumber => "invalid number"
  | numberOutOfRange => "number out of range"
  | controlCharacter =>
    "control character (\\u0000-\\u001F) found while parsing a string"
  | keyNotString => "key must be a string"
  | loneSurrogate => "lone leading surrogate in hex escape"
  | halfSurrogatePair => "unexpected end of hex escape"
  | trailingComma => "trailing comma"
  | trailingCharacters => "trailing characters"
  | tooDeep => "recursion limit exceeded"

end Cause

/-- A cause, the text still to be read where it was found, and how many bytes of that text are to
    blame. -/
structure Fault where
  cause : Cause
  rest : List Char
  bytes : Nat
deriving Repr, DecidableEq

namespace Fault

/-- What was read last is to blame. -/
def behind (cause : Cause) (rest : List Char) : Fault := ⟨cause, rest, 0⟩

/-- The next byte is to blame, if there is one. -/
def facing (cause : Cause) (rest : List Char) : Fault := ⟨cause, rest, min 1 rest.length⟩

def offset (f : Fault) (text : List Char) : Nat :=
  Text.byteLength text - Text.byteLength f.rest + f.bytes

def placeFrom (line column : Nat) : Nat → List Char → Nat × Nat
  | _, [] => (line, column)
  | offset, c :: cs =>
    if offset = 0 then (line, column)
    else if c = '\n' then placeFrom (line + 1) 0 (offset - 1) cs
    else placeFrom line (column + min offset c.utf8Size) (offset - c.utf8Size) cs

def report (f : Fault) (text : List Char) : String :=
  let (line, column) := placeFrom 1 0 (f.offset text) text
  f.cause.message ++ " at line " ++ toString line ++ " column " ++ toString column

end Fault

end CompactSchema.Json
