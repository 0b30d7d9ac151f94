import CompactSchema.Text.Cursor
import CompactSchema.Text.Quoted

set_option autoImplicit false

/-!
# Syntax errors

A syntax error has a cause and the byte range of what it blames. Its line and column are
counted anew from the text in front of the range.
-/

namespace CompactSchema

namespace SyntaxError

inductive Cause
  | unterminatedComment
  | missingValue
  | unexpectedCharacter
  | invalidPrimitiveType
  | invalidRangeDelimiter
  | missingRangeCloser
  | invalidIntegerLiteral
  | invalidDecimalLiteral
  | leadingZeroWithoutDot
  | integerTooLarge
  | integerTooSmall
  | unterminatedPattern
  | invalidPattern
  | invalidMemberName
  | missingMemberColon
  | missingObjectDelimiter
  | missingEnumerationAssignment
  | invalidEnumerationValue
  | missingEnumerationDelimiter
  | invalidArrayElement
  | missingClosingBracket
deriving Repr, DecidableEq

namespace Cause

def message : Cause → String
  | unterminatedComment => "unterminated block comment. expected closing '*/'"
  | missingValue => "expected a value"
  | unexpectedCharacter => "unexpected character after the end of the notation"
  | invalidPrimitiveType => "invalid primitive type"
  | invalidRangeDelimiter => "invalid range delimiter. expected ',' or '>'"
  | missingRangeCloser => "missing closing '>' of range"
  | invalidIntegerLiteral => "invalid integer literal. expected a digit"
  | invalidDecimalLiteral => "invalid decimal literal. expected a digit"
  | leadingZeroWithoutDot => "decimal literal starting with zero must continue with '.'"
  | integerTooLarge => "number too large to fit in target type"
  | integerTooSmall => "number too small to fit in target type"
  | unterminatedPattern => "unterminated regular expression. expected closing '/'"
  | invalidPattern => "invalid regular expression"
  | invalidMemberName => "invalid member name"
  | missingMemberColon => "expected ':' after member name"
  | missingObjectDelimiter => "expected ',' or closing '\x7d'"
  | missingEnumerationAssignment => "expected '=' after enumeration label"
  | invalidEnumerationValue => "invalid enumeration value. expected an integer"
  | missingEnumerationDelimiter => "expected ',' or closing ')'"
  | invalidArrayElement => "invalid array element"
  | missingClosingBracket => "missing closing ']'"

def note? : Cause → Option String
  | missingValue =>
    some ("a value is an object '\x7b', an enumeration '(', a regular expression '/', an array " ++
      "'[' or a primitive type")
  | invalidPrimitiveType =>
    some "primitive types must be one of int, double, bool, string, byte, date, datetime or time"
  | invalidRangeDelimiter =>
    some ("insert a ',' between the minimal and maximal value, or omit it when only a minimal " ++
      "value is given")
  | leadingZeroWithoutDot =>
    some "write 0.5 rather than 05, and 0. or 0.0 for zero itself"
  | unterminatedPattern => some "a '/' inside the pattern must be escaped as '\\/'"
  | invalidMemberName =>
    some ("member names start with a letter or underscore, followed by letters, digits or " ++
      "underscores")
  | invalidEnumerationValue =>
    some "enumeration items are integers, optionally labelled as `name = 1`"
  | invalidArrayElement =>
    some ("an array must contain a primitive type, an enumeration or an object. ranges, regular " ++
      "expressions and nested arrays are not allowed")
  | _ => none

/-- The name of a cause with what lies below it. What is wrong inside a pattern is left out. -/
def details : Cause → String
  | unterminatedComment => "PARSER(UnterminatedComment)"
  | missingValue => "PARSER(MissingValue)"
  | unexpectedCharacter => "PARSER(UnexpectedCharacter)"
  | invalidPrimitiveType => "PARSER(InvalidPrimitiveType)"
  | invalidRangeDelimiter => "PARSER(InvalidRangeDelimiter)"
  | missingRangeCloser => "PARSER(MissingRangeCloser)"
  | invalidIntegerLiteral => "PARSER(InvalidIntegerLiteral)"
  | invalidDecimalLiteral => "PARSER(InvalidDecimalLiteral)"
  | leadingZeroWithoutDot => "PARSER(LeadingZeroWithoutDot)"
  | integerTooLarge => "PARSEINT(ParseIntError \x7b kind: PosOverflow \x7d)"
  | integerTooSmall => "PARSEINT(ParseIntError \x7b kind: NegOverflow \x7d)"
  | unterminatedPattern => "PARSER(UnterminatedRegularExpression)"
  | invalidPattern => "REGEX(invalid regular expression)"
  | invalidMemberName => "PARSER(InvalidMemberName)"
  | missingMemberColon => "PARSER(MissingMemberColon)"
  | missingObjectDelimiter => "PARSER(MissingObjectDelimiter)"
  | missingEnumerationAssignment => "PARSER(MissingEnumerationAssignment)"
  | invalidEnumerationValue => "PARSER(InvalidEnumerationValue)"
  | missingEnumerationDelimiter => "PARSER(MissingEnumerationDelimiter)"
  | invalidArrayElement => "PARSER(InvalidArrayElement)"
  | missingClosingBracket => "PARSER(MissingClosingBracket)"

/-- Number of causes below: a number out of range and a refused pattern have one of their own. -/
def causes : Cause → Nat
  | integerTooLarge | integerTooSmall | invalidPattern => 1
  | _ => 0

end Cause

structure Fault where
  cause : Cause
  start : Nat
  stop : Nat
deriving Repr, DecidableEq

end SyntaxError

structure SyntaxError extends SyntaxError.Fault where
  text : String
deriving Repr, DecidableEq

namespace SyntaxError

def Fault.inText (fault : Fault) (text : String) : SyntaxError := ⟨fault, text⟩

def position (e : SyntaxError) : Text.Position :=
  .after (Text.takeBytes e.start e.text.toList)

def details (e : SyntaxError) : String :=
  "Error \x7b error_type: " ++ e.cause.details ++ ", input: " ++ Text.quoted e.text ++
    ", position: Position \x7b line: " ++ toString e.position.line ++
    ", column: " ++ toString e.position.column ++
    ", range: (" ++ toString e.start ++ ", " ++ toString e.stop ++ ")" ++
    ", index: " ++ toString e.start ++ " \x7d \x7d"

end SyntaxError

end CompactSchema
