import CompactSchema.Json.Value
import CompactSchema.Text.Quoted

set_option autoImplicit false

/-!
# Writing documents

Documents are written without blanks. Quotes, backslashes and control characters are escaped and
nothing else is; a number that is not finite is written as `null`.
-/

namespace CompactSchema.Json

def escape (c : Char) : List Char :=
  match c with
  | '"' => ['\\', '"']
  | '\\' => ['\\', '\\']
  | '\x08' => ['\\', 'b']
  | '\x0c' => ['\\', 'f']
  | '\n' => ['\\', 'n']
  | '\r' => ['\\', 'r']
  | '\t' => ['\\', 't']
  | c =>
    if c < ' ' then ['\\', 'u'] ++ Text.hexPadded 4 c.toNat else [c]

def quoted (text : String) : List Char := '"' :: text.toList.flatMap escape ++ ['"']

def numberChars : JsonNumber → List Char
  | .whole i => (toString i).toList
  | .float x => (x.serializedText?.getD "null").toList

mutual

def chars : Json → List Char
  | null => ['n', 'u', 'l', 'l']
  | bool true => ['t', 'r', 'u', 'e']
  | bool false => ['f', 'a', 'l', 's', 'e']
  | number n => numberChars n
  | string text => quoted text
  | array items => '[' :: itemChars items ++ [']']
  | object entries => '\x7b' :: entryChars entries ++ ['\x7d']

def itemChars : List Json → List Char
  | [] => []
  | [item] => item.chars
  | item :: second :: items => item.chars ++ ',' :: itemChars (second :: items)

def entryChars : List (String × Json) → List Char
  | [] => []
  | [(key, value)] => quoted key ++ ':' :: value.chars
  | (key, value) :: second :: entries =>
    quoted key ++ ':' :: value.chars ++ ',' :: entryChars (second :: entries)

end

def text (j : Json) : String := String.ofList j.chars

end CompactSchema.Json
