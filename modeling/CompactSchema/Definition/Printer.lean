import CompactSchema.Definition.Basic

set_option autoImplicit false

/-!
# Canonical text

The text of a definition has one space behind the separators of an object and none elsewhere.
Labels and comments are no part of a definition, so they are not printed.
-/

namespace CompactSchema

namespace Range

def chars (r : Range) : List Char :=
  r.keyword.word.toList ++
    match r.minimum, r.maximum with
    | some low, some high => '<' :: low.text.toList ++ ',' :: high.text.toList ++ ['>']
    | some low, none => '<' :: low.text.toList ++ ['>']
    | none, some high => '<' :: ',' :: high.text.toList ++ ['>']
    | none, none => []

end Range

namespace Flags

def chars (f : Flags) : List Char :=
  (if f.everywhere then ['g'] else []) ++ (if f.ignoreCase then ['i'] else []) ++
    if f.multiline then ['m'] else []

end Flags

namespace PatternLiteral

def chars (p : PatternLiteral) : List Char :=
  '/' :: p.body.toList ++ '/' :: p.flags.chars

end PatternLiteral

namespace Definition

def join (separator : List Char) (texts : List (List Char)) : List Char :=
  (texts.intersperse separator).flatten

mutual

def chars : Definition → List Char
  | primitive keyword => keyword.word.toList
  | range r => r.chars
  | pattern literal => literal.chars
  | object [] => ['\x7b', '\x7d']
  | object (m :: ms) =>
    ['\x7b', ' '] ++ join [',', ' '] (memberChars (m :: ms)) ++ [' ', '\x7d']
  | enumeration values =>
    '(' :: join [','] (values.map fun i => (toString i.toInt).toList) ++ [')']
  | array element => '[' :: elementChars element ++ [']']

def memberChars : List (Member Definition) → List (List Char)
  | [] => []
  | ⟨name, optional, value⟩ :: members =>
    (name.toList ++ (if optional then ['?', ':', ' '] else [':', ' ']) ++ value.chars) ::
      memberChars members

def elementChars : Option Definition → List Char
  | none => []
  | some element => element.chars

end

def text (d : Definition) : String := String.ofList d.chars

end Definition

end CompactSchema
