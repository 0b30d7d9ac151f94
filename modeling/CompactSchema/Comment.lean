import CompactSchema.SyntaxError

set_option autoImplicit false

/-!
# Comments

A line comment runs from `//` up to the next line feed, which stays. A block comment runs from
`/*` through the next `*/`. Any other slash opens a pattern, which is kept through its closing
slash, the next one that no backslash precedes; comments are not looked for inside of it.

`Stripper.step` reads one character at a time, so what is kept of a text is what is kept of its
first part followed by what is kept of the rest from where the first part ends.
-/

namespace CompactSchema

namespace Stripper

inductive Mode
  | plain
  /-- Behind a slash at byte `opened`, whose meaning the next character decides. -/
  | slash (opened : Nat)
  | lineComment
  /-- In the block comment opened at byte `opened`; `star` when a star was read last. -/
  | blockComment (opened : Nat) (star : Bool)
  | pattern (last : Char)
deriving Repr, DecidableEq

def step (mode : Mode) (index : Nat) (c : Char) : Mode × List Char :=
  match mode with
  | .plain => if c = '/' then (.slash index, []) else (.plain, [c])
  | .slash opened =>
    if c = '/' then (.lineComment, [])
    else if c = '*' then (.blockComment opened false, [])
    else (.pattern c, ['/', c])
  | .lineComment => if c = '\n' then (.plain, [c]) else (.lineComment, [])
  | .blockComment opened star =>
    if star = true ∧ c = '/' then (.plain, []) else (.blockComment opened (c = '*'), [])
  | .pattern last => if c = '/' ∧ last ≠ '\\' then (.plain, [c]) else (.pattern c, [c])

def run (mode : Mode) (index : Nat) : List Char → Mode × List Char
  | [] => (mode, [])
  | c :: cs =>
    let (next, kept) := step mode index c
    let (last, more) := run next (index + c.utf8Size) cs
    (last, kept ++ more)

/-- What is kept when the text ends: a lone slash at the end opens an empty pattern. -/
def finish : Mode → Except SyntaxError.Fault (List Char)
  | .slash _ => .ok ['/']
  | .blockComment opened _ => .error ⟨.unterminatedComment, opened, opened + 2⟩
  | _ => .ok []

end Stripper

def stripChars (cs : List Char) : Except SyntaxError.Fault (List Char) :=
  let (mode, kept) := Stripper.run .plain 0 cs
  (Stripper.finish mode).map (kept ++ ·)

def stripComments (text : String) : Except SyntaxError String :=
  match stripChars text.toList with
  | .ok kept => .ok (String.ofList kept)
  | .error fault => .error (fault.inText text)

end CompactSchema
