import CompactSchema.Unicode.Word

set_option autoImplicit false

/-!
# Conditions on positions

What a pattern may ask of the characters before and behind a position: the ends of the text, of
lines and of words.
-/

namespace CompactSchema.Pattern

/-- A condition on a position between two characters. `wide` asks for the word characters of
    all scripts and not only the seven-bit ones. -/
inductive Look
  | textStart
  | textEnd
  | lineStart
  | lineEnd
  /-- As `lineStart`, where a carriage return ends a line too, and both together one. -/
  | returnStart
  | returnEnd
  | boundary (wide : Bool)
  | inside (wide : Bool)
  | wordStart (wide : Bool)
  | wordEnd (wide : Bool)
  | startHalf (wide : Bool)
  | endHalf (wide : Bool)
deriving Repr, DecidableEq

namespace Look

def isWord (wide : Bool) (c : Option Char) : Bool :=
  c.any fun c =>
    if wide then Unicode.isWord c else c.isAlphanum || c = '_'

def holds (look : Look) (before behind : Option Char) : Bool :=
  match look with
  | textStart => before.isNone
  | textEnd => behind.isNone
  | lineStart => before.isNone || before = some '\n'
  | lineEnd => behind.isNone || behind = some '\n'
  | returnStart =>
    before.isNone || before = some '\n' || (before = some '\r' && behind != some '\n')
  | returnEnd =>
    behind.isNone || behind = some '\r' || (behind = some '\n' && before != some '\r')
  | boundary wide => isWord wide before != isWord wide behind
  | inside wide => isWord wide before == isWord wide behind
  | wordStart wide => !isWord wide before && isWord wide behind
  | wordEnd wide => isWord wide before && !isWord wide behind
  | startHalf wide => !isWord wide before
  | endHalf wide => !isWord wide behind

end Look

end CompactSchema.Pattern
