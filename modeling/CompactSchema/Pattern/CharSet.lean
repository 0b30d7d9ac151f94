import CompactSchema.Unicode.Fold
import CompactSchema.Unicode.Word

set_option autoImplicit false

/-!
# Character sets

What one character of a text may be: ranges of scalar values, the operations on sets of them, and
the closure of a set under change of case.
-/

namespace CompactSchema.Pattern

inductive AsciiClass
  | alnum
  | alpha
  | ascii
  | blank
  | cntrl
  | digit
  | graph
  | lower
  | print
  | punct
  | space
  | upper
  | word
  | xdigit
deriving Repr, DecidableEq

namespace AsciiClass

def all : List AsciiClass :=
  [alnum, alpha, ascii, blank, cntrl, digit, graph, lower, print, punct, space, upper, word,
    xdigit]

def name : AsciiClass → String
  | alnum => "alnum"
  | alpha => "alpha"
  | ascii => "ascii"
  | blank => "blank"
  | cntrl => "cntrl"
  | digit => "digit"
  | graph => "graph"
  | lower => "lower"
  | print => "print"
  | punct => "punct"
  | space => "space"
  | upper => "upper"
  | word => "word"
  | xdigit => "xdigit"

def ofName? (cs : List Char) : Option AsciiClass := all.find? (·.name.toList = cs)

def ranges : AsciiClass → List (Char × Char)
  | alnum => [('0', '9'), ('A', 'Z'), ('a', 'z')]
  | alpha => [('A', 'Z'), ('a', 'z')]
  | ascii => [('\x00', '\x7f')]
  | blank => [('\t', '\t'), (' ', ' ')]
  | cntrl => [('\x00', '\x1f'), ('\x7f', '\x7f')]
  | digit => [('0', '9')]
  | graph => [('!', '~')]
  | lower => [('a', 'z')]
  | print => [(' ', '~')]
  | punct => [('!', '/'), (':', '@'), ('[', '\x60'), ('\x7b', '~')]
  | space => [('\t', '\r'), (' ', ' ')]
  | upper => [('A', 'Z')]
  | word => [('0', '9'), ('A', 'Z'), ('_', '_'), ('a', 'z')]
  | xdigit => [('0', '9'), ('A', 'F'), ('a', 'f')]

end AsciiClass

/-- Ranges of scalar values, each given by its first and its last value, in ascending order. Only
    next to the surrogates may a negated set hold ranges that touch. -/
structure CharSet where
  ranges : List (Nat × Nat)
deriving Repr, DecidableEq

namespace CharSet

def contains (s : CharSet) (c : Char) : Bool := Unicode.inRanges s.ranges c.toNat

def empty : CharSet := ⟨[]⟩

def joined (first last : Nat) : List (Nat × Nat) → List (Nat × Nat)
  | [] => [(first, last)]
  | (a, b) :: rest =>
    if a ≤ last + 1 then joined first (max last b) rest else (first, last) :: joined a b rest

def ofRanges (ranges : List (Nat × Nat)) : CharSet :=
  match ranges.mergeSort (fun x y => x.1 ≤ y.1) with
  | [] => empty
  | (first, last) :: rest => ⟨joined first last rest⟩

def range (first last : Char) : CharSet := ⟨[(first.toNat, last.toNat)]⟩

def singleton (c : Char) : CharSet := range c c

def ofAscii (name : AsciiClass) : CharSet :=
  ofRanges (name.ranges.map fun r => (r.1.toNat, r.2.toNat))

def digit : CharSet := ⟨Unicode.digitRanges⟩

def blank : CharSet := ⟨Unicode.blankRanges⟩

def word : CharSet := ⟨Unicode.wordRanges⟩

def top : Nat := 0x10ffff

def next (n : Nat) : Nat := if n = 0xd7ff then 0xe000 else n + 1

def previous (n : Nat) : Nat := if n = 0xe000 then 0xd7ff else n - 1

/-- What lies between the ranges from behind `last` on. Two ranges with only the surrogates between
    them leave their own ends. -/
def gaps (last : Nat) : List (Nat × Nat) → List (Nat × Nat)
  | [] => if last < top then [(next last, top)] else []
  | (a, b) :: rest =>
    (min (next last) (previous a), max (next last) (previous a)) :: gaps b rest

def compl (s : CharSet) : CharSet :=
  match s.ranges with
  | [] => ⟨[(0, top)]⟩
  | (first, last) :: rest =>
    ⟨(if 0 < first then [(0, previous first)] else []) ++ gaps last rest⟩

def unions (sets : List CharSet) : CharSet := ofRanges (sets.flatMap (·.ranges))

def union (a b : CharSet) : CharSet := unions [a, b]

def inter (a b : CharSet) : CharSet :=
  ⟨a.ranges.flatMap fun x => b.ranges.filterMap fun y =>
    if max x.1 y.1 ≤ min x.2 y.2 then some (max x.1 y.1, min x.2 y.2) else none⟩

def cut (ranges : List (Nat × Nat)) (first last : Nat) : List (Nat × Nat) :=
  ranges.flatMap fun (a, b) =>
    if b < first || last < a then [(a, b)]
    else
      (if a < first then [(a, previous first)] else []) ++
        (if last < b then [(next last, b)] else [])

def diff (a b : CharSet) : CharSet := ⟨b.ranges.foldl (fun rest y => cut rest y.1 y.2) a.ranges⟩

def symmDiff (a b : CharSet) : CharSet := (a.union b).diff (a.inter b)

def foldCase (s : CharSet) : CharSet :=
  let down := Unicode.foldPairs.filterMap fun (source, target) =>
    if Unicode.inRanges s.ranges source then some (target, target) else none
  let s := s.union (ofRanges down)
  let up := Unicode.foldPairs.filterMap fun (source, target) =>
    if Unicode.inRanges s.ranges target then some (source, source) else none
  s.union (ofRanges up)

def foldAscii (s : CharSet) : CharSet :=
  let upper := (s.inter (range 'a' 'z')).ranges.map fun (a, b) => (a - 32, b - 32)
  let lower := (s.inter (range 'A' 'Z')).ranges.map fun (a, b) => (a + 32, b + 32)
  unions [s, ⟨upper⟩, ⟨lower⟩]

end CharSet

end CompactSchema.Pattern
