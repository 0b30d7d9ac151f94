import CompactSchema.Pattern.CharSet

set_option autoImplicit false

/-!
# Characters as bytes

The byte strings of the characters of a set, as a tree: each branch is a range of bytes, and
strings that begin with the same ranges share them.
-/

namespace CompactSchema.Pattern

structure ByteRange where
  first : UInt8
  last : UInt8
deriving Repr, DecidableEq

namespace ByteRange

/-- Where to cut the scalar values from `first` to `last` in two, if their byte strings are not
    all those of one row of ranges: the last value of the first part and the first of the second.
    Strings of different lengths are kept apart, and so are those that differ in a byte unless the
    bytes behind it take all their values. -/
def cut? (first last : Nat) : Option (Nat × Nat) :=
  if first < 0xe000 ∧ 0xd7ff < last then some (0xd7ff, 0xe000)
  else
    match [0x7f, 0x7ff, 0xffff].find? fun n => first ≤ n && n < last with
    | some n => some (n, n + 1)
    | none =>
      [64, 64 * 64, 64 * 64 * 64].findSome? fun size =>
        if last ≤ 0x7f ∨ first / size = last / size then none
        else if first % size ≠ 0 then
          let next := (first / size + 1) * size
          some (next - 1, next)
        else if last % size ≠ size - 1 then
          let start := last / size * size
          some (start - 1, start)
        else none

def rows (first last : Nat) : List (List ByteRange) :=
  match cut? first last with
  | some (stop, start) =>
    if _h : first ≤ stop ∧ stop < last ∧ first < start then
      rows first stop ++ rows start last
    else []
  | none =>
    [List.zipWith .mk (String.utf8EncodeChar (.ofNat first)) (String.utf8EncodeChar (.ofNat last))]
termination_by last - first

end ByteRange

inductive ByteTree
  | none
  | leaf (range : ByteRange) (more : ByteTree)
  /-- Behind a byte of the range follow the bytes in `below`. -/
  | branch (range : ByteRange) (below more : ByteTree)
deriving Repr

namespace ByteTree

/-- Adds a string that comes before all others. -/
def push : List ByteRange → ByteTree → ByteTree
  | [], tree => tree
  | [range], tree => leaf range tree
  | range :: row, branch first below more =>
    if range = first then branch first (push row below) more
    else branch range (push row none) (branch first below more)
  | range :: row, tree => branch range (push row none) tree

def ofSet (set : CharSet) : ByteTree :=
  (set.ranges.flatMap fun r => ByteRange.rows r.1 r.2).foldr push none

end ByteTree

end CompactSchema.Pattern
