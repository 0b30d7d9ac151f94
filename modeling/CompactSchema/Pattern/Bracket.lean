import CompactSchema.Pattern.Escape

set_option autoImplicit false

/-!
# Bracketed classes

A class lists characters, ranges, escapes, named classes and nested classes. Between such lists
stand the operators `&&`, `--` and `~~`, applied from left to right. A class is closed under
change of case, where that is asked for, before it is negated.
-/

namespace CompactSchema.Pattern

structure Part where
  set : CharSet
  height : Nat
deriving Repr

namespace Bracket

inductive Operator
  | inter
  | diff
  | symmDiff
deriving Repr, DecidableEq

def Operator.apply : Operator → CharSet → CharSet → CharSet
  | inter => CharSet.inter
  | diff => CharSet.diff
  | symmDiff => CharSet.symmDiff

def fold (s : Settings) (set : CharSet) : CharSet :=
  if s.ignoreCase then (if s.wide then set.foldCase else set.foldAscii) else set

/-- A single byte beyond the seven-bit ones is no character, so a class of bytes is neither
    negated nor holds other characters. -/
def negate? (s : Settings) (negated : Bool) (set : CharSet) : Option CharSet :=
  if !negated then some set else if s.wide then some set.compl else none

def member? (s : Settings) (c : Char) : Option Char :=
  if s.wide || c ≤ '\x7f' then some c else none

/-- The list read so far, last item first, as one part. A list of one item adds no height, yet its
    set is built like every other, so that the ranges of a negated class are joined again. -/
def listed (items : List Part) : Part :=
  let set := CharSet.unions (items.map (·.set))
  match items with
  | [] => ⟨set, 0⟩
  | [item] => ⟨set, item.height⟩
  | items => ⟨set, (items.map (·.height)).foldl max 0 + 1⟩

def settle (s : Settings) (waiting : Option (Operator × Part)) (right : Part) : Part :=
  match waiting with
  | none => right
  | some (operator, left) =>
    ⟨operator.apply (fold s left.set) (fold s right.set), max left.height right.height + 1⟩

def named? (s : Settings) (cs : List Char) : Option (Option CharSet × List Char) :=
  match cs with
  | ':' :: cs =>
    let (negated, cs) := match cs with
      | '^' :: cs => (true, cs)
      | cs => (false, cs)
    match AsciiClass.ofName? (cs.takeWhile (· ≠ ':')), cs.dropWhile (· ≠ ':') with
    | some found, ':' :: ']' :: rest =>
      some (negate? s negated (fold s (.ofAscii found)), rest)
    | _, _ => none
  | _ => none

def atom? (s : Settings) : List Char → Option (Atom × List Char)
  | [] => none
  | '\\' :: cs => Atom.escape? s cs
  | c :: cs => some (.literal c false, cs)

def literal? : Atom → Option Char
  | .literal c _ => some c
  | _ => none

/-- A single character, a range or a class of characters. A hyphen makes a range unless it is the
    last character or one of two. -/
def item? (s : Settings) (cs : List Char) : Option (CharSet × List Char) := do
  let (first, cs) ← atom? s cs
  match s.skip cs with
  | [] => none
  | c :: rest =>
    let next := s.second? (c :: rest)
    if c ≠ '-' ∨ next = some ']' ∨ next = some '-' then
      match first with
      | .literal c _ => some (.singleton (← member? s c), s.skip cs)
      | .set set => some (set, s.skip cs)
      | .look _ => none
    else
      let (last, cs) ← atom? s (s.skip rest)
      let first ← member? s (← literal? first)
      let last ← member? s (← literal? last)
      if first ≤ last then some (.range first last, cs) else none

/-- The hyphens at the start of a class, and a closing bracket right there, stand for
    themselves. -/
def leading (s : Settings) : Nat → List Part → List Char → Option (List Part × List Char)
  | 0, _, _ => none
  | fuel + 1, items, cs =>
    match s.skip cs with
    | [] => none
    | c :: cs =>
      if c = '-' then leading s fuel (⟨.singleton '-', 0⟩ :: items) cs
      else if c = ']' ∧ items.isEmpty then
        match s.skip cs with
        | [] => none
        | cs => some ([⟨.singleton ']', 0⟩], cs)
      else some (items, c :: cs)

def opening? (s : Settings) (cs : List Char) : Option (Bool × List Part × List Char) :=
  match s.skip cs with
  | '^' :: cs => (leading s (cs.length + 1) [] cs).map (true, ·)
  | cs => (leading s (cs.length + 1) [] cs).map (false, ·)

def rest? (s : Settings) : Nat → Bool → List Part → Option (Operator × Part) → List Char →
    Option (Part × List Char)
  | 0, _, _, _, _ => none
  | fuel + 1, negated, items, waiting, cs =>
    let next := fun item cs => rest? s fuel negated (item :: items) waiting cs
    let operate := fun operator cs =>
      rest? s fuel negated [] (some (operator, settle s waiting (listed items))) cs
    match s.skip cs with
    | [] => none
    | '[' :: cs =>
      match named? s cs with
      | some (found, cs) => do next ⟨← found, 0⟩ cs
      | none => do
        let (negated, items, cs) ← opening? s cs
        let (item, cs) ← rest? s fuel negated items none cs
        next item cs
    | ']' :: cs => do
      let whole := settle s waiting (listed items)
      some (⟨← negate? s negated (fold s whole.set), whole.height + 1⟩, cs)
    | '&' :: '&' :: cs => operate .inter cs
    | '-' :: '-' :: cs => operate .diff cs
    | '~' :: '~' :: cs => operate .symmDiff cs
    | cs => do
      let (set, cs) ← item? s cs
      next ⟨set, 0⟩ cs

def read? (s : Settings) (cs : List Char) : Option (Part × List Char) := do
  let (negated, items, rest) ← opening? s cs
  rest? s (cs.length + 1) negated items none rest

end Bracket

end CompactSchema.Pattern
