import CompactSchema.Number.Binary64

set_option autoImplicit false

/-!
# Decimal text of binary numbers

`Binary64.shortest` gives the fewest decimal digits that are read back as the number, and
among those the nearest. Two layouts write them: bounds never use an exponent, serialized
numbers use one outside of a middle range.
-/

namespace CompactSchema

structure Decimal where
  coefficient : Nat
  exponent : Int
deriving Repr, DecidableEq

namespace Decimal

def digits (d : Decimal) : List Char := (toString d.coefficient).toList

def plain (d : Decimal) : List Char :=
  if 0 ≤ d.exponent then d.digits ++ List.replicate d.exponent.toNat '0'
  else
    let places := (-d.exponent).toNat
    let padded := List.replicate (places + 1 - d.digits.length) '0' ++ d.digits
    padded.take (padded.length - places) ++ '.' :: padded.drop (padded.length - places)

def scientific (d : Decimal) : List Char :=
  let exponent := d.exponent + (d.digits.length - 1 : Nat)
  let sign := if exponent < 0 then '-' else '+'
  let mantissa := match d.digits with
    | first :: second :: rest => first :: '.' :: second :: rest
    | short => short
  mantissa ++ 'e' :: sign :: (toString exponent.natAbs).toList

end Decimal

namespace Binary64

inductive Tie
  | toEven
  | up
deriving Repr, DecidableEq

/-- Four times the distance from a finite number to the midpoint between it and its neighbour
    below, in units. -/
def gapBelow (x : Binary64) : Nat :=
  if x.magnitude % 2 ^ 52 = 0 ∧ x.step ≠ 0 then 2 ^ x.step else 2 * 2 ^ x.step

/-- Whether `p / scale` quarters of a unit are read back as `x`. A point between `x` and its
    neighbour is when it is nearer to `x`; the middle itself when the bits of `x` are even. -/
def hits (x : Binary64) (scale p : Nat) : Bool :=
  let top := (4 * x.units + 2 * 2 ^ x.step) * scale
  let bottom := (4 * x.units - x.gapBelow) * scale
  if x.magnitude % 2 = 0 then decide (bottom ≤ p ∧ p ≤ top)
  else decide (bottom < p ∧ p < top)

def nearestMultiple (tie : Tie) (value grid : Nat) : Nat :=
  let below := value / grid
  match compare (2 * (value % grid)) grid with
  | .lt => below
  | .gt => below + 1
  | .eq => if tie = .up then below + 1 else below + below % 2

def onGrid? (tie : Tie) (x : Binary64) (exponent : Int) : Option Decimal :=
  let scale := 10 ^ (-exponent).toNat
  let grid := 10 ^ exponent.toNat * (4 * one)
  let value := 4 * x.units * scale
  let below := value / grid
  match x.hits scale (below * grid), x.hits scale ((below + 1) * grid) with
  | false, false => none
  | true, false => some ⟨below, exponent⟩
  | false, true => some ⟨below + 1, exponent⟩
  | true, true => some ⟨nearestMultiple tie value grid, exponent⟩

def coarsest (tie : Tie) (x : Binary64) : Nat → Int → Decimal
  | 0, _ => ⟨x.units, 0⟩
  | n + 1, exponent =>
    match x.onGrid? tie exponent with
    | some d => d
    | none => coarsest tie x n (exponent - 1)

/-- The fewest digits that are read back as the finite number `x`, without its sign. The
    search starts above the first digit and needs at most seventeen digits. -/
def shortest (tie : Tie) (x : Binary64) : Decimal :=
  if x.units = 0 then ⟨0, 0⟩
  else
    let binary := (x.units.log2 : Int) - 1074
    coarsest tie x 30 (((binary + 1) * 30103).fdiv 100000 + 1)

def sign (x : Binary64) : List Char := if x.isNegative then ['-'] else []

/-- Text of a bound: no exponent, all digits of a whole number and a zero behind its point. -/
def boundText (x : Binary64) : String :=
  if x.isNaN then "NaN"
  else String.ofList <| x.sign ++
    if x.isInfinite then "inf".toList
    else if x.isWhole then (toString (x.units / one)).toList ++ ['.', '0']
    else (x.shortest .up).plain

/-- Text in serialized form: an exponent unless the first digit stands between the fifth place
    behind the point and the sixteenth before it, else at least one place. What is not finite
    has no such text. -/
def serializedText? (x : Binary64) : Option String :=
  if !x.isFinite then none
  else some <| String.ofList <| x.sign ++
    let d := x.shortest .toEven
    let first := d.exponent + (d.digits.length - 1 : Nat)
    if first < -5 ∨ 15 < first then d.scientific
    else if 0 ≤ d.exponent then d.plain ++ ['.', '0']
    else d.plain

end Binary64

end CompactSchema
