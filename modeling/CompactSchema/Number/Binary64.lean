set_option autoImplicit false

/-!
# Binary floating point numbers of 64 bits

A number is its bit pattern. A finite one is a whole number of units of `2 ^ -1074`,
so that rounding, multiplication and division are exact arithmetic on natural numbers
followed by one rounding to the nearest number, a tie going to the even one.
-/

-- Where Mathlib is in scope too, powers and sums are still those of Lean's own library.
attribute [instance (high)] instPowNat Zero.ofOfNat0

attribute [default_instance high + 1] instPowNat

namespace CompactSchema

structure Binary64 where
  bits : UInt64
deriving Repr, DecidableEq

namespace Binary64

/-- The bits below the sign. They grow with the absolute value. -/
def magnitude (x : Binary64) : Nat := x.bits.toNat % 2 ^ 63

def isNegative (x : Binary64) : Bool := 2 ^ 63 ≤ x.bits.toNat

/-- Magnitude of infinity. All larger ones are not numbers. -/
def infinite : Nat := 0x7ff * 2 ^ 52

def isNaN (x : Binary64) : Bool := infinite < x.magnitude

def isInfinite (x : Binary64) : Bool := x.magnitude = infinite

def isFinite (x : Binary64) : Bool := x.magnitude < infinite

def ofMagnitude (negative : Bool) (magnitude : Nat) : Binary64 :=
  ⟨UInt64.ofNat ((if negative then 2 ^ 63 else 0) + magnitude)⟩

def key (x : Binary64) : Int :=
  if x.isNegative then -(x.magnitude : Int) else x.magnitude

def compare? (x y : Binary64) : Option Ordering :=
  if x.isNaN || y.isNaN then none else some (compare x.key y.key)

def equal (x y : Binary64) : Bool := x.compare? y = some .eq

/-- Exponent of two of the distance to the next larger magnitude, counted in units. -/
def step (x : Binary64) : Nat := x.magnitude / 2 ^ 52 - 1

def units (x : Binary64) : Nat :=
  let fraction := x.magnitude % 2 ^ 52
  if x.magnitude < 2 ^ 52 then fraction else (2 ^ 52 + fraction) * 2 ^ x.step

def one : Nat := 2 ^ 1074

def roundQuotient (n d : Nat) : Nat :=
  let q := n / d
  let r := n % d
  if 2 * r < d then q else if d < 2 * r then q + 1 else q + q % 2

def ofRatio (negative : Bool) (n d : Nat) : Binary64 :=
  let shift := (n * one / d).log2 - 52
  let magnitude := shift * 2 ^ 52 + roundQuotient (n * one) (d * 2 ^ shift)
  ofMagnitude negative (min magnitude infinite)

def ofInt (i : Int) : Binary64 := ofRatio (i < 0) i.natAbs 1

def mul (x y : Binary64) : Binary64 :=
  ofRatio (x.isNegative != y.isNegative) (x.units * y.units) (one * one)

def div (x y : Binary64) : Binary64 :=
  ofRatio (x.isNegative != y.isNegative) x.units y.units

def neg (x : Binary64) : Binary64 := ofMagnitude (!x.isNegative) x.magnitude

/-- The number nearest to `coefficient * 10 ^ exponent`. The digits of the coefficient bound
    its size, so an exponent far out of reach is answered without the power. -/
def ofDecimal (negative : Bool) (coefficient : Nat) (exponent : Int) : Binary64 :=
  if coefficient = 0 then ofMagnitude negative 0
  else if 400 < exponent then ofMagnitude negative infinite
  else if exponent < -400 - (coefficient.log2 : Int) then ofMagnitude negative 0
  else ofRatio negative (coefficient * 10 ^ exponent.toNat) (10 ^ (-exponent).toNat)

def isWhole (x : Binary64) : Bool := x.isFinite && x.units % one = 0

end Binary64

end CompactSchema
