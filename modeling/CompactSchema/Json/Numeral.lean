import CompactSchema.Json.Fault
import CompactSchema.Json.Value

set_option autoImplicit false

/-!
# Numbers in documents

A number without point and exponent is whole if 64 bits hold it, unless it is minus zero. Any
other one is a binary number. Of its digits only as many are taken as 64 bits hold; they are
multiplied or divided by a power of ten in one rounded step, or more where the exponent is
beyond the largest power.
-/

namespace CompactSchema.Json.Numeral

open Text

def wordLimit : Nat := 2 ^ 64 - 1

def powerLimit : Nat := 308

def powerOfTen (n : Nat) : Binary64 := .ofRatio false (10 ^ n) 1

/-- Appends digits to `value` as long as 64 bits hold the result; gives the digits left over. -/
def takeFitting : Nat → List Char → Nat × List Char
  | value, [] => (value, [])
  | value, c :: cs =>
    let more := 10 * value + (c.toNat - '0'.toNat)
    if more ≤ wordLimit then takeFitting more cs else (value, c :: cs)

/-- Scales a non-negative number by a power of ten. The number of rounds is bounded since a
    number that was divided three times by the largest power is zero. -/
def scale? : Nat → Binary64 → Int → Option Binary64
  | 0, x, _ => some x
  | rounds + 1, x, exponent =>
    if exponent.natAbs ≤ powerLimit then
      if 0 ≤ exponent then
        let product := x.mul (powerOfTen exponent.natAbs)
        if product.isInfinite then none else some product
      else some (x.div (powerOfTen exponent.natAbs))
    else if x.units = 0 then some x
    else if 0 ≤ exponent then none
    else scale? rounds (x.div (powerOfTen powerLimit)) (exponent + powerLimit)

def float? (negative : Bool) (value : Nat) (exponent : Int) : Option JsonNumber :=
  (scale? 4 (.ofInt value) exponent).map fun x => .float (if negative then x.neg else x)

/-- Reads digits behind `value` as long as 32 bits with a sign hold the result. Otherwise gives
    none, and what follows the first digit that was too much. -/
def fittingExponent : Nat → List Char → Option Nat × List Char
  | value, [] => (some value, [])
  | value, c :: cs =>
    if isDigit c then
      let more := 10 * value + (c.toNat - '0'.toNat)
      if more < 2 ^ 31 then fittingExponent more cs else (none, cs)
    else (some value, c :: cs)

def exponent (cs : List Char) : Except Fault (Bool × Option Nat × List Char) :=
  let (negative, cs) := match cs with
    | '+' :: cs => (false, cs)
    | '-' :: cs => (true, cs)
    | cs => (false, cs)
  match cs with
  | [] => .error (.behind .valueEnds [])
  | c :: rest =>
    if isDigit c then .ok (negative, fittingExponent 0 (c :: rest))
    else .error (.facing .invalidNumber (c :: rest))

def scaled (negative : Bool) (value : Nat) (scale : Int) (cs : List Char) :
    Except Fault (JsonNumber × List Char) := do
  let outOfRange := fun rest => Fault.behind .numberOutOfRange rest
  match cs with
  | c :: cs' =>
    if c = 'e' ∨ c = 'E' then
      let (down, size, rest) ← exponent cs'
      match size with
      | some size =>
        match float? negative value (if down then scale - size else scale + size) with
        | some x => .ok (x, rest)
        | none => .error (outOfRange rest)
      | none =>
        if value ≠ 0 ∧ ¬ down then .error (outOfRange rest)
        else .ok (.float (.ofMagnitude negative 0), rest.dropWhile isDigit)
    else
      match float? negative value scale with
      | some x => .ok (x, cs)
      | none => .error (outOfRange cs)
  | [] =>
    match float? negative value scale with
    | some x => .ok (x, cs)
    | none => .error (outOfRange cs)

def whole (negative : Bool) (value : Nat) : JsonNumber :=
  if negative then
    if value = 0 ∨ 2 ^ 63 < value then .float (Binary64.ofInt value).neg
    else .whole (-value)
  else .whole value

/-- A number whose minus sign, if any, was read. -/
def read (negative : Bool) (cs : List Char) : Except Fault (JsonNumber × List Char) :=
  let digits := cs.takeWhile isDigit
  let rest := cs.dropWhile isDigit
  match digits, rest with
  | [], [] => .error (.behind .valueEnds [])
  | [], rest => .error (.facing .invalidNumber rest)
  | '0' :: second :: more, rest => .error (.facing .invalidNumber (second :: more ++ rest))
  | digits, rest =>
    let (value, extra) := takeFitting 0 digits
    match rest with
    | '.' :: cs =>
      let places := cs.takeWhile isDigit
      let behind := cs.dropWhile isDigit
      match places, behind with
      | [], [] => .error (.facing .valueEnds [])
      | [], behind => .error (.facing .invalidNumber behind)
      | places, behind =>
        let (value, unused) := takeFitting value places
        scaled negative value (extra.length - ((places.length : Int) - unused.length)) behind
    | c :: _ =>
      if c = 'e' ∨ c = 'E' ∨ !extra.isEmpty then scaled negative value extra.length rest
      else .ok (whole negative value, rest)
    | [] =>
      if extra.isEmpty then .ok (whole negative value, rest)
      else scaled negative value extra.length rest

end CompactSchema.Json.Numeral
