import CompactSchema.Unicode.Unprinted

set_option autoImplicit false

/-!
# Hexadecimal and quoted text

Bytes and characters as hexadecimal digits, with letters in lower case, and text between double
quotes. Double quotes, backslashes and the characters that would not be seen are written as escapes
there, so that different texts look different.
-/

namespace CompactSchema.Text

def hexDigit (n : Nat) : Char :=
  if n < 10 then Char.ofNat ('0'.toNat + n) else Char.ofNat ('a'.toNat + (n - 10))

/-- Exactly `count` digits for a number below `16 ^ count`. -/
def hexPadded : Nat → Nat → List Char
  | 0, _ => []
  | count + 1, n => hexPadded count (n / 16) ++ [hexDigit (n % 16)]

/-- As few digits as show a number below `16 ^ count`, one at least. -/
def hexDigits : Nat → Nat → List Char
  | 0, _ => []
  | count + 1, n =>
    if n < 16 then [hexDigit n] else hexDigits count (n / 16) ++ [hexDigit (n % 16)]

def hexBytes (bytes : List UInt8) : List Char := bytes.flatMap fun b => hexPadded 2 b.toNat

def escaped (c : Char) : List Char :=
  if c = '\x00' then ['\\', '0']
  else if c = '\t' then ['\\', 't']
  else if c = '\r' then ['\\', 'r']
  else if c = '\n' then ['\\', 'n']
  else if c = '"' || c = '\\' then ['\\', c]
  else if Unicode.isUnprinted c then
    ['\\', 'u', '\x7b'] ++ hexDigits 6 c.toNat ++ ['\x7d']
  else [c]

def quoted (name : String) : String :=
  .ofList ('"' :: name.toList.flatMap escaped ++ ['"'])

end CompactSchema.Text
