import CompactSchema.Text.Quoted

set_option autoImplicit false

/-!
# SHA-256

The digest of a list of bytes. The message is padded to whole blocks of sixteen words, and each
block is mixed into a chain of eight words.
-/

namespace CompactSchema.Digest

/-- The first fractional bits of the cube roots of the first sixty-four primes. -/
def roundConstants : List UInt32 := [
  0x428a2f98, 0x71374491, 0xb5c0fbcf, 0xe9b5dba5, 0x3956c25b, 0x59f111f1,
  0x923f82a4, 0xab1c5ed5, 0xd807aa98, 0x12835b01, 0x243185be, 0x550c7dc3,
  0x72be5d74, 0x80deb1fe, 0x9bdc06a7, 0xc19bf174, 0xe49b69c1, 0xefbe4786,
  0x0fc19dc6, 0x240ca1cc, 0x2de92c6f, 0x4a7484aa, 0x5cb0a9dc, 0x76f988da,
  0x983e5152, 0xa831c66d, 0xb00327c8, 0xbf597fc7, 0xc6e00bf3, 0xd5a79147,
  0x06ca6351, 0x14292967, 0x27b70a85, 0x2e1b2138, 0x4d2c6dfc, 0x53380d13,
  0x650a7354, 0x766a0abb, 0x81c2c92e, 0x92722c85, 0xa2bfe8a1, 0xa81a664b,
  0xc24b8b70, 0xc76c51a3, 0xd192e819, 0xd6990624, 0xf40e3585, 0x106aa070,
  0x19a4c116, 0x1e376c08, 0x2748774c, 0x34b0bcb5, 0x391c0cb3, 0x4ed8aa4a,
  0x5b9cca4f, 0x682e6ff3, 0x748f82ee, 0x78a5636f, 0x84c87814, 0x8cc70208,
  0x90befffa, 0xa4506ceb, 0xbef9a3f7, 0xc67178f2]

structure Chain where
  a : UInt32
  b : UInt32
  c : UInt32
  d : UInt32
  e : UInt32
  f : UInt32
  g : UInt32
  h : UInt32
deriving Repr, DecidableEq

/-- The first fractional bits of the square roots of the first eight primes. -/
def Chain.start : Chain :=
  ⟨0x6a09e667, 0xbb67ae85, 0x3c6ef372, 0xa54ff53a,
   0x510e527f, 0x9b05688c, 0x1f83d9ab, 0x5be0cd19⟩

def rotateRight (x : UInt32) (n : UInt32) : UInt32 := (x >>> n) ||| (x <<< (32 - n))

def choose (x y z : UInt32) : UInt32 := (x &&& y) ^^^ (~~~x &&& z)

def majority (x y z : UInt32) : UInt32 := (x &&& y) ^^^ (x &&& z) ^^^ (y &&& z)

def spread (x i j k : UInt32) : UInt32 := rotateRight x i ^^^ rotateRight x j ^^^ rotateRight x k

def stir (x i j k : UInt32) : UInt32 := rotateRight x i ^^^ rotateRight x j ^^^ (x >>> k)

def Chain.round (s : Chain) (constant word : UInt32) : Chain :=
  let first := s.h + spread s.e 6 11 25 + choose s.e s.f s.g + constant + word
  let second := spread s.a 2 13 22 + majority s.a s.b s.c
  ⟨first + second, s.a, s.b, s.c, s.d + first, s.e, s.f, s.g⟩

def Chain.add (s t : Chain) : Chain :=
  ⟨s.a + t.a, s.b + t.b, s.c + t.c, s.d + t.d, s.e + t.e, s.f + t.f, s.g + t.g, s.h + t.h⟩

/-- Lengthens a schedule, newest word first, by `n` words. -/
def lengthen : Nat → List UInt32 → List UInt32
  | 0, ws => ws
  | n + 1, ws =>
    let near := stir (ws.getD 1 0) 17 19 10 + ws.getD 6 0
    let far := stir (ws.getD 14 0) 7 18 3 + ws.getD 15 0
    lengthen n ((near + far) :: ws)

def schedule (block : List UInt32) : List UInt32 := (lengthen 48 block.reverse).reverse

def Chain.mix (s : Chain) (block : List UInt32) : Chain :=
  s.add ((roundConstants.zip (schedule block)).foldl (fun t (k, w) => t.round k w) s)

def bigEndian : Nat → Nat → List UInt8
  | 0, _ => []
  | count + 1, n => (n / 256 ^ count).toUInt8 :: bigEndian count n

/-- The message, a one bit, as few zero bits as fill up the last block, and the length in bits. -/
def pad (message : List UInt8) : List UInt8 :=
  message ++ [0x80] ++ List.replicate ((119 - message.length % 64) % 64) 0 ++
    bigEndian 8 (8 * message.length)

def words : List UInt8 → List UInt32
  | a :: b :: c :: d :: rest =>
    (a.toUInt32 <<< 24 ||| b.toUInt32 <<< 16 ||| c.toUInt32 <<< 8 ||| d.toUInt32) :: words rest
  | _ => []

def Chain.mixBlocks : Nat → Chain → List UInt32 → Chain
  | 0, s, _ => s
  | count + 1, s, ws => Chain.mixBlocks count (s.mix (ws.take 16)) (ws.drop 16)

def Chain.bytes (s : Chain) : List UInt8 :=
  [s.a, s.b, s.c, s.d, s.e, s.f, s.g, s.h].flatMap fun w => bigEndian 4 w.toNat

def sha256 (message : List UInt8) : List UInt8 :=
  let ws := words (pad message)
  (Chain.mixBlocks (ws.length / 16) .start ws).bytes

def ofText (text : String) : String :=
  .ofList (Text.hexBytes (sha256 text.toUTF8.data.toList))

end CompactSchema.Digest
