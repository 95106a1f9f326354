/-!
# SHA-256

The 256-bit digest of a list of bytes: the bytes are padded to whole blocks of 64, every block is
expanded to 64 words, and the chaining value is mixed with each of them in turn.
-/

namespace CestWriter.Sha256

/-- The chaining value: eight words. -/
structure Chain where
  a : UInt32
  b : UInt32
  c : UInt32
  d : UInt32
  e : UInt32
  f : UInt32
  g : UInt32
  h : UInt32
deriving Repr, DecidableEq

/-- The chaining value before the first block. -/
def Chain.initial : Chain :=
  ⟨0x6a09e667, 0xbb67ae85, 0x3c6ef372, 0xa54ff53a, 0x510e527f, 0x9b05688c, 0x1f83d9ab, 0x5be0cd19⟩

/-- One constant for each of the 64 rounds. -/
def roundConstants : Array UInt32 := #[
  0x428a2f98, 0x71374491, 0xb5c0fbcf, 0xe9b5dba5, 0x3956c25b, 0x59f111f1, 0x923f82a4, 0xab1c5ed5,
  0xd807aa98, 0x12835b01, 0x243185be, 0x550c7dc3, 0x72be5d74, 0x80deb1fe, 0x9bdc06a7, 0xc19bf174,
  0xe49b69c1, 0xefbe4786, 0x0fc19dc6, 0x240ca1cc, 0x2de92c6f, 0x4a7484aa, 0x5cb0a9dc, 0x76f988da,
  0x983e5152, 0xa831c66d, 0xb00327c8, 0xbf597fc7, 0xc6e00bf3, 0xd5a79147, 0x06ca6351, 0x14292967,
  0x27b70a85, 0x2e1b2138, 0x4d2c6dfc, 0x53380d13, 0x650a7354, 0x766a0abb, 0x81c2c92e, 0x92722c85,
  0xa2bfe8a1, 0xa81a664b, 0xc24b8b70, 0xc76c51a3, 0xd192e819, 0xd6990624, 0xf40e3585, 0x106aa070,
  0x19a4c116, 0x1e376c08, 0x2748774c, 0x34b0bcb5, 0x391c0cb3, 0x4ed8aa4a, 0x5b9cca4f, 0x682e6ff3,
  0x748f82ee, 0x78a5636f, 0x84c87814, 0x8cc70208, 0x90befffa, 0xa4506ceb, 0xbef9a3f7, 0xc67178f2]

/-- Rotation to the right. -/
def rotate (x n : UInt32) : UInt32 :=
  (x >>> n) ||| (x <<< (32 - n))

/-- The number of a list of digits in base 256, the first digit the most significant. -/
def wordOfBytes (bytes : List UInt8) : UInt32 :=
  bytes.foldl (fun n b => (n <<< 8) ||| b.toUInt32) 0

/-- The last `count` digits of a number in base 256. -/
def bytesOfNat (count n : Nat) : List UInt8 :=
  (List.range count).reverse.map fun i => UInt8.ofNat (n / Nat.pow 256 i % 256)

/-- The bytes, a one bit, zeros up to eight bytes before a block's end, and the length in bits. -/
def pad (bytes : List UInt8) : List UInt8 :=
  let zeros := (119 - bytes.length % 64) % 64
  bytes ++ 0x80 :: List.replicate zeros 0 ++ bytesOfNat 8 (8 * bytes.length)

/-- The big-endian words of a list of bytes; bytes that fill no word are dropped. -/
def words : List UInt8 → List UInt32
  | a :: b :: c :: d :: rest => wordOfBytes [a, b, c, d] :: words rest
  | _ => []

/-- The 64 words of a block's expansion, from its own sixteen. -/
def schedule (block : List UInt32) : Array UInt32 :=
  (List.range 48).foldl (fun w i =>
    let x := w.getD (i + 1) 0
    let y := w.getD (i + 14) 0
    let small := rotate x 7 ^^^ rotate x 18 ^^^ (x >>> 3)
    let large := rotate y 17 ^^^ rotate y 19 ^^^ (y >>> 10)
    w.push (w.getD i 0 + small + w.getD (i + 9) 0 + large)) block.toArray

/-- One round, with the sum of the round's word and constant. -/
def Chain.round (s : Chain) (word : UInt32) : Chain :=
  let large := rotate s.e 6 ^^^ rotate s.e 11 ^^^ rotate s.e 25
  let choice := (s.e &&& s.f) ^^^ (~~~s.e &&& s.g)
  let first := s.h + large + choice + word
  let small := rotate s.a 2 ^^^ rotate s.a 13 ^^^ rotate s.a 22
  let majority := (s.a &&& s.b) ^^^ (s.a &&& s.c) ^^^ (s.b &&& s.c)
  ⟨first + (small + majority), s.a, s.b, s.c, s.d + first, s.e, s.f, s.g⟩

/-- Word by word sum of two chaining values. -/
def Chain.add (s t : Chain) : Chain :=
  ⟨s.a + t.a, s.b + t.b, s.c + t.c, s.d + t.d, s.e + t.e, s.f + t.f, s.g + t.g, s.h + t.h⟩

/-- Mixes one block of sixteen words into the chaining value. -/
def Chain.absorb (s : Chain) (block : List UInt32) : Chain :=
  let w := schedule block
  s.add <| (List.range 64).foldl
    (fun t i => t.round (roundConstants.getD i 0 + w.getD i 0)) s

/-- Mixes `count` blocks into the chaining value. -/
def Chain.absorbAll : Nat → Chain → List UInt32 → Chain
  | 0, s, _ => s
  | count + 1, s, ws => absorbAll count (s.absorb (ws.take 16)) (ws.drop 16)

/-- The words of a chaining value. -/
def Chain.words (s : Chain) : List UInt32 :=
  [s.a, s.b, s.c, s.d, s.e, s.f, s.g, s.h]

/-- The digest of a list of bytes. -/
def digest (bytes : List UInt8) : List UInt8 :=
  let ws := words (pad bytes)
  (Chain.initial.absorbAll (ws.length / 16) ws).words.flatMap fun w => bytesOfNat 4 w.toNat

/-- Two lower-case hexadecimal digits for every byte. -/
def hex (bytes : List UInt8) : String :=
  String.ofList <| bytes.flatMap fun b =>
    [Nat.digitChar (b.toNat / 16), Nat.digitChar (b.toNat % 16)]

end CestWriter.Sha256
