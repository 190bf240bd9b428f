/-!
# Message digests

The digest SHA-1 of a list of bytes, from which the ids of parsed nodes are taken. The message is
padded to blocks of sixteen words; each block is stretched to eighty words and mixed into a state of
five words.
-/

namespace SourceCanvas.Digest

/-- The five words that a digest is computed in. -/
structure State where
  a : UInt32
  b : UInt32
  c : UInt32
  d : UInt32
  e : UInt32

/-- The state before the first block. -/
def State.start : State := ⟨0x67452301, 0xEFCDAB89, 0x98BADCFE, 0x10325476, 0xC3D2E1F0⟩

/-- A word turned left by less than its width. -/
def rotateLeft (x : UInt32) (count : UInt32) : UInt32 :=
  (x <<< count) ||| (x >>> (32 - count))

/-- The word with the given bytes, the most significant one first. -/
def word (bytes : List UInt8) : UInt32 :=
  bytes.foldl (fun value byte => (value <<< 8) ||| byte.toUInt32) 0

/-- The bytes of a number of bits, in eight bytes. -/
def lengthBytes (bits : Nat) : List UInt8 :=
  [56, 48, 40, 32, 24, 16, 8, 0].map fun shift => UInt8.ofNat (bits >>> shift)

/-- The message with the mark of its end, zeros, and its length in bits. -/
def pad (message : List UInt8) : List UInt8 :=
  let zeros := (119 - message.length % 64) % 64
  message ++ 0x80 :: List.replicate zeros 0 ++ lengthBytes (8 * message.length)

/-- A list cut into pieces of one size. Fuel bounds the count of pieces. -/
def pieces {α : Type} (size : Nat) : Nat → List α → List (List α)
  | 0, _ => []
  | fuel + 1, items =>
    if items.isEmpty then [] else items.take size :: pieces size fuel (items.drop size)

/-- The next words of the schedule, after the words so far in reverse order. -/
def stretch : Nat → List UInt32 → List UInt32
  | 0, reversed => reversed
  | count + 1, reversed =>
    let back (n : Nat) : UInt32 := reversed.getD (n - 1) 0
    stretch count (rotateLeft (back 3 ^^^ back 8 ^^^ back 14 ^^^ back 16) 1 :: reversed)

/-- The eighty words of a block. -/
def schedule (block : List UInt32) : List UInt32 := (stretch 64 block.reverse).reverse

/-- The mixing function and the constant of a round. -/
def roundParts (round : Nat) (s : State) : UInt32 × UInt32 :=
  if round < 20 then ((s.b &&& s.c) ||| (~~~s.b &&& s.d), 0x5A827999)
  else if round < 40 then (s.b ^^^ s.c ^^^ s.d, 0x6ED9EBA1)
  else if round < 60 then ((s.b &&& s.c) ||| (s.b &&& s.d) ||| (s.c &&& s.d), 0x8F1BBCDC)
  else (s.b ^^^ s.c ^^^ s.d, 0xCA62C1D6)

/-- One round with its word. -/
def step (s : State) (entry : UInt32 × Nat) : State :=
  let (mixed, constant) := roundParts entry.2 s
  ⟨rotateLeft s.a 5 + mixed + s.e + constant + entry.1, s.a, rotateLeft s.b 30, s.c, s.d⟩

/-- Mixes one block into the state. -/
def absorb (s : State) (block : List UInt8) : State :=
  let words := (pieces 4 16 block).map word
  let t := (schedule words).zipIdx.foldl step s
  ⟨s.a + t.a, s.b + t.b, s.c + t.c, s.d + t.d, s.e + t.e⟩

/-- The eight hexadecimal digits of a word. -/
def hex8 (x : UInt32) : List Char :=
  let digits := Nat.toDigits 16 x.toNat
  List.replicate (8 - digits.length) '0' ++ digits

/-- The digest of a message in forty hexadecimal digits. -/
def sha1 (message : List UInt8) : List Char :=
  let padded := pad message
  let s := (pieces 64 padded.length padded).foldl absorb .start
  [s.a, s.b, s.c, s.d, s.e].flatMap hex8

/-- The digest of the encoding of a text. -/
def ofString (text : String) : List Char := sha1 text.toUTF8.data.toList

end SourceCanvas.Digest
