/-!
# Digests

Numbers of a fixed width are written as bytes, the lowest byte first. An archive has a CRC-32 checksum for each entry,
the remainder of the contents as a polynomial over two elements, lowest bit first, and stores a costume under its MD5
digest. For that digest a message is padded to blocks of sixteen words, and each block mixes the four words of the state
in 64 steps.
-/

namespace ScratchScript.Digest

/-- The lowest `width` bytes of a number, the lowest first. -/
def littleEndian : (width : Nat) → Nat → List UInt8
  | 0, _ => []
  | width + 1, n => UInt8.ofNat n :: littleEndian width (n / 256)

/-- The number that the bytes stand for, the lowest first. -/
def ofLittleEndian (bytes : List UInt8) : Nat :=
  bytes.foldr (fun byte n => byte.toNat + 256 * n) 0

/-! ## CRC-32 -/

/-- Divides by one bit. -/
def crcBit (crc : UInt32) : UInt32 :=
  if crc &&& 1 == 1 then (crc >>> 1) ^^^ 0xEDB88320 else crc >>> 1

def crcByte (crc : UInt32) (byte : UInt8) : UInt32 :=
  Nat.repeat crcBit 8 (crc ^^^ byte.toUInt32)

def crc32 (bytes : List UInt8) : UInt32 :=
  bytes.foldl crcByte 0xFFFFFFFF ^^^ 0xFFFFFFFF

/-! ## MD5 -/

namespace Md5

structure State where
  a : UInt32
  b : UInt32
  c : UInt32
  d : UInt32

def State.initial : State := ⟨0x67452301, 0xEFCDAB89, 0x98BADCFE, 0x10325476⟩

/-- The constants of the 64 steps: the fractional parts of the absolute sines of 1, 2, … -/
def sines : Array UInt32 := #[
  0xd76aa478, 0xe8c7b756, 0x242070db, 0xc1bdceee, 0xf57c0faf, 0x4787c62a, 0xa8304613, 0xfd469501,
  0x698098d8, 0x8b44f7af, 0xffff5bb1, 0x895cd7be, 0x6b901122, 0xfd987193, 0xa679438e, 0x49b40821,
  0xf61e2562, 0xc040b340, 0x265e5a51, 0xe9b6c7aa, 0xd62f105d, 0x02441453, 0xd8a1e681, 0xe7d3fbc8,
  0x21e1cde6, 0xc33707d6, 0xf4d50d87, 0x455a14ed, 0xa9e3e905, 0xfcefa3f8, 0x676f02d9, 0x8d2a4c8a,
  0xfffa3942, 0x8771f681, 0x6d9d6122, 0xfde5380c, 0xa4beea44, 0x4bdecfa9, 0xf6bb4b60, 0xbebfbc70,
  0x289b7ec6, 0xeaa127fa, 0xd4ef3085, 0x04881d05, 0xd9d4d039, 0xe6db99e5, 0x1fa27cf8, 0xc4ac5665,
  0xf4292244, 0x432aff97, 0xab9423a7, 0xfc93a039, 0x655b59c3, 0x8f0ccc92, 0xffeff47d, 0x85845dd1,
  0x6fa87e4f, 0xfe2ce6e0, 0xa3014314, 0x4e0811a1, 0xf7537e82, 0xbd3af235, 0x2ad7d2bb, 0xeb86d391]

/-- How far the steps rotate, four amounts a round. -/
def rotations : Array UInt32 := #[7, 12, 17, 22, 5, 9, 14, 20, 4, 11, 16, 23, 6, 10, 15, 21]

def rotateLeft (x n : UInt32) : UInt32 :=
  (x <<< n) ||| (x >>> (32 - n))

/-- What step `i` mixes in, and the place of the word that it takes. -/
def mixture (state : State) (i : Nat) : UInt32 × Nat :=
  let ⟨_, b, c, d⟩ := state
  if i < 16 then ((b &&& c) ||| (~~~b &&& d), i)
  else if i < 32 then ((d &&& b) ||| (~~~d &&& c), (5 * i + 1) % 16)
  else if i < 48 then (b ^^^ c ^^^ d, (3 * i + 5) % 16)
  else (c ^^^ (b ||| ~~~d), 7 * i % 16)

def step (block : Array UInt32) (state : State) (i : Nat) : State :=
  let (mixed, place) := mixture state i
  let sum := state.a + mixed + sines.getD i 0 + block.getD place 0
  ⟨state.d, state.b + rotateLeft sum (rotations.getD (4 * (i / 16) + i % 4) 0), state.b, state.c⟩

def absorb (state : State) (block : Array UInt32) : State :=
  let mixed := (List.range 64).foldl (step block) state
  ⟨state.a + mixed.a, state.b + mixed.b, state.c + mixed.c, state.d + mixed.d⟩

/-- The message with a one bit, zeros up to a whole number of blocks, and its length in bits. -/
def pad (message : List UInt8) : List UInt8 :=
  message ++ 0x80 :: List.replicate ((119 - message.length % 64) % 64) 0 ++ littleEndian 8 (8 * message.length)

/-- Word `i` of the bytes. -/
def wordAt (bytes : Array UInt8) (i : Nat) : UInt32 :=
  UInt32.ofNat (ofLittleEndian ((List.range 4).map fun k => bytes.getD (4 * i + k) 0))

def blocks (bytes : Array UInt8) : List (Array UInt32) :=
  (List.range (bytes.size / 64)).map fun block => Array.ofFn fun (i : Fin 16) => wordAt bytes (16 * block + i)

def digest (message : List UInt8) : List UInt8 :=
  let last := (blocks (pad message).toArray).foldl absorb State.initial
  [last.a, last.b, last.c, last.d].flatMap fun word => littleEndian 4 word.toNat

def hexByte (byte : UInt8) : List Char :=
  [Nat.digitChar (byte.toNat / 16), Nat.digitChar (byte.toNat % 16)]

def hex (message : List UInt8) : String :=
  String.ofList ((digest message).flatMap hexByte)

end Md5

end ScratchScript.Digest
