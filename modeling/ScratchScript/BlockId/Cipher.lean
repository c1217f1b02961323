/-!
# The random stream

Random words come from the ChaCha stream cipher with twelve rounds, whose key is expanded from a 64-bit seed. Equal
seeds give equal streams.
-/

namespace ScratchScript.BlockId

abbrev Key := Vector UInt32 8

/-- The sixteen words that the cipher mixes. -/
abbrev CipherState := Vector UInt32 16

/-- Moves the bits of a word up, those at the top around to the bottom. -/
def rotateLeft32 (x n : UInt32) : UInt32 :=
  (x <<< n) ||| (x >>> (32 - n))

/-! ## Keys -/

/-- The next state of the generator that expands seeds. -/
def expand (state : UInt64) : UInt64 :=
  state * 6364136223846793005 + 11634580027462260723

/-- The word that the generator gives in a state. -/
def expandedWord (state : UInt64) : UInt32 :=
  let x := (((state >>> 18) ^^^ state) >>> 27).toUInt32
  let n := (state >>> 59).toUInt32
  (x >>> n) ||| (x <<< ((32 - n) % 32))

def Key.ofSeed (seed : UInt64) : Key :=
  Vector.ofFn fun i => expandedWord (Nat.repeat expand (i.val + 1) seed)

/-! ## Blocks -/

/-- Mixes four of the words. -/
def quarterRound (state : CipherState) (ia ib ic id : Fin 16) : CipherState :=
  let a := state[ia] + state[ib]
  let d := rotateLeft32 (state[id] ^^^ a) 16
  let c := state[ic] + d
  let b := rotateLeft32 (state[ib] ^^^ c) 12
  let a := a + b
  let d := rotateLeft32 (d ^^^ a) 8
  let c := c + d
  let b := rotateLeft32 (b ^^^ c) 7
  (((state.set ia a).set ib b).set ic c).set id d

/-- The words that the quarters of a double round mix: columns, then diagonals. -/
def quarters : List (Fin 16 × Fin 16 × Fin 16 × Fin 16) :=
  [(0, 4, 8, 12), (1, 5, 9, 13), (2, 6, 10, 14), (3, 7, 11, 15),
    (0, 5, 10, 15), (1, 6, 11, 12), (2, 7, 8, 13), (3, 4, 9, 14)]

def doubleRound (state : CipherState) : CipherState :=
  quarters.foldl (fun state (a, b, c, d) => quarterRound state a b c d) state

/-- The words to mix for the block of a number. -/
def seedState (key : Key) (block : UInt64) : CipherState :=
  #v[0x61707865, 0x3320646e, 0x79622d32, 0x6b206574,
    key[0], key[1], key[2], key[3], key[4], key[5], key[6], key[7],
    block.toUInt32, (block >>> 32).toUInt32, 0, 0]

/-- The sixteen random words of the block of a number. -/
def randomBlock (key : Key) (block : UInt64) : CipherState :=
  let start := seedState key block
  start.zipWith (· + ·) (Nat.repeat doubleRound 6 start)

/-- The eight random 64-bit numbers of a block, low words first. -/
def randomNumbers (key : Key) (block : UInt64) : List UInt64 :=
  let words := randomBlock key block
  (List.finRange 8).map fun i => words[2 * i.val].toUInt64 ||| (words[2 * i.val + 1].toUInt64 <<< 32)

end ScratchScript.BlockId
