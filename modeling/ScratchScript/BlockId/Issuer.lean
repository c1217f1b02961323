import ScratchScript.BlockId.Cipher

/-!
# Block ids

An id is a word of twenty letters and digits. `Issuer.next?` draws one from the random stream and draws again while the
word is in use, so that no two blocks share an id. Both loops, for a letter and for a word, go on until the stream gives
what they need; a result of `none` stands for a stream that never does.
-/

namespace ScratchScript.BlockId

def alphabet : List Char :=
  "ABCDEFGHIJKLMNOPQRSTUVWXYZabcdefghijklmnopqrstuvwxyz0123456789".toList

def idLength : Nat := 20

/-- The character of a number below 62. -/
def letter (n : Nat) : Char :=
  alphabet.getD n 'A'

/-! ## Drawing letters -/

/-- The letter of a random number: the high part of 62 times the number, unless the low part shows that the number
would favour some letters. -/
def letterOf? (random : UInt64) : Option Char :=
  let product := random.toNat * 62
  if product % UInt64.size ≤ 0xF7FFFFFFFFFFFFFF then some (letter (product / UInt64.size)) else none

/-- A random stream of letters: those that are drawn and not used yet, and the block to draw from next. -/
structure Letters where
  key : Key
  block : UInt64
  ready : List Char

namespace Letters

def ofSeed (seed : UInt64) : Letters := ⟨Key.ofSeed seed, 0, []⟩

/-- Draws the letters of one more block. -/
def refill (letters : Letters) : Letters :=
  { letters with
    block := letters.block + 1
    ready := letters.ready ++ (randomNumbers letters.key letters.block).filterMap letterOf? }

def spend (count : Nat) (letters : Letters) : Letters :=
  { letters with ready := letters.ready.drop count }

/-- Takes `n` letters off the stream, drawing blocks until there are enough. -/
def take? (letters : Letters) (n : Nat) : Option (List Char × Letters) :=
  if n ≤ letters.ready.length then some (letters.ready.take n, letters.spend n)
  else some letters.refill >>= take? (n := n)
partial_fixpoint

def word? (letters : Letters) : Option (String × Letters) :=
  (letters.take? idLength).map fun (word, rest) => (String.ofList word, rest)

/-- Draws words until one is not among those in use. -/
def fresh? (letters : Letters) (u : List String) : Option (String × Letters) := do
  let (word, rest) ← letters.word?
  if u.contains word then some rest >>= fresh? (u := u) else some (word, rest)
partial_fixpoint

end Letters

/-! ## Fresh ids -/

/-- What gives out ids: a stream of letters and the ids that are in use, the latest first. -/
structure Issuer where
  letters : Letters
  issued : List String

namespace Issuer

def ofSeed (seed : UInt64) : Issuer := ⟨Letters.ofSeed seed, []⟩

def next? (issuer : Issuer) : Option (String × Issuer) :=
  (issuer.letters.fresh? issuer.issued).map fun (word, rest) => (word, ⟨rest, word :: issuer.issued⟩)

/-- The issuer after giving out `count` ids. -/
def after? (issuer : Issuer) : (count : Nat) → Option Issuer
  | 0 => some issuer
  | count + 1 => do
    let (_, rest) ← (← issuer.after? count).next?
    some rest

end Issuer

/-- The first `count` ids of a seed. -/
def firstIds? (seed : UInt64) (count : Nat) : Option (List String) :=
  ((Issuer.ofSeed seed).after? count).map fun issuer => issuer.issued.reverse

/-- The first `count` ids of a seed whose stream has so many. -/
def firstIds (seed : UInt64) (count : Nat) : List String :=
  (firstIds? seed count).getD []

end ScratchScript.BlockId
