import Chip8.Random

/-!
# Seeded streams

The deterministic stream of a 64-bit seed: a short generator expands the seed to a 256-bit key,
and the low bytes of the words of the ChaCha keystream with twelve rounds under that key are the
stream. The keystream is read by position: byte `k` is the low byte of word `k % 16` of block
`k / 16`, where the block number is a 64-bit counter and the nonce is zero.
-/

namespace Chip8

namespace ChaCha

/-! ## Key expansion -/

/-- One step of the 64-bit linear congruential generator. -/
def advanceSeed (state : UInt64) : UInt64 := state * 6364136223846793005 + 11634580027462260723

/-- Rotation of a word to the right. -/
def rotateRight (word : UInt32) (amount : UInt32) : UInt32 :=
  (word >>> (amount % 32)) ||| (word <<< ((32 - amount % 32) % 32))

/-- Rotation of a word to the left. -/
def rotateLeft (word : UInt32) (amount : UInt32) : UInt32 :=
  (word <<< (amount % 32)) ||| (word >>> ((32 - amount % 32) % 32))

/-- The output word of a generator state: a xor-shifted word rotated by the top bits. -/
def permute (state : UInt64) : UInt32 :=
  rotateRight (((state >>> 18) ^^^ state) >>> 27).toUInt32 (state >>> 59).toUInt32

/-- `count` key words from a generator state. -/
def expandSeed (state : UInt64) : (count : Nat) → List UInt32
  | 0 => []
  | count + 1 =>
    let state := advanceSeed state
    permute state :: expandSeed state count

/-! ## Blocks -/

/-- The sixteen words of a block. -/
abbrev Block := Vector UInt32 16

/-- Mixes the four words at `a`, `b`, `c`, `d`. -/
def quarterRound (s : Block) (a b c d : Fin 16) : Block :=
  let s := s.set a (s[a] + s[b])
  let s := s.set d (rotateLeft (s[d] ^^^ s[a]) 16)
  let s := s.set c (s[c] + s[d])
  let s := s.set b (rotateLeft (s[b] ^^^ s[c]) 12)
  let s := s.set a (s[a] + s[b])
  let s := s.set d (rotateLeft (s[d] ^^^ s[a]) 8)
  let s := s.set c (s[c] + s[d])
  s.set b (rotateLeft (s[b] ^^^ s[c]) 7)

/-- The columns and then the diagonals, each mixed once. -/
def doubleRound (s : Block) : Block :=
  let s := quarterRound s 0 4 8 12
  let s := quarterRound s 1 5 9 13
  let s := quarterRound s 2 6 10 14
  let s := quarterRound s 3 7 11 15
  let s := quarterRound s 0 5 10 15
  let s := quarterRound s 1 6 11 12
  let s := quarterRound s 2 7 8 13
  quarterRound s 3 4 9 14

/-- `count` double rounds. -/
def rounds : (count : Nat) → Block → Block
  | 0, s => s
  | count + 1, s => rounds count (doubleRound s)

/-- The block before mixing: four constants, the key, the block number and a zero nonce. -/
def start (key : Vector UInt32 8) (number : Nat) : Block :=
  #v[0x61707865, 0x3320646e, 0x79622d32, 0x6b206574,
     key[0], key[1], key[2], key[3], key[4], key[5], key[6], key[7],
     UInt32.ofNat number, UInt32.ofNat (number / UInt32.size), 0, 0]

/-- A keystream block: the mixed start plus the start, with twelve rounds of mixing. -/
def block (key : Vector UInt32 8) (number : Nat) : Block :=
  let s := start key number
  Vector.zipWith (· + ·) (rounds 6 s) s

/-! ## Streams -/

/-- The key of a seed. -/
def keyOfSeed (seed : UInt64) : Vector UInt32 8 :=
  let words := (expandSeed seed 8).toArray
  Vector.ofFn fun i => words.getD i 0

/-- Byte `k` of the keystream under a key. -/
def byteAt (key : Vector UInt32 8) (k : Nat) : UInt8 :=
  (block key (k / 16))[k % 16].toUInt8

end ChaCha

/-- The stream of a seed. -/
def RandomStream.seeded (seed : UInt64) : RandomStream :=
  let key := ChaCha.keyOfSeed seed
  { byteAt := fun k => ChaCha.byteAt key k }

end Chip8
