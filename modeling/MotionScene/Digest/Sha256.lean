/-!
# SHA-256

The digest of a byte string.  The padded message is read through a function from
positions to bytes, so a block is compressed without building the padding.
-/

namespace MotionScene
namespace Sha256

/-- The eight words carried from block to block. -/
structure State where
  a : UInt32
  b : UInt32
  c : UInt32
  d : UInt32
  e : UInt32
  f : UInt32
  g : UInt32
  h : UInt32
deriving DecidableEq, Repr

/-- The words before the first block. -/
def initial : State :=
  ⟨0x6a09e667, 0xbb67ae85, 0x3c6ef372, 0xa54ff53a,
    0x510e527f, 0x9b05688c, 0x1f83d9ab, 0x5be0cd19⟩

/-- One constant for each of the sixty-four rounds. -/
def roundConstants : Array UInt32 :=
  #[
    0x428a2f98, 0x71374491, 0xb5c0fbcf, 0xe9b5dba5, 0x3956c25b, 0x59f111f1,
    0x923f82a4, 0xab1c5ed5, 0xd807aa98, 0x12835b01, 0x243185be, 0x550c7dc3,
    0x72be5d74, 0x80deb1fe, 0x9bdc06a7, 0xc19bf174, 0xe49b69c1, 0xefbe4786,
    0x0fc19dc6, 0x240ca1cc, 0x2de92c6f, 0x4a7484aa, 0x5cb0a9dc, 0x76f988da,
    0x983e5152, 0xa831c66d, 0xb00327c8, 0xbf597fc7, 0xc6e00bf3, 0xd5a79147,
    0x06ca6351, 0x14292967, 0x27b70a85, 0x2e1b2138, 0x4d2c6dfc, 0x53380d13,
    0x650a7354, 0x766a0abb, 0x81c2c92e, 0x92722c85, 0xa2bfe8a1, 0xa81a664b,
    0xc24b8b70, 0xc76c51a3, 0xd192e819, 0xd6990624, 0xf40e3585, 0x106aa070,
    0x19a4c116, 0x1e376c08, 0x2748774c, 0x34b0bcb5, 0x391c0cb3, 0x4ed8aa4a,
    0x5b9cca4f, 0x682e6ff3, 0x748f82ee, 0x78a5636f, 0x84c87814, 0x8cc70208,
    0x90befffa, 0xa4506ceb, 0xbef9a3f7, 0xc67178f2]

/-- A word rotated to the right. -/
def rotateRight (word count : UInt32) : UInt32 :=
  (word >>> count) ||| (word <<< (32 - count))

/-- The byte of a message at a position, zero past its end. -/
def byteAt (message : ByteArray) (position : Nat) : UInt8 :=
  if inside : position < message.size then message[position] else 0

/-- The length of a message with its delimiter, padding and length word. -/
def paddedSize (message : ByteArray) : Nat :=
  (message.size + 72) / 64 * 64

/-- The byte of the padded message at a position: the message, a delimiter,
zeros, and the length in bits as eight bytes, highest first. -/
def paddedByte (message : ByteArray) (position : Nat) : UInt8 :=
  if position < message.size then byteAt message position
  else if position = message.size then 0x80
  else if position + 8 < paddedSize message then 0
  else
    ((8 * message.size) >>> (8 * (paddedSize message - 1 - position))).toUInt8

/-- The word that starts at a position of the padded message, highest byte
first. -/
def wordAt (message : ByteArray) (position : Nat) : UInt32 :=
  (paddedByte message position).toUInt32 <<< 24 |||
    (paddedByte message (position + 1)).toUInt32 <<< 16 |||
    (paddedByte message (position + 2)).toUInt32 <<< 8 |||
    (paddedByte message (position + 3)).toUInt32

/-- The schedule extended by `count` words. -/
def extendSchedule : Nat → Array UInt32 → Array UInt32
  | 0, words => words
  | count + 1, words =>
    let size := words.size
    let early := words.getD (size - 15) 0
    let late := words.getD (size - 2) 0
    let first := rotateRight early 7 ^^^ rotateRight early 18 ^^^ (early >>> 3)
    let second := rotateRight late 17 ^^^ rotateRight late 19 ^^^ (late >>> 10)
    extendSchedule count
      (words.push
        (words.getD (size - 16) 0 + first + words.getD (size - 7) 0 + second))

/-- The sixty-four words of the block that starts at a position. -/
def schedule (message : ByteArray) (position : Nat) : Array UInt32 :=
  extendSchedule 48
    (Array.ofFn fun index : Fin 16 => wordAt message (position + 4 * index.val))

/-- One round of the compression. -/
def round (state : State) (constant word : UInt32) : State :=
  let sumE :=
    rotateRight state.e 6 ^^^ rotateRight state.e 11 ^^^ rotateRight state.e 25
  let choice := (state.e &&& state.f) ^^^ (~~~state.e &&& state.g)
  let first := state.h + sumE + choice + constant + word
  let sumA :=
    rotateRight state.a 2 ^^^ rotateRight state.a 13 ^^^ rotateRight state.a 22
  let majority :=
    (state.a &&& state.b) ^^^ (state.a &&& state.c) ^^^ (state.b &&& state.c)
  ⟨first + (sumA + majority), state.a, state.b, state.c,
    state.d + first, state.e, state.f, state.g⟩

/-- The last `count` of the sixty-four rounds. -/
def rounds (words : Array UInt32) : Nat → State → State
  | 0, state => state
  | count + 1, state =>
    let index := 63 - count
    rounds words count
      (round state (roundConstants.getD index 0) (words.getD index 0))

/-- The state after the block that starts at a position. -/
def compress (message : ByteArray) (position : Nat) (state : State) : State :=
  let last := rounds (schedule message position) 64 state
  ⟨state.a + last.a, state.b + last.b, state.c + last.c, state.d + last.d,
    state.e + last.e, state.f + last.f, state.g + last.g, state.h + last.h⟩

/-- The state after `count` blocks from a position on. -/
def blocks (message : ByteArray) : Nat → Nat → State → State
  | 0, _, state => state
  | count + 1, position, state =>
    blocks message count (position + 64) (compress message position state)

/-- The bytes of a word, highest first. -/
def wordBytes (word : UInt32) : List UInt8 :=
  [(word >>> 24).toUInt8, (word >>> 16).toUInt8, (word >>> 8).toUInt8,
    word.toUInt8]

/-- The digest of a message. -/
def digest (message : ByteArray) : List UInt8 :=
  let state := blocks message (paddedSize message / 64) 0 initial
  [state.a, state.b, state.c, state.d, state.e, state.f, state.g,
    state.h].flatMap wordBytes

end Sha256
end MotionScene
