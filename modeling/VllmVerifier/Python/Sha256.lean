import Mathlib.Algebra.GroupWithZero.Nat
import VllmVerifier.Python.Str

/-!
`hashlib.sha256`: the digest of a byte string, as `hexdigest` writes it. Words
are natural numbers below `2 ^ 32`.
-/

set_option autoImplicit false

namespace VllmVerifier.Python.Sha256

def wordSize : Nat := 2 ^ 32

def roundConstants : List Nat :=
  [0x428a2f98, 0x71374491, 0xb5c0fbcf, 0xe9b5dba5, 0x3956c25b, 0x59f111f1, 0x923f82a4,
    0xab1c5ed5, 0xd807aa98, 0x12835b01, 0x243185be, 0x550c7dc3, 0x72be5d74, 0x80deb1fe,
    0x9bdc06a7, 0xc19bf174, 0xe49b69c1, 0xefbe4786, 0x0fc19dc6, 0x240ca1cc, 0x2de92c6f,
    0x4a7484aa, 0x5cb0a9dc, 0x76f988da, 0x983e5152, 0xa831c66d, 0xb00327c8, 0xbf597fc7,
    0xc6e00bf3, 0xd5a79147, 0x06ca6351, 0x14292967, 0x27b70a85, 0x2e1b2138, 0x4d2c6dfc,
    0x53380d13, 0x650a7354, 0x766a0abb, 0x81c2c92e, 0x92722c85, 0xa2bfe8a1, 0xa81a664b,
    0xc24b8b70, 0xc76c51a3, 0xd192e819, 0xd6990624, 0xf40e3585, 0x106aa070, 0x19a4c116,
    0x1e376c08, 0x2748774c, 0x34b0bcb5, 0x391c0cb3, 0x4ed8aa4a, 0x5b9cca4f, 0x682e6ff3,
    0x748f82ee, 0x78a5636f, 0x84c87814, 0x8cc70208, 0x90befffa, 0xa4506ceb, 0xbef9a3f7,
    0xc67178f2]

def initialState : List Nat :=
  [0x6a09e667, 0xbb67ae85, 0x3c6ef372, 0xa54ff53a, 0x510e527f, 0x9b05688c, 0x1f83d9ab,
    0x5be0cd19]

/-! ## Words -/

def rotateRight (word count : Nat) : Nat :=
  (word >>> count) ||| ((word <<< (32 - count)) % wordSize)

def lowerSigma0 (word : Nat) : Nat :=
  rotateRight word 7 ^^^ rotateRight word 18 ^^^ (word >>> 3)

def lowerSigma1 (word : Nat) : Nat :=
  rotateRight word 17 ^^^ rotateRight word 19 ^^^ (word >>> 10)

def upperSigma0 (word : Nat) : Nat :=
  rotateRight word 2 ^^^ rotateRight word 13 ^^^ rotateRight word 22

def upperSigma1 (word : Nat) : Nat :=
  rotateRight word 6 ^^^ rotateRight word 11 ^^^ rotateRight word 25

def choose (first second third : Nat) : Nat :=
  (first &&& second) ^^^ ((wordSize - 1 - first) &&& third)

def majority (first second third : Nat) : Nat :=
  (first &&& second) ^^^ (first &&& third) ^^^ (second &&& third)

/-! ## Blocks -/

/-- The bytes of a number, most significant first. -/
def bigEndian : Nat → Nat → List Nat
  | 0, _ => []
  | count + 1, value => bigEndian count (value / 256) ++ [value % 256]

/-- The message with its padding: a multiple of 64 bytes. -/
def pad (message : List Nat) : List Nat :=
  message ++ [0x80] ++ List.replicate ((119 - message.length % 64) % 64) 0 ++
    bigEndian 8 (8 * message.length)

def words : List Nat → List Nat
  | first :: second :: third :: fourth :: rest =>
      (((first * 256 + second) * 256 + third) * 256 + fourth) :: words rest
  | _ => []

/-- The message schedule, newest word first: so many words more. -/
def schedule : Nat → List Nat → List Nat
  | 0, latest => latest
  | count + 1, latest =>
      schedule count (((lowerSigma1 (latest.getD 1 0) + latest.getD 6 0 +
        lowerSigma0 (latest.getD 14 0) + latest.getD 15 0) % wordSize) :: latest)

def round (state : List Nat) (item : Nat × Nat) : List Nat :=
  match state with
  | [a, b, c, d, e, f, g, h] =>
      let first := h + upperSigma1 e + choose e f g + item.1 + item.2
      let second := upperSigma0 a + majority a b c
      [(first + second) % wordSize, a, b, c, (d + first) % wordSize, e, f, g]
  | other => other

/-- One block of sixteen words. -/
def compress (state block : List Nat) : List Nat :=
  let rounds := (roundConstants.zip (schedule 48 block.reverse).reverse).foldl round state
  List.zipWith (fun before after => (before + after) % wordSize) state rounds

def blocks : Nat → List Nat → List Nat → List Nat
  | 0, state, _ => state
  | count + 1, state, rest => blocks count (compress state (rest.take 16)) (rest.drop 16)

/-! ## The digest -/

def hexDigit (value : Nat) : Nat := if value < 10 then ord '0' + value else ord 'a' + (value - 10)

def hexByte (byte : Nat) : Str := [hexDigit (byte / 16), hexDigit (byte % 16)]

/-- `hashlib.sha256(message).hexdigest()`. -/
def hexdigest (message : List Nat) : Str :=
  let padded := words (pad message)
  (blocks (padded.length / 16) initialState padded).flatMap fun word =>
    (bigEndian 4 word).flatMap hexByte

example : hexdigest (lit "abc") =
    lit "ba7816bf8f01cfea414140de5dae2223b00361a396177a9cb410ff61f20015ad" := by
  decide +kernel

end VllmVerifier.Python.Sha256
