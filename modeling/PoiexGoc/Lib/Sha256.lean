/-
  SHA-256 as `hashlib.sha256(...).hexdigest()` computes it, over lists of byte values.

  Words are `Nat`s below `2^32` with every sum reduced explicitly, so a digest reduces by the
  kernel's own arithmetic and concrete runs of the model can be evaluated down to the hash texts.

  Programs take the digest as a parameter and their theorems hold for every one; `hexdigest` is
  the one their concrete runs are evaluated with.
-/

namespace Sha256

/-- Words are reduced modulo `2^32`. -/
def word (n : Nat) : Nat := n % 4294967296

def rotr (n x : Nat) : Nat := (x >>> n) ||| word (x <<< (32 - n))

def roundConstants : List Nat := [
  0x428a2f98, 0x71374491, 0xb5c0fbcf, 0xe9b5dba5, 0x3956c25b, 0x59f111f1, 0x923f82a4, 0xab1c5ed5,
  0xd807aa98, 0x12835b01, 0x243185be, 0x550c7dc3, 0x72be5d74, 0x80deb1fe, 0x9bdc06a7, 0xc19bf174,
  0xe49b69c1, 0xefbe4786, 0x0fc19dc6, 0x240ca1cc, 0x2de92c6f, 0x4a7484aa, 0x5cb0a9dc, 0x76f988da,
  0x983e5152, 0xa831c66d, 0xb00327c8, 0xbf597fc7, 0xc6e00bf3, 0xd5a79147, 0x06ca6351, 0x14292967,
  0x27b70a85, 0x2e1b2138, 0x4d2c6dfc, 0x53380d13, 0x650a7354, 0x766a0abb, 0x81c2c92e, 0x92722c85,
  0xa2bfe8a1, 0xa81a664b, 0xc24b8b70, 0xc76c51a3, 0xd192e819, 0xd6990624, 0xf40e3585, 0x106aa070,
  0x19a4c116, 0x1e376c08, 0x2748774c, 0x34b0bcb5, 0x391c0cb3, 0x4ed8aa4a, 0x5b9cca4f, 0x682e6ff3,
  0x748f82ee, 0x78a5636f, 0x84c87814, 0x8cc70208, 0x90befffa, 0xa4506ceb, 0xbef9a3f7, 0xc67178f2]

/-- The chaining value: the eight working words. -/
structure Chain where
  (a b c d e f g h : Nat)

def initial : Chain :=
  ⟨0x6a09e667, 0xbb67ae85, 0x3c6ef372, 0xa54ff53a, 0x510e527f, 0x9b05688c, 0x1f83d9ab, 0x5be0cd19⟩

/-- One round with round constant `k` and schedule word `w`. -/
def round (s : Chain) (k w : Nat) : Chain :=
  let sum1 := rotr 6 s.e ^^^ rotr 11 s.e ^^^ rotr 25 s.e
  let choice := (s.e &&& s.f) ^^^ ((4294967295 - s.e) &&& s.g)
  let t1 := s.h + sum1 + choice + k + w
  let sum0 := rotr 2 s.a ^^^ rotr 13 s.a ^^^ rotr 22 s.a
  let majority := (s.a &&& s.b) ^^^ (s.a &&& s.c) ^^^ (s.b &&& s.c)
  ⟨word (t1 + (sum0 + majority)), s.a, s.b, s.c, word (s.d + t1), s.e, s.f, s.g⟩

/-- The schedule word that enters a window of sixteen, oldest first. -/
def nextWord (ws : List Nat) : Nat :=
  let w15 := ws.getD 1 0
  let w2 := ws.getD 14 0
  let sigma0 := rotr 7 w15 ^^^ rotr 18 w15 ^^^ (w15 >>> 3)
  let sigma1 := rotr 17 w2 ^^^ rotr 19 w2 ^^^ (w2 >>> 10)
  word (sigma1 + ws.getD 9 0 + sigma0 + ws.getD 0 0)

/-- The rounds of one block, the schedule kept as a sliding window. -/
def rounds : List Nat → List Nat → Chain → Chain
  | [], _, s => s
  | k :: ks, ws, s => rounds ks (ws.tail ++ [nextWord ws]) (round s k (ws.headD 0))

def compress (s : Chain) (block : List Nat) : Chain :=
  let r := rounds roundConstants block s
  ⟨word (s.a + r.a), word (s.b + r.b), word (s.c + r.c), word (s.d + r.d),
   word (s.e + r.e), word (s.f + r.f), word (s.g + r.g), word (s.h + r.h)⟩

/-- Big-endian words of a block. -/
def words : Nat → List Nat → List Nat
  | 0, _ => []
  | n + 1, bytes =>
    let byte := fun i => bytes.getD i 0
    (byte 0 <<< 24 ||| byte 1 <<< 16 ||| byte 2 <<< 8 ||| byte 3) :: words n (bytes.drop 4)

def compressBlocks : Nat → List Nat → Chain → Chain
  | 0, _, s => s
  | n + 1, bytes, s => compressBlocks n (bytes.drop 64) (compress s (words 16 bytes))

/-- The padded message: a one bit, zeros, and the bit length in the last eight bytes. -/
def pad (bytes : List Nat) : List Nat :=
  bytes ++ 0x80 :: List.replicate ((119 - bytes.length % 64) % 64) 0 ++
    [56, 48, 40, 32, 24, 16, 8, 0].map fun shift => (8 * bytes.length) >>> shift % 256

def hexDigit (n : Nat) : Char := "0123456789abcdef".toList.getD n '0'

def hexWord (w : Nat) : List Char :=
  [28, 24, 20, 16, 12, 8, 4, 0].map fun shift => hexDigit (w >>> shift % 16)

def hexdigest (bytes : List Nat) : String :=
  let padded := pad bytes
  let s := compressBlocks (padded.length / 64) padded initial
  String.ofList ([s.a, s.b, s.c, s.d, s.e, s.f, s.g, s.h].flatMap hexWord)

/-- Eight words of eight digits. -/
theorem hexdigest_length (bytes : List Nat) : (hexdigest bytes).length = 64 := by
  rw [hexdigest, String.length_ofList]
  rfl

example : hexdigest [97, 98, 99] =
    "ba7816bf8f01cfea414140de5dae2223b00361a396177a9cb410ff61f20015ad" := by
  decide +kernel

end Sha256
