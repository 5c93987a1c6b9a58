/-
The SHA-256 digest: a message padded to whole blocks of sixty-four octets, each block compressed
into eight words of 32 bits.
-/
import CoverageRun.Text.Octets

namespace CoverageRun.Digest

/-! ## Words -/

/-- A word turned right by `n` bits. -/
def turn (x : UInt32) (n : UInt32) : UInt32 := (x >>> n) ||| (x <<< (32 - n))

def choose (x y z : UInt32) : UInt32 := (x &&& y) ^^^ ((~~~ x) &&& z)

def majority (x y z : UInt32) : UInt32 := (x &&& y) ^^^ (x &&& z) ^^^ (y &&& z)

/-- The first thirty-two bits of the fractional parts of the square roots of the first eight
primes. -/
def start : List UInt32 :=
  [0x6a09e667, 0xbb67ae85, 0x3c6ef372, 0xa54ff53a, 0x510e527f, 0x9b05688c, 0x1f83d9ab, 0x5be0cd19]

/-- The first thirty-two bits of the fractional parts of the cube roots of the first sixty-four
primes. -/
def rounds : List UInt32 :=
  [0x428a2f98, 0x71374491, 0xb5c0fbcf, 0xe9b5dba5, 0x3956c25b, 0x59f111f1, 0x923f82a4, 0xab1c5ed5,
   0xd807aa98, 0x12835b01, 0x243185be, 0x550c7dc3, 0x72be5d74, 0x80deb1fe, 0x9bdc06a7, 0xc19bf174,
   0xe49b69c1, 0xefbe4786, 0x0fc19dc6, 0x240ca1cc, 0x2de92c6f, 0x4a7484aa, 0x5cb0a9dc, 0x76f988da,
   0x983e5152, 0xa831c66d, 0xb00327c8, 0xbf597fc7, 0xc6e00bf3, 0xd5a79147, 0x06ca6351, 0x14292967,
   0x27b70a85, 0x2e1b2138, 0x4d2c6dfc, 0x53380d13, 0x650a7354, 0x766a0abb, 0x81c2c92e, 0x92722c85,
   0xa2bfe8a1, 0xa81a664b, 0xc24b8b70, 0xc76c51a3, 0xd192e819, 0xd6990624, 0xf40e3585, 0x106aa070,
   0x19a4c116, 0x1e376c08, 0x2748774c, 0x34b0bcb5, 0x391c0cb3, 0x4ed8aa4a, 0x5b9cca4f, 0x682e6ff3,
   0x748f82ee, 0x78a5636f, 0x84c87814, 0x8cc70208, 0x90befffa, 0xa4506ceb, 0xbef9a3f7, 0xc67178f2]

/-! ## Message -/

/-- A number as `width` octets, the highest first. -/
def bigEndian (width n : Nat) : List UInt8 :=
  (List.range width).reverse.map fun i => UInt8.ofNat (n / Nat.pow 256 i)

/-- The message, the octet 0x80, as few zeros as complete a block, and the length in bits. -/
def pad (message : List UInt8) : List UInt8 :=
  let length := message.length
  message ++ 0x80 :: List.replicate ((119 - length % 64) % 64) 0 ++ bigEndian 8 (8 * length)

/-- Octets four at a time as words. -/
def words : List UInt8 → List UInt32
  | a :: b :: c :: d :: r =>
    ((a.toUInt32 <<< 24) ||| (b.toUInt32 <<< 16) ||| (c.toUInt32 <<< 8) ||| d.toUInt32) :: words r
  | _ => []

/-- The schedule of a block, latest word first: each new word is made of four earlier ones. -/
def extend : Nat → List UInt32 → List UInt32
  | 0, ws => ws
  | n + 1, ws =>
    let near := ws.getD 1 0
    let far := ws.getD 14 0
    let s0 := turn far 7 ^^^ turn far 18 ^^^ (far >>> 3)
    let s1 := turn near 17 ^^^ turn near 19 ^^^ (near >>> 10)
    extend n ((ws.getD 15 0 + s0 + ws.getD 6 0 + s1) :: ws)

/-- The sixty-four words of a block's schedule. -/
def schedule (block : List UInt32) : List UInt32 := (extend 48 block.reverse).reverse

/-! ## Compression -/

/-- One round over the eight working words. -/
def stir (state : List UInt32) (key : UInt32 × UInt32) : List UInt32 :=
  match state with
  | [a, b, c, d, e, f, g, h] =>
    let s1 := turn e 6 ^^^ turn e 11 ^^^ turn e 25
    let t1 := h + s1 + choose e f g + key.1 + key.2
    let s0 := turn a 2 ^^^ turn a 13 ^^^ turn a 22
    [t1 + s0 + majority a b c, a, b, c, d + t1, e, f, g]
  | other => other

/-- The state after a block. -/
def compress (state : List UInt32) (block : List UInt32) : List UInt32 :=
  List.zipWith (· + ·) state ((rounds.zip (schedule block)).foldl stir state)

/-- Words in blocks of sixteen. -/
def blocks (ws : List UInt32) : List (List UInt32) :=
  (List.range (ws.length / 16)).map fun i => (ws.drop (16 * i)).take 16

/-- The digest of a message, as thirty-two octets. -/
def sha256 (message : List UInt8) : List UInt8 :=
  ((blocks (words (pad message))).foldl compress start).flatMap fun w => bigEndian 4 w.toNat

/-- The digest of a message in hexadecimal digits. -/
def sha256Hex (message : List UInt8) : String := Text.hexOf (sha256 message)

end CoverageRun.Digest
