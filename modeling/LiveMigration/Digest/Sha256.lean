import LiveMigration.Text.Bytes

/-!
The hash SHA-256 and the keyed code HMAC built on it. A message is padded to whole blocks of
64 bytes; each block is expanded to 64 words and mixed into the state of eight words.
-/

namespace LiveMigration

namespace Sha256

def roundConstants : List UInt32 := [
  0x428a2f98, 0x71374491, 0xb5c0fbcf, 0xe9b5dba5, 0x3956c25b, 0x59f111f1, 0x923f82a4, 0xab1c5ed5,
  0xd807aa98, 0x12835b01, 0x243185be, 0x550c7dc3, 0x72be5d74, 0x80deb1fe, 0x9bdc06a7, 0xc19bf174,
  0xe49b69c1, 0xefbe4786, 0x0fc19dc6, 0x240ca1cc, 0x2de92c6f, 0x4a7484aa, 0x5cb0a9dc, 0x76f988da,
  0x983e5152, 0xa831c66d, 0xb00327c8, 0xbf597fc7, 0xc6e00bf3, 0xd5a79147, 0x06ca6351, 0x14292967,
  0x27b70a85, 0x2e1b2138, 0x4d2c6dfc, 0x53380d13, 0x650a7354, 0x766a0abb, 0x81c2c92e, 0x92722c85,
  0xa2bfe8a1, 0xa81a664b, 0xc24b8b70, 0xc76c51a3, 0xd192e819, 0xd6990624, 0xf40e3585, 0x106aa070,
  0x19a4c116, 0x1e376c08, 0x2748774c, 0x34b0bcb5, 0x391c0cb3, 0x4ed8aa4a, 0x5b9cca4f, 0x682e6ff3,
  0x748f82ee, 0x78a5636f, 0x84c87814, 0x8cc70208, 0x90befffa, 0xa4506ceb, 0xbef9a3f7, 0xc67178f2]

structure State where
  a : UInt32
  b : UInt32
  c : UInt32
  d : UInt32
  e : UInt32
  f : UInt32
  g : UInt32
  h : UInt32
  deriving DecidableEq, Repr

def initial : State :=
  ⟨0x6a09e667, 0xbb67ae85, 0x3c6ef372, 0xa54ff53a, 0x510e527f, 0x9b05688c, 0x1f83d9ab, 0x5be0cd19⟩

def rotateRight (x n : UInt32) : UInt32 := (x >>> n) ||| (x <<< (32 - n))

def round (s : State) (k w : UInt32) : State :=
  let sum1 := rotateRight s.e 6 ^^^ rotateRight s.e 11 ^^^ rotateRight s.e 25
  let choice := (s.e &&& s.f) ^^^ (~~~s.e &&& s.g)
  let t1 := s.h + sum1 + choice + k + w
  let sum0 := rotateRight s.a 2 ^^^ rotateRight s.a 13 ^^^ rotateRight s.a 22
  let majority := (s.a &&& s.b) ^^^ (s.a &&& s.c) ^^^ (s.b &&& s.c)
  ⟨t1 + (sum0 + majority), s.a, s.b, s.c, s.d + t1, s.e, s.f, s.g⟩

def State.add (s t : State) : State :=
  ⟨s.a + t.a, s.b + t.b, s.c + t.c, s.d + t.d, s.e + t.e, s.f + t.f, s.g + t.g, s.h + t.h⟩

def words : Bytes → List UInt32
  | a :: b :: c :: d :: rest =>
    (a.toUInt32 <<< 24 ||| b.toUInt32 <<< 16 ||| c.toUInt32 <<< 8 ||| d.toUInt32) :: words rest
  | _ => []

/-- The next word of a schedule of which the last sixteen words are given, latest first. -/
def nextWord (recent : List UInt32) : UInt32 :=
  let w15 := recent.getD 14 0
  let w2 := recent.getD 1 0
  let sigma0 := rotateRight w15 7 ^^^ rotateRight w15 18 ^^^ (w15 >>> 3)
  let sigma1 := rotateRight w2 17 ^^^ rotateRight w2 19 ^^^ (w2 >>> 10)
  recent.getD 15 0 + sigma0 + recent.getD 6 0 + sigma1

/-- Appends so many words to a schedule that is kept latest first. -/
def expand : Nat → List UInt32 → List UInt32
  | 0, recent => recent
  | n + 1, recent => expand n (nextWord recent :: recent)

def compress (s : State) (block : Bytes) : State :=
  let schedule := (expand 48 (words block).reverse).reverse
  s.add ((roundConstants.zip schedule).foldl (fun s (k, w) => round s k w) s)

def blockSize : Nat := 64

/-- A number in so many bytes, the highest first. -/
def bigEndian : Nat → Nat → Bytes
  | 0, _ => []
  | n + 1, x => UInt8.ofNat (x >>> (8 * n)) :: bigEndian n x

/-- What follows the message: a bit, zeros, and its length in bits. -/
def padding (length : Nat) : Bytes :=
  0x80 :: List.replicate ((blockSize * 2 - 9 - length % blockSize) % blockSize) 0 ++
    bigEndian 8 (length * 8)

def blocks : Nat → Bytes → List Bytes
  | 0, _ => []
  | _, [] => []
  | n + 1, bytes => bytes.take blockSize :: blocks n (bytes.drop blockSize)

def State.toBytes (s : State) : Bytes :=
  [s.a, s.b, s.c, s.d, s.e, s.f, s.g, s.h].flatMap fun w => bigEndian 4 w.toNat

def ofBytes (message : Bytes) : Bytes :=
  let padded := message ++ padding message.length
  ((blocks padded.length padded).foldl compress initial).toBytes

end Sha256

def hmacSha256 (key message : Bytes) : Bytes :=
  let key := if Sha256.blockSize < key.length then Sha256.ofBytes key else key
  let key := key ++ List.replicate (Sha256.blockSize - key.length) 0
  let inner := Sha256.ofBytes (key.map (· ^^^ 0x36) ++ message)
  Sha256.ofBytes (key.map (· ^^^ 0x5C) ++ inner)

end LiveMigration
