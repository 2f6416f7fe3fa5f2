import Muster.Text.Bytes

/-! The hash function SHA-256, and RSA signatures over it. -/

namespace Muster.Crypto.Sha256

open Text (Bytes)

def constants : List UInt32 :=
  [0x428A2F98, 0x71374491, 0xB5C0FBCF, 0xE9B5DBA5, 0x3956C25B, 0x59F111F1, 0x923F82A4, 0xAB1C5ED5,
    0xD807AA98, 0x12835B01, 0x243185BE, 0x550C7DC3, 0x72BE5D74, 0x80DEB1FE, 0x9BDC06A7, 0xC19BF174,
    0xE49B69C1, 0xEFBE4786, 0x0FC19DC6, 0x240CA1CC, 0x2DE92C6F, 0x4A7484AA, 0x5CB0A9DC, 0x76F988DA,
    0x983E5152, 0xA831C66D, 0xB00327C8, 0xBF597FC7, 0xC6E00BF3, 0xD5A79147, 0x06CA6351, 0x14292967,
    0x27B70A85, 0x2E1B2138, 0x4D2C6DFC, 0x53380D13, 0x650A7354, 0x766A0ABB, 0x81C2C92E, 0x92722C85,
    0xA2BFE8A1, 0xA81A664B, 0xC24B8B70, 0xC76C51A3, 0xD192E819, 0xD6990624, 0xF40E3585, 0x106AA070,
    0x19A4C116, 0x1E376C08, 0x2748774C, 0x34B0BCB5, 0x391C0CB3, 0x4ED8AA4A, 0x5B9CCA4F, 0x682E6FF3,
    0x748F82EE, 0x78A5636F, 0x84C87814, 0x8CC70208, 0x90BEFFFA, 0xA4506CEB, 0xBEF9A3F7, 0xC67178F2]

structure Digest where
  a : UInt32
  b : UInt32
  c : UInt32
  d : UInt32
  e : UInt32
  f : UInt32
  g : UInt32
  h : UInt32

def initial : Digest :=
  ⟨0x6A09E667, 0xBB67AE85, 0x3C6EF372, 0xA54FF53A, 0x510E527F, 0x9B05688C, 0x1F83D9AB, 0x5BE0CD19⟩

def rotate (x n : UInt32) : UInt32 := x >>> n ||| x <<< (32 - n)

/-- The word that follows sixteen words, given from the latest to the earliest. -/
def nextWord (latest : List UInt32) : UInt32 :=
  let at' (i : Nat) := latest.getD i 0
  let s0 := rotate (at' 14) 7 ^^^ rotate (at' 14) 18 ^^^ at' 14 >>> 3
  let s1 := rotate (at' 1) 17 ^^^ rotate (at' 1) 19 ^^^ at' 1 >>> 10
  at' 15 + s0 + at' 6 + s1

def extend : Nat → List UInt32 → List UInt32
  | 0, latest => latest
  | n + 1, latest => extend n (nextWord latest :: latest)

def schedule (block : List UInt32) : List UInt32 := (extend 48 block.reverse).reverse

def round (s : Digest) (k w : UInt32) : Digest :=
  let s1 := rotate s.e 6 ^^^ rotate s.e 11 ^^^ rotate s.e 25
  let choice := s.e &&& s.f ^^^ ~~~s.e &&& s.g
  let t1 := s.h + s1 + choice + k + w
  let s0 := rotate s.a 2 ^^^ rotate s.a 13 ^^^ rotate s.a 22
  let majority := s.a &&& s.b ^^^ s.a &&& s.c ^^^ s.b &&& s.c
  ⟨t1 + s0 + majority, s.a, s.b, s.c, s.d + t1, s.e, s.f, s.g⟩

def compress (s : Digest) (block : List UInt32) : Digest :=
  let t := (constants.zip (schedule block)).foldl (fun s (k, w) => round s k w) s
  ⟨s.a + t.a, s.b + t.b, s.c + t.c, s.d + t.d, s.e + t.e, s.f + t.f, s.g + t.g, s.h + t.h⟩

def bigEndian : Nat → Nat → Bytes
  | 0, _ => []
  | n + 1, x => UInt8.ofNat (x / 256 ^ n % 256) :: bigEndian n x

/-- The message, a bit, zeros up to eight bytes below a whole block, and the length in bits. -/
def pad (message : Bytes) : Bytes :=
  let zeros := (119 - message.length % 64) % 64
  message ++ 0x80 :: List.replicate zeros 0 ++ bigEndian 8 (message.length * 8)

def words : Bytes → List UInt32
  | a :: b :: c :: d :: rest =>
    (a.toUInt32 <<< 24 ||| b.toUInt32 <<< 16 ||| c.toUInt32 <<< 8 ||| d.toUInt32) :: words rest
  | _ => []

def absorb : Nat → Digest → List UInt32 → Digest
  | 0, s, _ => s
  | n + 1, s, ws => absorb n (compress s (ws.take 16)) (ws.drop 16)

def hash (message : Bytes) : Bytes :=
  let ws := words (pad message)
  let s := absorb (ws.length / 16) initial ws
  [s.a, s.b, s.c, s.d, s.e, s.f, s.g, s.h].flatMap fun w => bigEndian 4 w.toNat

end Muster.Crypto.Sha256

namespace Muster.Crypto.Rsa

/-! RSA signatures over SHA-256 with the padding of PKCS #1 version 1.5. -/

open Text (Bytes)

/-- Modulus and exponent as bytes, the highest first. -/
structure PublicKey where
  modulus : Bytes
  exponent : Bytes
deriving Repr, DecidableEq

def toNat (bs : Bytes) : Nat := bs.foldl (fun n b => n * 256 + b.toNat) 0

def powMod (m base : Nat) : Nat → Nat → Nat
  | 0, _ => 1 % m
  | bits + 1, e =>
    let half := powMod m base bits (e / 2)
    let square := half * half % m
    if e % 2 = 1 then square * base % m else square

/-- No leading zero, odd, and of 256 to 1024 bytes. -/
def goodModulus (n : Bytes) : Bool :=
  n.head? != some 0 && toNat n % 2 == 1 && 256 ≤ n.length && n.length ≤ 1024

/-- No leading zero, odd, at least three and below `2 ^ 33`. -/
def goodExponent (e : Bytes) : Bool :=
  e.head? != some 0 && toNat e % 2 == 1 && 3 ≤ toNat e && e.length ≤ 5 && toNat e < 0x200000000

def digestInfo : Bytes :=
  [0x30, 0x31, 0x30, 0x0D, 0x06, 0x09, 0x60, 0x86, 0x48, 0x01, 0x65, 0x03, 0x04, 0x02, 0x01, 0x05,
    0x00, 0x04, 0x20]

def encoded (size : Nat) (message : Bytes) : Bytes :=
  let tail := digestInfo ++ Sha256.hash message
  0 :: 1 :: List.replicate (size - 3 - tail.length) 0xFF ++ 0 :: tail

def verify (key : PublicKey) (message signature : Bytes) : Bool :=
  let n := toNat key.modulus
  goodModulus key.modulus && goodExponent key.exponent &&
    signature.length == key.modulus.length && toNat signature < n &&
    powMod n (toNat signature) 64 (toNat key.exponent) == toNat (encoded key.modulus.length message)

end Muster.Crypto.Rsa
