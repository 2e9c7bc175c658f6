import TiBackup.Lib.Encoding

/-!
# TiBackup.Lib.Sha256

SHA-256, HMAC and PBKDF2 over byte strings, with the lengths of what they return.
-/

namespace TiBackup.Lib

namespace Sha256

/-- The eight working variables. -/
structure Block where
  a : UInt32
  b : UInt32
  c : UInt32
  d : UInt32
  e : UInt32
  f : UInt32
  g : UInt32
  h : UInt32

/-- The hash value before the first block. -/
def initial : Block :=
  ⟨0x6a09e667, 0xbb67ae85, 0x3c6ef372, 0xa54ff53a, 0x510e527f, 0x9b05688c, 0x1f83d9ab, 0x5be0cd19⟩

/-- The round constants. -/
def roundConstants : List UInt32 :=
  [0x428a2f98, 0x71374491, 0xb5c0fbcf, 0xe9b5dba5, 0x3956c25b, 0x59f111f1, 0x923f82a4, 0xab1c5ed5,
   0xd807aa98, 0x12835b01, 0x243185be, 0x550c7dc3, 0x72be5d74, 0x80deb1fe, 0x9bdc06a7, 0xc19bf174,
   0xe49b69c1, 0xefbe4786, 0x0fc19dc6, 0x240ca1cc, 0x2de92c6f, 0x4a7484aa, 0x5cb0a9dc, 0x76f988da,
   0x983e5152, 0xa831c66d, 0xb00327c8, 0xbf597fc7, 0xc6e00bf3, 0xd5a79147, 0x06ca6351, 0x14292967,
   0x27b70a85, 0x2e1b2138, 0x4d2c6dfc, 0x53380d13, 0x650a7354, 0x766a0abb, 0x81c2c92e, 0x92722c85,
   0xa2bfe8a1, 0xa81a664b, 0xc24b8b70, 0xc76c51a3, 0xd192e819, 0xd6990624, 0xf40e3585, 0x106aa070,
   0x19a4c116, 0x1e376c08, 0x2748774c, 0x34b0bcb5, 0x391c0cb3, 0x4ed8aa4a, 0x5b9cca4f, 0x682e6ff3,
   0x748f82ee, 0x78a5636f, 0x84c87814, 0x8cc70208, 0x90befffa, 0xa4506ceb, 0xbef9a3f7, 0xc67178f2]

def rotr (x n : UInt32) : UInt32 := (x >>> n) ||| (x <<< (32 - n))

/-- A big-endian word. -/
def word : Bytes → UInt32 :=
  List.foldl (fun w b => (w <<< 8) ||| b.toUInt32) 0

def wordBytes (w : UInt32) : Bytes :=
  [(w >>> 24).toUInt8, (w >>> 16).toUInt8, (w >>> 8).toUInt8, w.toUInt8]

/-- Cut a list into pieces of `n`, at most `fuel` of them. -/
def chunks (n : Nat) : Nat → Bytes → List Bytes
  | 0, _ => []
  | fuel + 1, bs => if bs.isEmpty then [] else bs.take n :: chunks n fuel (bs.drop n)

/-- Extend the message schedule, newest word first. -/
def schedule : Nat → List UInt32 → List UInt32
  | 0, ws => ws
  | n + 1, ws =>
    let x := ws.getD 14 0
    let y := ws.getD 1 0
    let s0 := rotr x 7 ^^^ rotr x 18 ^^^ (x >>> 3)
    let s1 := rotr y 17 ^^^ rotr y 19 ^^^ (y >>> 10)
    schedule n ((ws.getD 15 0 + s0 + ws.getD 6 0 + s1) :: ws)

def round (v : Block) (kw : UInt32 × UInt32) : Block :=
  let s1 := rotr v.e 6 ^^^ rotr v.e 11 ^^^ rotr v.e 25
  let ch := (v.e &&& v.f) ^^^ (~~~v.e &&& v.g)
  let t1 := v.h + s1 + ch + kw.1 + kw.2
  let s0 := rotr v.a 2 ^^^ rotr v.a 13 ^^^ rotr v.a 22
  let maj := (v.a &&& v.b) ^^^ (v.a &&& v.c) ^^^ (v.b &&& v.c)
  ⟨t1 + (s0 + maj), v.a, v.b, v.c, v.d + t1, v.e, v.f, v.g⟩

/-- One block of 64 bytes. -/
def compress (v : Block) (block : Bytes) : Block :=
  let ws := (schedule 48 ((chunks 4 16 block).map word).reverse).reverse
  let r := (roundConstants.zip ws).foldl round v
  ⟨v.a + r.a, v.b + r.b, v.c + r.c, v.d + r.d, v.e + r.e, v.f + r.f, v.g + r.g, v.h + r.h⟩

/-- The message, a one bit, zeros, and the length in bits. -/
def pad (msg : Bytes) : Bytes :=
  let zeros := (119 - msg.length % 64) % 64
  let lengthByte (i : Nat) : UInt8 := UInt8.ofNat ((8 * msg.length) >>> (8 * i))
  msg ++ 0x80 :: List.replicate zeros 0 ++ (List.range 8).reverse.map lengthByte

end Sha256

open Sha256 in
def sha256 (msg : Bytes) : Bytes :=
  let padded := pad msg
  let v := (chunks 64 padded.length padded).foldl compress initial
  [v.a, v.b, v.c, v.d, v.e, v.f, v.g, v.h].flatMap wordBytes

theorem length_sha256 (msg : Bytes) : (sha256 msg).length = 32 := rfl

def hmacSha256 (key msg : Bytes) : Bytes :=
  let key := if key.length > 64 then sha256 key else key
  let key := key ++ List.replicate (64 - key.length) 0
  sha256 (key.map (· ^^^ 0x5c) ++ sha256 (key.map (· ^^^ 0x36) ++ msg))

theorem length_hmacSha256 (key msg : Bytes) : (hmacSha256 key msg).length = 32 := rfl

/-- The rounds of one PBKDF2 block: the last value, and the sum so far. -/
def pbkdf2Rounds (password : Bytes) : Nat → Bytes → Bytes → Bytes
  | 0, _, sum => sum
  | n + 1, u, sum =>
    let u := hmacSha256 password u
    pbkdf2Rounds password n u (List.zipWith (· ^^^ ·) sum u)

theorem length_pbkdf2Rounds (password : Bytes) (n : Nat) {u sum : Bytes} (h : sum.length = 32) :
    (pbkdf2Rounds password n u sum).length = 32 := by
  induction n generalizing u sum with
  | zero => exact h
  | succ n ih =>
    refine ih ?_
    rw [List.length_zipWith, h, length_hmacSha256, Nat.min_self]

def pbkdf2Block (password salt : Bytes) (iterations index : Nat) : Bytes :=
  let u := hmacSha256 password (salt ++ Sha256.wordBytes (UInt32.ofNat index))
  pbkdf2Rounds password (iterations - 1) u u

/-- PBKDF2 with HMAC-SHA-256; no key without at least one iteration. -/
def pbkdf2Sha256 (password salt : Bytes) (iterations : Int) (keyLen : Nat) : Bytes :=
  if iterations < 1 then []
  else
    ((List.range ((keyLen + 31) / 32)).flatMap fun i =>
      pbkdf2Block password salt iterations.toNat (i + 1)).take keyLen

theorem length_pbkdf2Sha256 (password salt : Bytes) {iterations : Int} (keyLen : Nat)
    (h : 1 ≤ iterations) : (pbkdf2Sha256 password salt iterations keyLen).length = keyLen := by
  have hblock : ∀ i, (pbkdf2Block password salt iterations.toNat (i + 1)).length = 32 :=
    fun i => length_pbkdf2Rounds password _ (length_hmacSha256 _ _)
  have htotal : ∀ n, ((List.range n).flatMap fun i =>
      pbkdf2Block password salt iterations.toNat (i + 1)).length = 32 * n := by
    intro n
    induction n with
    | zero => rfl
    | succ n ih =>
      rw [List.range_succ, List.flatMap_append, List.length_append, ih, List.flatMap_singleton,
        hblock]
      omega
  rw [pbkdf2Sha256, if_neg (by omega), List.length_take, htotal]
  omega

end TiBackup.Lib
