import CrossChain.ForStd.Bytes

/-!
# SHA-256 and RIPEMD-160

Both functions on 32-bit words held as numbers below 2^32, so that the kernel
evaluates them on concrete messages.
-/

namespace Digest

def add32 (a b : Nat) : Nat := (a + b) % 0x100000000

def not32 (x : Nat) : Nat := 0xffffffff - x

def rotl (n x : Nat) : Nat := (x <<< n) % 0x100000000 ||| x >>> (32 - n)

def rotr (n x : Nat) : Nat := rotl (32 - n) x

/-- The first `n` chunks of `k` bytes. -/
def chunks (k : Nat) : Nat → Bytes → List Bytes
  | 0, _ => []
  | n + 1, b => b.take k :: chunks k n (b.drop k)

/-- The message, the byte 0x80, zeros and the length in bits, in blocks of 64 bytes. -/
def blocks (lengthBytes : Nat → Bytes) (b : Bytes) : List Bytes :=
  let padded := b ++ 0x80 :: List.replicate ((119 - b.length % 64) % 64) 0 ++
    lengthBytes (8 * b.length)
  chunks 64 (padded.length / 64) padded

/-! ## SHA-256 -/

def toBE (k n : Nat) : Bytes := (Bytes.toLE k n).reverse

def ofBE (b : Bytes) : Nat := Bytes.ofLE b.reverse

def sha256K : List Nat :=
  [0x428a2f98, 0x71374491, 0xb5c0fbcf, 0xe9b5dba5, 0x3956c25b, 0x59f111f1, 0x923f82a4, 0xab1c5ed5,
   0xd807aa98, 0x12835b01, 0x243185be, 0x550c7dc3, 0x72be5d74, 0x80deb1fe, 0x9bdc06a7, 0xc19bf174,
   0xe49b69c1, 0xefbe4786, 0x0fc19dc6, 0x240ca1cc, 0x2de92c6f, 0x4a7484aa, 0x5cb0a9dc, 0x76f988da,
   0x983e5152, 0xa831c66d, 0xb00327c8, 0xbf597fc7, 0xc6e00bf3, 0xd5a79147, 0x06ca6351, 0x14292967,
   0x27b70a85, 0x2e1b2138, 0x4d2c6dfc, 0x53380d13, 0x650a7354, 0x766a0abb, 0x81c2c92e, 0x92722c85,
   0xa2bfe8a1, 0xa81a664b, 0xc24b8b70, 0xc76c51a3, 0xd192e819, 0xd6990624, 0xf40e3585, 0x106aa070,
   0x19a4c116, 0x1e376c08, 0x2748774c, 0x34b0bcb5, 0x391c0cb3, 0x4ed8aa4a, 0x5b9cca4f, 0x682e6ff3,
   0x748f82ee, 0x78a5636f, 0x84c87814, 0x8cc70208, 0x90befffa, 0xa4506ceb, 0xbef9a3f7, 0xc67178f2]

/-- The message schedule, from a window of its last 16 words. -/
def sha256Schedule : Nat → List Nat → List Nat
  | n + 1, w :: ws =>
    let s0 := let x := ws.getD 0 0; rotr 7 x ^^^ rotr 18 x ^^^ x >>> 3
    let s1 := let x := ws.getD 13 0; rotr 17 x ^^^ rotr 19 x ^^^ x >>> 10
    w :: sha256Schedule n (ws ++ [(w + s0 + ws.getD 8 0 + s1) % 0x100000000])
  | _, _ => []

/-- One round, for a constant and a word of the schedule. -/
def sha256Round (s : List Nat) (kw : Nat × Nat) : List Nat :=
  match s with
  | [a, b, c, d, e, f, g, h] =>
    let s1 := rotr 6 e ^^^ rotr 11 e ^^^ rotr 25 e
    let ch := (e &&& f) ^^^ (not32 e &&& g)
    let t1 := h + s1 + ch + kw.1 + kw.2
    let s0 := rotr 2 a ^^^ rotr 13 a ^^^ rotr 22 a
    let maj := (a &&& b) ^^^ (a &&& c) ^^^ (b &&& c)
    [add32 t1 (s0 + maj), a, b, c, add32 d t1, e, f, g]
  | s => s

def sha256Block (s : List Nat) (block : Bytes) : List Nat :=
  let schedule := sha256Schedule 64 ((chunks 4 16 block).map ofBE)
  List.zipWith add32 s ((sha256K.zip schedule).foldl sha256Round s)

/-- SHA-256. -/
def sha256 (b : Bytes) : Bytes :=
  ((blocks (toBE 8) b).foldl sha256Block
    [0x6a09e667, 0xbb67ae85, 0x3c6ef372, 0xa54ff53a,
     0x510e527f, 0x9b05688c, 0x1f83d9ab, 0x5be0cd19]).flatMap (toBE 4)

example : sha256 "abc".toUTF8.toList =
    [0xba, 0x78, 0x16, 0xbf, 0x8f, 0x01, 0xcf, 0xea, 0x41, 0x41, 0x40, 0xde, 0x5d, 0xae, 0x22, 0x23,
     0xb0, 0x03, 0x61, 0xa3, 0x96, 0x17, 0x7a, 0x9c, 0xb4, 0x10, 0xff, 0x61, 0xf2, 0x00, 0x15,
     0xad] := by
  decide +kernel

/-! ## RIPEMD-160 -/

/-- The rounds of one line: message word, rotation. -/
def ripemdLeft : List (Nat × Nat) :=
  List.zip
    [0, 1, 2, 3, 4, 5, 6, 7, 8, 9, 10, 11, 12, 13, 14, 15,
     7, 4, 13, 1, 10, 6, 15, 3, 12, 0, 9, 5, 2, 14, 11, 8,
     3, 10, 14, 4, 9, 15, 8, 1, 2, 7, 0, 6, 13, 11, 5, 12,
     1, 9, 11, 10, 0, 8, 12, 4, 13, 3, 7, 15, 14, 5, 6, 2,
     4, 0, 5, 9, 7, 12, 2, 10, 14, 1, 3, 8, 11, 6, 15, 13]
    [11, 14, 15, 12, 5, 8, 7, 9, 11, 13, 14, 15, 6, 7, 9, 8,
     7, 6, 8, 13, 11, 9, 7, 15, 7, 12, 15, 9, 11, 7, 13, 12,
     11, 13, 6, 7, 14, 9, 13, 15, 14, 8, 13, 6, 5, 12, 7, 5,
     11, 12, 14, 15, 14, 15, 9, 8, 9, 14, 5, 6, 8, 6, 5, 12,
     9, 15, 5, 11, 6, 8, 13, 12, 5, 12, 13, 14, 11, 8, 5, 6]

def ripemdRight : List (Nat × Nat) :=
  List.zip
    [5, 14, 7, 0, 9, 2, 11, 4, 13, 6, 15, 8, 1, 10, 3, 12,
     6, 11, 3, 7, 0, 13, 5, 10, 14, 15, 8, 12, 4, 9, 1, 2,
     15, 5, 1, 3, 7, 14, 6, 9, 11, 8, 12, 2, 10, 0, 4, 13,
     8, 6, 4, 1, 3, 11, 15, 0, 5, 12, 2, 13, 9, 7, 10, 14,
     12, 15, 10, 4, 1, 5, 8, 7, 6, 2, 13, 14, 0, 3, 9, 11]
    [8, 9, 9, 11, 13, 15, 15, 5, 7, 7, 8, 11, 14, 14, 12, 6,
     9, 13, 15, 7, 12, 8, 9, 11, 7, 7, 12, 7, 6, 15, 13, 11,
     9, 7, 15, 11, 8, 6, 6, 14, 12, 13, 5, 14, 13, 13, 7, 5,
     15, 5, 8, 11, 14, 14, 6, 14, 6, 9, 12, 9, 12, 5, 15, 8,
     8, 5, 12, 9, 12, 5, 14, 6, 8, 13, 6, 5, 15, 13, 11, 11]

/-- The Boolean functions of the five groups of rounds. -/
def ripemdF (j x y z : Nat) : Nat :=
  match j with
  | 0 => x ^^^ y ^^^ z
  | 1 => (x &&& y) ||| (not32 x &&& z)
  | 2 => (x ||| not32 y) ^^^ z
  | 3 => (x &&& z) ||| (y &&& not32 z)
  | _ => x ^^^ (y ||| not32 z)

/-- One line over a block: the groups' functions and constants, 16 rounds each. -/
def ripemdLine (f : Nat → Nat) (k : List Nat) (line : List (Nat × Nat)) (x s : List Nat) :
    List Nat :=
  (line.zipIdx).foldl
    (fun s ((r, rot), i) =>
      match s with
      | [a, b, c, d, e] =>
        let t := (a + ripemdF (f (i / 16)) b c d + x.getD r 0 + k.getD (i / 16) 0) % 0x100000000
        [e, add32 (rotl rot t) e, b, rotl 10 c, d]
      | s => s)
    s

def ripemd160Block (s : List Nat) (block : Bytes) : List Nat :=
  let x := (chunks 4 16 block).map Bytes.ofLE
  let left := ripemdLine id [0, 0x5a827999, 0x6ed9eba1, 0x8f1bbcdc, 0xa953fd4e] ripemdLeft x s
  let right :=
    ripemdLine (4 - ·) [0x50a28be6, 0x5c4dd124, 0x6d703ef3, 0x7a6d76e9, 0] ripemdRight x s
  match s, left, right with
  | [h0, h1, h2, h3, h4], [a, b, c, d, e], [a', b', c', d', e'] =>
    [(h1 + c + d') % 0x100000000, (h2 + d + e') % 0x100000000, (h3 + e + a') % 0x100000000,
     (h4 + a + b') % 0x100000000, (h0 + b + c') % 0x100000000]
  | _, _, _ => s

/-- RIPEMD-160. -/
def ripemd160 (b : Bytes) : Bytes :=
  ((blocks (Bytes.toLE 8) b).foldl ripemd160Block
    [0x67452301, 0xefcdab89, 0x98badcfe, 0x10325476, 0xc3d2e1f0]).flatMap (Bytes.toLE 4)

example : ripemd160 "abc".toUTF8.toList =
    [0x8e, 0xb2, 0x08, 0xf7, 0xe0, 0x5d, 0x98, 0x7a, 0x9b, 0x04, 0x4a, 0x8e, 0x98, 0xc6, 0xb0, 0x87,
     0xf1, 0x5a, 0x0b, 0xfc] := by
  decide +kernel

end Digest
