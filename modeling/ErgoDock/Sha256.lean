import ErgoDock.Crc

/-! # SHA-256 as the vendored tinycrypt computes it

The streaming interface: `tc_sha256_update` absorbs one byte after the other and compresses
whenever a block of 64 bytes is full, `tc_sha256_final` pads and puts the eight words out.  Of
`leftover` only the bytes absorbed since the last block are kept, the first `leftover_offset` of
the buffer: the others are written before they are read. -/

namespace ErgoDock

/-- The words `iv[0..7]`, which are also the working variables `a..h` of `compress`. -/
structure ShaWords where
  a : UInt32
  b : UInt32
  c : UInt32
  d : UInt32
  e : UInt32
  f : UInt32
  g : UInt32
  h : UInt32
deriving DecidableEq

structure TcSha256 where
  iv : ShaWords
  bitsHashed : UInt64
  leftover : List UInt8

def tcSha256Init : TcSha256 where
  iv := ⟨0x6a09e667, 0xbb67ae85, 0x3c6ef372, 0xa54ff53a, 0x510e527f, 0x9b05688c, 0x1f83d9ab,
    0x5be0cd19⟩
  bitsHashed := 0
  leftover := []

def k256 : List UInt32 := [
  0x428a2f98, 0x71374491, 0xb5c0fbcf, 0xe9b5dba5, 0x3956c25b, 0x59f111f1,
  0x923f82a4, 0xab1c5ed5, 0xd807aa98, 0x12835b01, 0x243185be, 0x550c7dc3,
  0x72be5d74, 0x80deb1fe, 0x9bdc06a7, 0xc19bf174, 0xe49b69c1, 0xefbe4786,
  0x0fc19dc6, 0x240ca1cc, 0x2de92c6f, 0x4a7484aa, 0x5cb0a9dc, 0x76f988da,
  0x983e5152, 0xa831c66d, 0xb00327c8, 0xbf597fc7, 0xc6e00bf3, 0xd5a79147,
  0x06ca6351, 0x14292967, 0x27b70a85, 0x2e1b2138, 0x4d2c6dfc, 0x53380d13,
  0x650a7354, 0x766a0abb, 0x81c2c92e, 0x92722c85, 0xa2bfe8a1, 0xa81a664b,
  0xc24b8b70, 0xc76c51a3, 0xd192e819, 0xd6990624, 0xf40e3585, 0x106aa070,
  0x19a4c116, 0x1e376c08, 0x2748774c, 0x34b0bcb5, 0x391c0cb3, 0x4ed8aa4a,
  0x5b9cca4f, 0x682e6ff3, 0x748f82ee, 0x78a5636f, 0x84c87814, 0x8cc70208,
  0x90befffa, 0xa4506ceb, 0xbef9a3f7, 0xc67178f2]

def rotr (a n : UInt32) : UInt32 := a >>> n ||| a <<< (32 - n)

def bigSigma0 (a : UInt32) : UInt32 := rotr a 2 ^^^ rotr a 13 ^^^ rotr a 22

def bigSigma1 (a : UInt32) : UInt32 := rotr a 6 ^^^ rotr a 11 ^^^ rotr a 25

def sigma0 (a : UInt32) : UInt32 := rotr a 7 ^^^ rotr a 18 ^^^ a >>> 3

def sigma1 (a : UInt32) : UInt32 := rotr a 17 ^^^ rotr a 19 ^^^ a >>> 10

def ch (a b c : UInt32) : UInt32 := (a &&& b) ^^^ (~~~a &&& c)

def maj (a b c : UInt32) : UInt32 := (a &&& b) ^^^ (a &&& c) ^^^ (b &&& c)

def bigEndian (data : List UInt8) (i : ℕ) : UInt32 :=
  (data.getD (4 * i) 0).toUInt32 <<< 24 ||| (data.getD (4 * i + 1) 0).toUInt32 <<< 16 |||
    (data.getD (4 * i + 2) 0).toUInt32 <<< 8 ||| (data.getD (4 * i + 3) 0).toUInt32

/-- The common part of the two loops of `compress`, for round `i` with the word `n`. -/
def ShaWords.round (w : ShaWords) (i : ℕ) (n : UInt32) : ShaWords :=
  let t1 := n + w.h + bigSigma1 w.e + ch w.e w.f w.g + k256.getD i 0
  let t2 := bigSigma0 w.a + maj w.a w.b w.c
  { a := t1 + t2, b := w.a, c := w.b, d := w.c, e := w.d + t1, f := w.e, g := w.f, h := w.g }

/-- The word of the work space that round `i`, 16 or later, replaces. -/
def nextWord (workSpace : List UInt32) (i : ℕ) : UInt32 :=
  workSpace.getD (i % 16) 0 + sigma0 (workSpace.getD ((i + 1) % 16) 0) +
    sigma1 (workSpace.getD ((i + 14) % 16) 0) + workSpace.getD ((i + 9) % 16) 0

def compress (iv : ShaWords) (data : List UInt8) : ShaWords :=
  let workSpace := (List.range 16).map (bigEndian data)
  let first := (List.range 16).foldl (fun w i => w.round i (workSpace.getD i 0)) iv
  let last := ((List.range 48).foldl (fun (p : ShaWords × List UInt32) j =>
    let n := nextWord p.2 (j + 16)
    (p.1.round (j + 16) n, p.2.set (j % 16) n)) (first, workSpace)).1
  { a := iv.a + last.a, b := iv.b + last.b, c := iv.c + last.c, d := iv.d + last.d,
    e := iv.e + last.e, f := iv.f + last.f, g := iv.g + last.g, h := iv.h + last.h }

/-- One round of the loop of `tc_sha256_update`. -/
def TcSha256.absorb (s : TcSha256) (byte : UInt8) : TcSha256 :=
  if (s.leftover ++ [byte]).length ≥ 64 then
    { iv := compress s.iv (s.leftover ++ [byte])
      bitsHashed := s.bitsHashed + 512
      leftover := [] }
  else { s with leftover := s.leftover ++ [byte] }

def tcSha256Update (s : TcSha256) (data : List UInt8) : TcSha256 := data.foldl TcSha256.absorb s

def ShaWords.digest (w : ShaWords) : List UInt8 :=
  [w.a, w.b, w.c, w.d, w.e, w.f, w.g, w.h].flatMap fun t : UInt32 =>
    [(t >>> 24).toUInt8, (t >>> 16).toUInt8, (t >>> 8).toUInt8, t.toUInt8]

def tcSha256Final (s : TcSha256) : List UInt8 :=
  let bits := s.bitsHashed + s.leftover.length.toUInt64 <<< 3
  let marked := s.leftover ++ [0x80]
  let padded : ShaWords × List UInt8 :=
    if marked.length > 56 then
      (compress s.iv (marked ++ List.replicate (64 - marked.length) 0), [])
    else (s.iv, marked)
  let lengthBytes := [bits >>> 56, bits >>> 48, bits >>> 40, bits >>> 32, bits >>> 24, bits >>> 16,
    bits >>> 8, bits].map UInt64.toUInt8
  (compress padded.1 (padded.2 ++ List.replicate (56 - padded.2.length) 0 ++ lengthBytes)).digest

/-- The digest of a message given at once. -/
def sha256 (message : List UInt8) : List UInt8 :=
  tcSha256Final (tcSha256Update tcSha256Init message)

/-- A message may be given in pieces. -/
theorem tcSha256Update_append (s : TcSha256) (xs ys : List UInt8) :
    tcSha256Update (tcSha256Update s xs) ys = tcSha256Update s (xs ++ ys) :=
  List.foldl_append.symm

/-- The digest of the three bytes `abc`. -/
example : sha256 [0x61, 0x62, 0x63] = [
    0xba, 0x78, 0x16, 0xbf, 0x8f, 0x01, 0xcf, 0xea, 0x41, 0x41, 0x40, 0xde, 0x5d, 0xae, 0x22, 0x23,
    0xb0, 0x03, 0x61, 0xa3, 0x96, 0x17, 0x7a, 0x9c, 0xb4, 0x10, 0xff, 0x61, 0xf2, 0x00, 0x15,
    0xad] := by
  decide +kernel

end ErgoDock
