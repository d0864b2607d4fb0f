/-! The 128-bit hash XXH3 with seed 0. Words are read little-endian; there is one recipe for each range of
input lengths. -/
namespace CodeWorkspace.Digest.Xxh3

/-- The two halves of a result or of a product. -/
structure Wide where
  high : UInt64
  low : UInt64
  deriving DecidableEq, Repr, Inhabited

def prime32a : UInt64 := 0x9E3779B1
def prime32b : UInt64 := 0x85EBCA77
def prime32c : UInt64 := 0xC2B2AE3D
def prime64a : UInt64 := 0x9E3779B185EBCA87
def prime64b : UInt64 := 0xC2B2AE3D27D4EB4F
def prime64c : UInt64 := 0x165667B19E3779F9
def prime64d : UInt64 := 0x85EBCA77C2B2AE63
def prime64e : UInt64 := 0x27D4EB2F165667C5
def mixPrimeA : UInt64 := 0x165667919E3779F9
def mixPrimeB : UInt64 := 0x9FB21C651E98DF25

/-- The 192 bytes that every recipe mixes in. -/
def secret : Array UInt8 := #[
  0xb8, 0xfe, 0x6c, 0x39, 0x23, 0xa4, 0x4b, 0xbe, 0x7c, 0x01, 0x81, 0x2c, 0xf7, 0x21, 0xad, 0x1c,
  0xde, 0xd4, 0x6d, 0xe9, 0x83, 0x90, 0x97, 0xdb, 0x72, 0x40, 0xa4, 0xa4, 0xb7, 0xb3, 0x67, 0x1f,
  0xcb, 0x79, 0xe6, 0x4e, 0xcc, 0xc0, 0xe5, 0x78, 0x82, 0x5a, 0xd0, 0x7d, 0xcc, 0xff, 0x72, 0x21,
  0xb8, 0x08, 0x46, 0x74, 0xf7, 0x43, 0x24, 0x8e, 0xe0, 0x35, 0x90, 0xe6, 0x81, 0x3a, 0x26, 0x4c,
  0x3c, 0x28, 0x52, 0xbb, 0x91, 0xc3, 0x00, 0xcb, 0x88, 0xd0, 0x65, 0x8b, 0x1b, 0x53, 0x2e, 0xa3,
  0x71, 0x64, 0x48, 0x97, 0xa2, 0x0d, 0xf9, 0x4e, 0x38, 0x19, 0xef, 0x46, 0xa9, 0xde, 0xac, 0xd8,
  0xa8, 0xfa, 0x76, 0x3f, 0xe3, 0x9c, 0x34, 0x3f, 0xf9, 0xdc, 0xbb, 0xc7, 0xc7, 0x0b, 0x4f, 0x1d,
  0x8a, 0x51, 0xe0, 0x4b, 0xcd, 0xb4, 0x59, 0x31, 0xc8, 0x9f, 0x7e, 0xc9, 0xd9, 0x78, 0x73, 0x64,
  0xea, 0xc5, 0xac, 0x83, 0x34, 0xd3, 0xeb, 0xc3, 0xc5, 0x81, 0xa0, 0xff, 0xfa, 0x13, 0x63, 0xeb,
  0x17, 0x0d, 0xdd, 0x51, 0xb7, 0xf0, 0xda, 0x49, 0xd3, 0x16, 0x55, 0x26, 0x29, 0xd4, 0x68, 0x9e,
  0x2b, 0x16, 0xbe, 0x58, 0x7d, 0x47, 0xa1, 0xfc, 0x8f, 0xf8, 0xb8, 0xd1, 0x7a, 0xd0, 0x31, 0xce,
  0x45, 0xcb, 0x3a, 0x8f, 0x95, 0x16, 0x04, 0x28, 0xaf, 0xd7, 0xfb, 0xca, 0xbb, 0x4b, 0x40, 0x7e]

def byte (data : Array UInt8) (i : Nat) : UInt64 := (data[i]?.getD 0).toUInt64

def word32 (data : Array UInt8) (i : Nat) : UInt64 :=
  byte data i ||| byte data (i + 1) <<< 8 ||| byte data (i + 2) <<< 16 ||| byte data (i + 3) <<< 24

def word64 (data : Array UInt8) (i : Nat) : UInt64 :=
  word32 data i ||| word32 data (i + 4) <<< 32

def low32 (x : UInt64) : UInt64 := x &&& 0xFFFFFFFF

def byteOf (x : UInt64) (n : UInt64) : UInt64 := x >>> n &&& (0xFF : UInt64)

/-- The bytes of a 32-bit word in reverse. -/
def swap32 (x : UInt64) : UInt64 :=
  byteOf x 0 <<< 24 ||| byteOf x 8 <<< 16 ||| byteOf x 16 <<< 8 ||| byteOf x 24

def swap64 (x : UInt64) : UInt64 := swap32 (low32 x) <<< 32 ||| swap32 (x >>> 32)

def rotate32 (x : UInt64) (n : UInt64) : UInt64 := low32 (x <<< n) ||| low32 x >>> (32 - n)

def product (a b : UInt64) : Wide :=
  let p := a.toNat * b.toNat
  ⟨UInt64.ofNat (p / UInt64.size), UInt64.ofNat p⟩

def fold (a b : UInt64) : UInt64 :=
  let p := product a b
  p.high ^^^ p.low

def shiftXor (x n : UInt64) : UInt64 := x ^^^ x >>> n

/-- The final mix of inputs of at most 3 bytes. -/
def scatterShort (h : UInt64) : UInt64 :=
  shiftXor (shiftXor (shiftXor h 33 * prime64b) 29 * prime64c) 32

def scatter (h : UInt64) : UInt64 := shiftXor (shiftXor h 37 * mixPrimeA) 32

def hashEmpty : Wide where
  low := scatterShort (word64 secret 64 ^^^ word64 secret 72)
  high := scatterShort (word64 secret 80 ^^^ word64 secret 88)

/-- From 1 to 3 bytes. -/
def hash3 (data : Array UInt8) : Wide :=
  let n := data.size
  let low := byte data 0 <<< 16 ||| byte data (n / 2) <<< 24 ||| byte data (n - 1) |||
    UInt64.ofNat n <<< 8
  let high := rotate32 (swap32 low) 13
  { low := scatterShort (low ^^^ word32 secret 0 ^^^ word32 secret 4)
    high := scatterShort (high ^^^ word32 secret 8 ^^^ word32 secret 12) }

/-- From 4 to 8 bytes. -/
def hash8 (data : Array UInt8) : Wide :=
  let n := data.size
  let word := word32 data 0 + word32 data (n - 4) <<< 32
  let keyed := word ^^^ word64 secret 16 ^^^ word64 secret 24
  let p := product keyed (prime64a + UInt64.ofNat n <<< 2)
  let high := p.high + p.low <<< 1
  let low := p.low ^^^ high >>> 3
  { low := shiftXor (shiftXor low 35 * mixPrimeB) 28
    high := scatter high }

/-- From 9 to 16 bytes. -/
def hash16 (data : Array UInt8) : Wide :=
  let n := data.size
  let first := word64 data 0
  let last := word64 data (n - 8)
  let p := product (first ^^^ last ^^^ word64 secret 32 ^^^ word64 secret 40) prime64a
  let low := p.low + UInt64.ofNat (n - 1) <<< 54
  let last := last ^^^ word64 secret 48 ^^^ word64 secret 56
  let high := p.high + last + low32 last * (prime32b - 1)
  let q := product (low ^^^ swap64 high) prime64b
  { low := scatter q.low
    high := scatter (q.high + high * prime64b) }

def mix16 (data : Array UInt8) (i k : Nat) : UInt64 :=
  fold (word64 data i ^^^ word64 secret k) (word64 data (i + 8) ^^^ word64 secret (k + 8))

/-- Takes in the 16 bytes at `i` and those at `j`, with the secret from `k` on. -/
def mix32 (data : Array UInt8) (acc : Wide) (i j k : Nat) : Wide where
  low := (acc.low + mix16 data i k) ^^^ (word64 data j + word64 data (j + 8))
  high := (acc.high + mix16 data j (k + 16)) ^^^ (word64 data i + word64 data (i + 8))

def settle (length : UInt64) (acc : Wide) : Wide where
  low := scatter (acc.low + acc.high)
  high := 0 - scatter (acc.low * prime64a + acc.high * prime64d + length * prime64b)

/-- From 17 to 128 bytes: pairs of pieces from both ends, the middle first. -/
def hash128 (data : Array UInt8) : Wide :=
  let n := data.size
  let mixIf (p : Prop) [Decidable p] (i k : Nat) (acc : Wide) : Wide :=
    if p then mix32 data acc i (n - 16 - i) k else acc
  let length := UInt64.ofNat n
  settle length <| mixIf True 0 0 <| mixIf (32 < n) 16 32 <| mixIf (64 < n) 32 64 <|
    mixIf (96 < n) 48 96 ⟨0, length * prime64a⟩

/-- From 129 to 240 bytes: pieces of 32 from the front, then the last 32. -/
def hash240 (data : Array UInt8) : Wide :=
  let n := data.size
  let length := UInt64.ofNat n
  let front := (List.range 4).foldl (fun acc i => mix32 data acc (32 * i) (32 * i + 16) (32 * i))
    ⟨0, length * prime64a⟩
  let middle := (List.range (n / 32 - 4)).foldl
    (fun acc i => mix32 data acc (128 + 32 * i) (144 + 32 * i) (3 + 32 * i))
    ⟨scatter front.high, scatter front.low⟩
  settle length (mix32 data middle (n - 16) (n - 32) 103)

/-- Eight lanes take in the 64 bytes at `i`, with the secret from `k` on. Each lane adds its word to its
neighbour and the product of the halves of its keyed word to itself. -/
def accumulate (data : Array UInt8) (lanes : List UInt64) (i k : Nat) : List UInt64 :=
  let words := (List.range 8).map fun n => word64 data (i + 8 * n)
  let swapped := (List.range 8).map fun n => word64 data (i + 8 * (n ^^^ 1))
  let keyed := List.zipWith (· ^^^ ·) words ((List.range 8).map fun n => word64 secret (k + 8 * n))
  List.zipWith (· + ·) (List.zipWith (· + ·) lanes swapped)
    (keyed.map fun x => low32 x * x >>> 32)

def scramble (lanes : List UInt64) : List UInt64 :=
  List.zipWith (fun x n => (shiftXor x 47 ^^^ word64 secret (128 + 8 * n)) * prime32a)
    lanes (List.range 8)

def merge (lanes : List UInt64) (k : Nat) (start : UInt64) : UInt64 :=
  let keyed := List.zipWith (fun x n => x ^^^ word64 secret (k + 8 * n)) lanes (List.range 8)
  let rec pairs : List UInt64 → UInt64
    | a :: b :: rest => fold a b + pairs rest
    | _ => 0
  scatter (start + pairs keyed)

/-- More than 240 bytes: blocks of 16 stripes of 64 bytes, and the last 64 bytes once more. -/
def hashLong (data : Array UInt8) : Wide :=
  let n := data.size
  let stripes (lanes : List UInt64) (start count : Nat) : List UInt64 :=
    (List.range count).foldl (fun lanes s => accumulate data lanes (start + 64 * s) (8 * s)) lanes
  let blocks := (n - 1) / 1024
  let lanes := (List.range blocks).foldl (fun lanes b => scramble (stripes lanes (1024 * b) 16))
    [prime32c, prime64a, prime64b, prime64c, prime64d, prime32b, prime64e, prime32a]
  let lanes := stripes lanes (1024 * blocks) ((n - 1 - 1024 * blocks) / 64)
  let lanes := accumulate data lanes (n - 64) 121
  let length := UInt64.ofNat n
  { low := merge lanes 11 (length * prime64a)
    high := merge lanes 117 (~~~(length * prime64b)) }

def hash (data : Array UInt8) : Wide :=
  let n := data.size
  if n = 0 then hashEmpty
  else if n ≤ 3 then hash3 data
  else if n ≤ 8 then hash8 data
  else if n ≤ 16 then hash16 data
  else if n ≤ 128 then hash128 data
  else if n ≤ 240 then hash240 data
  else hashLong data

end CodeWorkspace.Digest.Xxh3
