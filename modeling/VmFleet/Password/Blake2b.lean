/-!
# The hash function BLAKE2b

The message is cut into blocks of 128 bytes. Each block is mixed into eight words in twelve rounds;
the words at the end are the digest, as many of their bytes as were asked for at the start.
-/

set_option autoImplicit false

namespace VmFleet.Password.Blake2b

def initialWords : List UInt64 :=
  [0x6a09e667f3bcc908, 0xbb67ae8584caa73b, 0x3c6ef372fe94f82b, 0xa54ff53a5f1d36f1,
   0x510e527fade682d1, 0x9b05688c2b3e6c1f, 0x1f83d9abfb41bd6b, 0x5be0cd19137e2179]

/-- The order in which each round takes the words of the block. -/
def schedule : List (List Nat) :=
  [[0, 1, 2, 3, 4, 5, 6, 7, 8, 9, 10, 11, 12, 13, 14, 15],
   [14, 10, 4, 8, 9, 15, 13, 6, 1, 12, 0, 2, 11, 7, 5, 3],
   [11, 8, 12, 0, 5, 2, 15, 13, 10, 14, 3, 6, 7, 1, 9, 4],
   [7, 9, 3, 1, 13, 12, 11, 14, 2, 6, 5, 10, 4, 0, 15, 8],
   [9, 0, 5, 7, 2, 4, 10, 15, 14, 1, 11, 12, 6, 8, 3, 13],
   [2, 12, 6, 10, 0, 11, 8, 3, 4, 13, 7, 5, 15, 14, 1, 9],
   [12, 5, 1, 15, 14, 13, 4, 10, 0, 7, 6, 3, 9, 2, 8, 11],
   [13, 11, 7, 14, 12, 1, 3, 9, 5, 0, 15, 4, 8, 6, 2, 10],
   [6, 15, 14, 9, 11, 3, 0, 8, 12, 2, 13, 7, 1, 4, 10, 5],
   [10, 2, 8, 4, 7, 6, 1, 5, 15, 11, 9, 14, 3, 12, 13, 0],
   [0, 1, 2, 3, 4, 5, 6, 7, 8, 9, 10, 11, 12, 13, 14, 15],
   [14, 10, 4, 8, 9, 15, 13, 6, 1, 12, 0, 2, 11, 7, 5, 3]]

def rotateRight (x : UInt64) (n : UInt64) : UInt64 := (x >>> n) ||| (x <<< (64 - n))

def word (v : Array UInt64) (i : Nat) : UInt64 := v.getD i 0

def mix (v : Array UInt64) (a b c d : Nat) (x y : UInt64) : Array UInt64 :=
  let va := word v a + word v b + x
  let vd := rotateRight (word v d ^^^ va) 32
  let vc := word v c + vd
  let vb := rotateRight (word v b ^^^ vc) 24
  let va := va + vb + y
  let vd := rotateRight (vd ^^^ va) 16
  let vc := vc + vd
  let vb := rotateRight (vb ^^^ vc) 63
  (((v.setIfInBounds a va).setIfInBounds b vb).setIfInBounds c vc).setIfInBounds d vd

/-- The columns of the state, then its diagonals. -/
def lanes : List (Nat × Nat × Nat × Nat) :=
  [(0, 4, 8, 12), (1, 5, 9, 13), (2, 6, 10, 14), (3, 7, 11, 15),
   (0, 5, 10, 15), (1, 6, 11, 12), (2, 7, 8, 13), (3, 4, 9, 14)]

def pairs : List Nat → List (Nat × Nat)
  | i :: j :: rest => (i, j) :: pairs rest
  | _ => []

def round (block : Array UInt64) (v : Array UInt64) (order : List Nat) : Array UInt64 :=
  (lanes.zip (pairs order)).foldl
    (fun v p => mix v p.1.1 p.1.2.1 p.1.2.2.1 p.1.2.2.2 (word block p.2.1) (word block p.2.2)) v

/-- A word from eight bytes, the lowest first. -/
def wordOfBytes (bytes : List UInt8) : UInt64 :=
  bytes.foldr (fun b acc => acc <<< 8 ||| b.toUInt64) 0

def bytesOfWord (n : Nat) (w : UInt64) : List UInt8 :=
  match n with
  | 0 => []
  | n + 1 => w.toUInt8 :: bytesOfWord n (w >>> 8)

/-- Sixteen words; bytes that are missing count as zero. -/
def wordsOfBlock : Nat → List UInt8 → List UInt64
  | 0, _ => []
  | n + 1, bytes => wordOfBytes (bytes.take 8) :: wordsOfBlock n (bytes.drop 8)

/-- Mixes one block into the state; `count` bytes have been read so far, this block included. -/
def compress (state : List UInt64) (bytes : List UInt8) (count : Nat) (isLast : Bool) :
    List UInt64 :=
  let tail := match initialWords with
    | [a, b, c, d, e, f, g, h] =>
      [a, b, c, d, e ^^^ count.toUInt64, f, if isLast then g ^^^ 0xffffffffffffffff else g, h]
    | _ => []
  let block := (wordsOfBlock 16 bytes).toArray
  let v := schedule.foldl (round block) (state ++ tail).toArray
  let v := v.toList
  List.zipWith (· ^^^ ·) state (List.zipWith (· ^^^ ·) v (v.drop 8))

/-- All blocks; the last one is full or not, and there is one even for no bytes at all. -/
def absorb : Nat → List UInt64 → List UInt8 → Nat → List UInt64
  | 0, state, bytes, count => compress state bytes (count + bytes.length) true
  | bound + 1, state, bytes, count =>
    if bytes.length ≤ 128 then compress state bytes (count + bytes.length) true
    else absorb bound (compress state (bytes.take 128) (count + 128) false) (bytes.drop 128)
      (count + 128)

def digest (size : Nat) (message : List UInt8) : List UInt8 :=
  let start := match initialWords with
    | a :: rest => (a ^^^ 0x01010000 ^^^ size.toUInt64) :: rest
    | [] => []
  ((absorb (message.length / 128) start message 0).flatMap (bytesOfWord 8)).take size

end VmFleet.Password.Blake2b
