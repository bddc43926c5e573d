import VmFleet.Password.Blake2b

/-!
# Memory blocks of the password hash

A block is 128 words, seen as eight rows of sixteen. Mixing two blocks permutes the words of each
row, then the words of each column of pairs, and adds what went in.
-/

set_option autoImplicit false

namespace VmFleet.Password

structure Row where
  w0 : UInt64
  w1 : UInt64
  w2 : UInt64
  w3 : UInt64
  w4 : UInt64
  w5 : UInt64
  w6 : UInt64
  w7 : UInt64
  w8 : UInt64
  w9 : UInt64
  w10 : UInt64
  w11 : UInt64
  w12 : UInt64
  w13 : UInt64
  w14 : UInt64
  w15 : UInt64

structure Block where
  r0 : Row
  r1 : Row
  r2 : Row
  r3 : Row
  r4 : Row
  r5 : Row
  r6 : Row
  r7 : Row

namespace Row

def zero : Row := ⟨0, 0, 0, 0, 0, 0, 0, 0, 0, 0, 0, 0, 0, 0, 0, 0⟩

def xor (a b : Row) : Row :=
  ⟨a.w0 ^^^ b.w0, a.w1 ^^^ b.w1, a.w2 ^^^ b.w2, a.w3 ^^^ b.w3,
   a.w4 ^^^ b.w4, a.w5 ^^^ b.w5, a.w6 ^^^ b.w6, a.w7 ^^^ b.w7,
   a.w8 ^^^ b.w8, a.w9 ^^^ b.w9, a.w10 ^^^ b.w10, a.w11 ^^^ b.w11,
   a.w12 ^^^ b.w12, a.w13 ^^^ b.w13, a.w14 ^^^ b.w14, a.w15 ^^^ b.w15⟩

def words (a : Row) : List UInt64 :=
  [a.w0, a.w1, a.w2, a.w3, a.w4, a.w5, a.w6, a.w7,
   a.w8, a.w9, a.w10, a.w11, a.w12, a.w13, a.w14, a.w15]

def ofWords : List UInt64 → Row
  | [a, b, c, d, e, f, g, h, i, j, k, l, m, n, o, p] =>
    ⟨a, b, c, d, e, f, g, h, i, j, k, l, m, n, o, p⟩
  | _ => zero

/-- The sum of two words and twice the product of their lower halves. -/
@[inline] def blend (x y : UInt64) : UInt64 :=
  x + y + 2 * (x &&& 0xffffffff) * (y &&& 0xffffffff)

@[inline] def turn (x : UInt64) (n : UInt64) : UInt64 := (x >>> n) ||| (x <<< (64 - n))

structure Quad where
  a : UInt64
  b : UInt64
  c : UInt64
  d : UInt64

@[inline] def mix (a b c d : UInt64) : Quad :=
  let a := blend a b
  let d := turn (d ^^^ a) 32
  let c := blend c d
  let b := turn (b ^^^ c) 24
  let a := blend a b
  let d := turn (d ^^^ a) 16
  let c := blend c d
  let b := turn (b ^^^ c) 63
  ⟨a, b, c, d⟩

/-- One round on sixteen words: the columns of their four by four square, then its diagonals. -/
def permute (r : Row) : Row :=
  let p := mix r.w0 r.w4 r.w8 r.w12
  let q := mix r.w1 r.w5 r.w9 r.w13
  let s := mix r.w2 r.w6 r.w10 r.w14
  let t := mix r.w3 r.w7 r.w11 r.w15
  let e := mix p.a q.b s.c t.d
  let f := mix q.a s.b t.c p.d
  let g := mix s.a t.b p.c q.d
  let h := mix t.a p.b q.c s.d
  ⟨e.a, f.a, g.a, h.a, h.b, e.b, f.b, g.b, g.c, h.c, e.c, f.c, f.d, g.d, h.d, e.d⟩

end Row

namespace Block

def zero : Block := ⟨.zero, .zero, .zero, .zero, .zero, .zero, .zero, .zero⟩

instance : Inhabited Block := ⟨zero⟩

def xor (a b : Block) : Block :=
  ⟨a.r0.xor b.r0, a.r1.xor b.r1, a.r2.xor b.r2, a.r3.xor b.r3,
   a.r4.xor b.r4, a.r5.xor b.r5, a.r6.xor b.r6, a.r7.xor b.r7⟩

def words (a : Block) : List UInt64 :=
  a.r0.words ++ a.r1.words ++ a.r2.words ++ a.r3.words ++
  a.r4.words ++ a.r5.words ++ a.r6.words ++ a.r7.words

def ofWords (ws : List UInt64) : Block :=
  let row (i : Nat) : Row := .ofWords ((ws.drop (16 * i)).take 16)
  ⟨row 0, row 1, row 2, row 3, row 4, row 5, row 6, row 7⟩

def ofBytes (bytes : List UInt8) : Block := ofWords (Blake2b.wordsOfBlock 128 bytes)

def bytes (a : Block) : List UInt8 := a.words.flatMap (Blake2b.bytesOfWord 8)

def permuteRows (a : Block) : Block :=
  ⟨a.r0.permute, a.r1.permute, a.r2.permute, a.r3.permute,
   a.r4.permute, a.r5.permute, a.r6.permute, a.r7.permute⟩

/-- The eight by eight square of pairs of words, flipped at its diagonal. -/
def transpose (a : Block) : Block :=
  let ⟨r0, r1, r2, r3, r4, r5, r6, r7⟩ := a
  ⟨⟨r0.w0, r0.w1, r1.w0, r1.w1, r2.w0, r2.w1, r3.w0, r3.w1,
    r4.w0, r4.w1, r5.w0, r5.w1, r6.w0, r6.w1, r7.w0, r7.w1⟩,
   ⟨r0.w2, r0.w3, r1.w2, r1.w3, r2.w2, r2.w3, r3.w2, r3.w3,
    r4.w2, r4.w3, r5.w2, r5.w3, r6.w2, r6.w3, r7.w2, r7.w3⟩,
   ⟨r0.w4, r0.w5, r1.w4, r1.w5, r2.w4, r2.w5, r3.w4, r3.w5,
    r4.w4, r4.w5, r5.w4, r5.w5, r6.w4, r6.w5, r7.w4, r7.w5⟩,
   ⟨r0.w6, r0.w7, r1.w6, r1.w7, r2.w6, r2.w7, r3.w6, r3.w7,
    r4.w6, r4.w7, r5.w6, r5.w7, r6.w6, r6.w7, r7.w6, r7.w7⟩,
   ⟨r0.w8, r0.w9, r1.w8, r1.w9, r2.w8, r2.w9, r3.w8, r3.w9,
    r4.w8, r4.w9, r5.w8, r5.w9, r6.w8, r6.w9, r7.w8, r7.w9⟩,
   ⟨r0.w10, r0.w11, r1.w10, r1.w11, r2.w10, r2.w11, r3.w10, r3.w11,
    r4.w10, r4.w11, r5.w10, r5.w11, r6.w10, r6.w11, r7.w10, r7.w11⟩,
   ⟨r0.w12, r0.w13, r1.w12, r1.w13, r2.w12, r2.w13, r3.w12, r3.w13,
    r4.w12, r4.w13, r5.w12, r5.w13, r6.w12, r6.w13, r7.w12, r7.w13⟩,
   ⟨r0.w14, r0.w15, r1.w14, r1.w15, r2.w14, r2.w15, r3.w14, r3.w15,
    r4.w14, r4.w15, r5.w14, r5.w15, r6.w14, r6.w15, r7.w14, r7.w15⟩⟩

def compress (a b : Block) : Block :=
  let sum := a.xor b
  sum.xor sum.permuteRows.transpose.permuteRows.transpose

end Block
end VmFleet.Password
