import VmFleet.Password.Block

/-!
# The password hash Argon2

The password and the salt fill the first two blocks of each lane of a large memory. Every further
block mixes the one before it with an earlier one; which one is read off the data or, where that
would give the password away, off a counter. The digest is drawn from the last blocks.
-/

set_option autoImplicit false

namespace VmFleet.Password

/-- How the blocks that are mixed in are chosen: by the data, by a counter, or by a counter for the
first half of the first pass. -/
inductive Variant where
  | dataDependent
  | independent
  | hybrid
  deriving DecidableEq, Repr

def Variant.name : Variant → String
  | .dataDependent => "argon2d"
  | .independent => "argon2i"
  | .hybrid => "argon2id"

def Variant.number : Variant → UInt64
  | .dataDependent => 0
  | .independent => 1
  | .hybrid => 2

def Variant.ofName? : String → Option Variant
  | "argon2d" => some .dataDependent
  | "argon2i" => some .independent
  | "argon2id" => some .hybrid
  | _ => none

/-- Later passes replace a block in the older version and add to it in the newer one. -/
inductive Version where
  | v16
  | v19
  deriving DecidableEq, Repr

def Version.number : Version → Nat
  | .v16 => 16
  | .v19 => 19

def Version.ofNumber? : Nat → Option Version
  | 16 => some .v16
  | 19 => some .v19
  | _ => none

/-- The costs in memory (blocks), passes and lanes, and the bytes of the digest. -/
structure Cost where
  memory : Nat
  passes : Nat
  lanes : Nat
  size : Nat
  deriving DecidableEq, Repr

/-- At least eight blocks a lane, one pass, one lane. -/
def Cost.isValid (c : Cost) : Bool :=
  8 ≤ c.memory && c.lanes * 8 ≤ c.memory && 1 ≤ c.passes && 1 ≤ c.lanes && c.lanes ≤ 0xffffff &&
  4 ≤ c.size

structure Scheme where
  variant : Variant
  version : Version
  cost : Cost
  deriving DecidableEq, Repr

namespace Scheme

def segment (s : Scheme) : Nat := s.cost.memory / (4 * s.cost.lanes)

def laneLength (s : Scheme) : Nat := 4 * s.segment

end Scheme

def le32 (n : Nat) : List UInt8 := Blake2b.bytesOfWord 4 n.toUInt64

def sized (bytes : List UInt8) : List UInt8 := le32 bytes.length ++ bytes

/-- Digests that are longer than the hash function's own: halves of a chain of digests. -/
def chain : Nat → Nat → List UInt8 → List UInt8
  | 0, size, v => Blake2b.digest size v
  | bound + 1, size, v =>
    if size ≤ 64 then Blake2b.digest size v
    else
      let v := Blake2b.digest 64 v
      v.take 32 ++ chain bound (size - 32) v

def longDigest (size : Nat) (message : List UInt8) : List UInt8 :=
  chain (size / 32) size (le32 size ++ message)

def seed (s : Scheme) (password salt associated : List UInt8) : List UInt8 :=
  Blake2b.digest 64 (le32 s.cost.lanes ++ le32 s.cost.size ++ le32 s.cost.memory ++
    le32 s.cost.passes ++ le32 s.version.number ++ le32 s.variant.number.toNat ++
    sized password ++ sized salt ++ le32 0 ++ sized associated)

structure Position where
  pass : Nat
  slice : Nat
  lane : Nat

def Position.isIndependent (p : Position) : Variant → Bool
  | .dataDependent => false
  | .independent => true
  | .hybrid => p.pass = 0 && p.slice < 2

/-- The counter block that addresses are drawn from, at its `n`th use. -/
def addressInput (s : Scheme) (p : Position) (n : Nat) : Block :=
  .ofWords ([p.pass.toUInt64, p.lane.toUInt64, p.slice.toUInt64,
    (s.laneLength * s.cost.lanes).toUInt64, s.cost.passes.toUInt64, s.variant.number,
    n.toUInt64] ++ List.replicate 121 0)

def addresses (s : Scheme) (p : Position) (n : Nat) : Array UInt64 :=
  (Block.zero.compress (Block.zero.compress (addressInput s p n))).words.toArray

/-- How many blocks may be mixed in: those that are complete and not the one just before. -/
def areaSize (s : Scheme) (p : Position) (sameLane : Bool) (block : Nat) : Nat :=
  let complete := if p.pass = 0 then p.slice * s.segment else s.laneLength - s.segment
  if sameLane then complete + block - 1
  else if block = 0 then complete - 1 else complete

/-- The place in the memory of the block to mix in. -/
def reference (s : Scheme) (p : Position) (block : Nat) (random : UInt64) : Nat :=
  let lane := if p.pass = 0 && p.slice = 0 then p.lane
    else (random >>> 32).toNat % s.cost.lanes
  let area := areaSize s p (lane = p.lane) block
  let low := random &&& 0xffffffff
  let square := (low * low) >>> 32
  let back := ((area.toUInt64 * square) >>> 32).toNat
  let start := if p.pass ≠ 0 && p.slice ≠ 3 then (p.slice + 1) * s.segment else 0
  lane * s.laneLength + (start + (area - 1 - back)) % s.laneLength

/-- Fills `count` blocks from the given one on; `drawn` holds the current addresses. -/
def fillBlocks (s : Scheme) (p : Position) (independent : Bool) :
    Nat → Nat → Array UInt64 → Array Block → Array Block
  | 0, _, _, memory => memory
  | count + 1, block, drawn, memory =>
    let current := p.lane * s.laneLength + p.slice * s.segment + block
    let previous := if p.slice = 0 && block = 0 then current + s.laneLength - 1 else current - 1
    let drawn :=
      if independent && block % 128 = 0 then addresses s p (block / 128 + 1) else drawn
    let before := memory.getD previous .zero
    let random := if independent then drawn.getD (block % 128) 0 else before.r0.w0
    let fresh := before.compress (memory.getD (reference s p block random) .zero)
    let fresh := if s.version = .v16 || p.pass = 0 then fresh
      else fresh.xor (memory.getD current .zero)
    fillBlocks s p independent count (block + 1) drawn (memory.setIfInBounds current fresh)

def fillSegment (s : Scheme) (p : Position) (memory : Array Block) : Array Block :=
  let independent := p.isIndependent s.variant
  let first := if p.pass = 0 && p.slice = 0 then 2 else 0
  let drawn := if independent && first = 2 then addresses s p 1 else #[]
  fillBlocks s p independent (s.segment - first) first drawn memory

def positions (s : Scheme) : List Position :=
  (List.range s.cost.passes).flatMap fun pass =>
    (List.range 4).flatMap fun slice =>
      (List.range s.cost.lanes).map fun lane => ⟨pass, slice, lane⟩

def firstBlocks (s : Scheme) (start : List UInt8) : Array Block :=
  (List.range s.cost.lanes).foldl (fun memory lane =>
    [0, 1].foldl (fun memory i => memory.setIfInBounds (lane * s.laneLength + i)
      (.ofBytes (longDigest 1024 (start ++ le32 i ++ le32 lane)))) memory)
    (Array.replicate (s.laneLength * s.cost.lanes) Block.zero)

/-- The digest of a password under a salt; `associated` is data mixed in beside them. -/
def argon2 (s : Scheme) (password salt associated : List UInt8) : List UInt8 :=
  let memory := (positions s).foldl (fun memory p => fillSegment s p memory)
    (firstBlocks s (seed s password salt associated))
  let last := (List.range s.cost.lanes).foldl
    (fun acc lane => acc.xor (memory.getD ((lane + 1) * s.laneLength - 1) .zero)) Block.zero
  longDigest s.cost.size last.bytes

end VmFleet.Password
