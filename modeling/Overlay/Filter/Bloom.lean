import Overlay.Digest

/-! Bloom filters. An entry is sixteen bit positions, read from its digest. A filter
may have a mutator of four bytes, whose digest is laid over that of the entry, so
that filters of the same entries differ. -/
namespace Overlay

inductive FilterError where
  | invalidSize (size : Nat)
  | tooShort (size : Nat)
  deriving DecidableEq, Repr

def FilterError.message : FilterError → String
  | .invalidSize size => s!"Invalid filter size: {size} bytes"
  | .tooShort size => s!"Malformed filter: Filter data too short: {size} bytes"

inductive Comparison where
  | same
  | mergeable
  | different
  deriving DecidableEq, Repr

def Comparison.text : Comparison → String
  | .same => "Same"
  | .mergeable => "Mergeable"
  | .different => "Different"

/-- A filter of as many bits as eight times its bytes. The digest of the mutator is kept
beside it, so that it is not hashed again for every entry. -/
@[ext] structure Bloom where
  bits : Bytes
  mutator : Option (Octets 4)
  mutatorDigest : Option Digest
  deriving DecidableEq

namespace Bloom

def maxResultSize : Nat := 32768

def saturatingMul (a b : Nat) : Nat := min (a * b) (UInt64.size - 1)

/-- The least power of two that reaches `n`, found by doubling `p` at most `steps`
times. -/
def doubled : (steps p n : Nat) → Nat
  | 0, p, _ => p
  | steps + 1, p, n => if n ≤ p then p else doubled steps (2 * p) n

/-- The least power of two that reaches a number of 64 bits, if it has no more of
them. -/
def nextPowerOfTwo? (n : Nat) : Option Nat :=
  let power := doubled 64 1 n
  if power < UInt64.size then some power else none

/-- The size of a filter for an expected number of results: a power of two of at
least eight bytes and at least four for each result, as far as the largest size
goes. -/
def sizeFor (expected : Nat) : Nat :=
  let wanted := max (saturatingMul expected 4) 8
  min ((nextPowerOfTwo? wanted).getD maxResultSize) maxResultSize

def size (f : Bloom) : Nat := f.bits.length

def withMutator (f : Bloom) (mutator : Option (Octets 4)) : Bloom :=
  { f with mutator, mutatorDigest := mutator.map fun m => .of m.bytes }

def empty (size : Nat) (mutator : Option (Octets 4)) : Bloom :=
  withMutator ⟨List.replicate size 0, none, none⟩ mutator

def make (size : Nat) (mutator : Option (Octets 4)) : Except FilterError Bloom :=
  if size = 0 then .error (.invalidSize size) else .ok (empty size mutator)

def mutatorOf (n : UInt32) : Octets 4 := BigEndian.octets 4 n.toNat

def entryDigest (f : Bloom) (entry : Bytes) : Octets 64 :=
  match f.mutatorDigest with
  | none => Sha512.hash entry
  | some digest => (Sha512.hash entry).xor digest.octets

def quads : Bytes → List Nat
  | a :: b :: c :: d :: rest => BigEndian.decode [a, b, c, d] :: quads rest
  | _ => []

def positions (f : Bloom) (entry : Bytes) : List Nat :=
  (quads (f.entryDigest entry).bytes).map (· % (8 * f.size))

def mask (position : Nat) : UInt8 := 1 <<< UInt8.ofNat (position % 8)

def setBit (bits : Bytes) (position : Nat) : Bytes :=
  bits.modify (position / 8) (· ||| mask position)

def testBit (bits : Bytes) (position : Nat) : Bool :=
  bits.getD (position / 8) 0 &&& mask position != 0

def add (f : Bloom) (entry : Bytes) : Bloom :=
  { f with bits := (f.positions entry).foldl setBit f.bits }

def contains (f : Bloom) (entry : Bytes) : Bool := (f.positions entry).all (testBit f.bits)

/-- Filters of one size and mutator place every entry alike. -/
def compatible (f g : Bloom) : Bool := f.size == g.size && f.mutator == g.mutator

def merge? (f g : Bloom) : Option Bloom :=
  if f.compatible g then some { f with bits := List.zipWith (· ||| ·) f.bits g.bits } else none

def compare (f g : Bloom) : Comparison :=
  if !f.compatible g then .different
  else if f.bits == g.bits then .same
  else .mergeable

def bytes (f : Bloom) : Bytes := (f.mutator.map Octets.bytes).getD [] ++ f.bits

/-- Reads a filter; whether it has a mutator does not show in the bytes. -/
def decode (hasMutator : Bool) (b : Bytes) : Except FilterError Bloom := do
  let (mutator, bits) ←
    if hasMutator then
      if long : 4 ≤ b.length then pure (some (Octets.slice b 0 4 (by omega)), b.drop 4)
      else throw (.tooShort b.length)
    else pure (none, b)
  let f ← make bits.length none
  return { f with bits }.withMutator mutator

def onesOf (b : UInt8) : Nat := ((List.range 8).filter b.toNat.testBit).length

def countOnes (f : Bloom) : Nat := f.bits.foldl (fun n b => n + onesOf b) 0

def debugText (f : Bloom) : String :=
  let mutator := match f.mutator with
    | none => "None"
    | some m => s!"Some(\"{Hex.encode m.bytes}\")"
  s!"BloomFilter \x7b size: {f.size}, mutator: {mutator}, ones: {f.countOnes} \x7d"

end Bloom
end Overlay
