import Overlay.Crypto.Sha512
import Overlay.Octets.Hex
import Overlay.Text.Crockford

/-! Digests of 64 bytes, which also serve as routing keys, and the distance between
two of them: their exclusive or, read as a big-endian number. -/
namespace Overlay

structure Digest where
  octets : Octets 64
  deriving DecidableEq

namespace Digest

abbrev bytes (d : Digest) : Bytes := d.octets.bytes

def of (data : Bytes) : Digest := ⟨Sha512.hash data⟩

def ofBytes? (b : Bytes) : Option Digest := (Octets.ofBytes? 64 b).map Digest.mk

def text (d : Digest) : String := Text.Crockford.encode d.bytes

def debugText (d : Digest) : String :=
  s!"HashCode({String.ofList ((Text.Crockford.encodeChars d.bytes).take 8)}...)"

end Digest

structure Distance where
  octets : Octets 64
  deriving DecidableEq

def Digest.distance (a b : Digest) : Distance := ⟨a.octets.xor b.octets⟩

namespace Distance

abbrev bytes (d : Distance) : Bytes := d.octets.bytes

/-- The zero bits in front of the first one bit of a byte string. -/
def leadingZeroBits : Bytes → Nat
  | [] => 0
  | b :: rest => if b = 0 then 8 + leadingZeroBits rest else 7 - b.toNat.log2

def leadingZeros (d : Distance) : Nat := leadingZeroBits d.bytes

/-- Distances are compared at the first byte in which they differ. -/
def compare (a b : Distance) : Ordering := Ord.compare a.bytes b.bytes

def debugText (d : Distance) : String := s!"Distance({Hex.encode (d.bytes.take 8)})"

end Distance
end Overlay
