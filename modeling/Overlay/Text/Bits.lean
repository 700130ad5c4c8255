import Overlay.Octets

/-! Numbers as bit strings of a given width, most significant bit first, and the
regrouping of bit strings into numbers of another width. -/
namespace Overlay.Text.Bits

def ofNat : (width : Nat) → (n : Nat) → List Bool
  | 0, _ => []
  | width + 1, n => ofNat width (n / 2) ++ [n % 2 == 1]

def toNat (bits : List Bool) : Nat := bits.foldl (fun n bit => 2 * n + bit.toNat) 0

@[simp] theorem length_ofNat (width n : Nat) : (ofNat width n).length = width := by
  induction width generalizing n with
  | zero => rfl
  | succ width ih => simp [ofNat, ih]

/-- The five-bit groups of a bit string; a short last group is filled up with
zeros. -/
def fives : List Bool → List Nat
  | a :: b :: c :: d :: e :: rest => toNat [a, b, c, d, e] :: fives rest
  | [] => []
  | [a] => [toNat [a, false, false, false, false]]
  | [a, b] => [toNat [a, b, false, false, false]]
  | [a, b, c] => [toNat [a, b, c, false, false]]
  | [a, b, c, d] => [toNat [a, b, c, d, false]]

/-- The bytes of a bit string, and the bits that are left over when fewer than
eight remain. -/
def bytes : List Bool → Bytes × List Bool
  | a :: b :: c :: d :: e :: f :: g :: h :: rest =>
    let (more, left) := bytes rest
    (UInt8.ofNat (toNat [a, b, c, d, e, f, g, h]) :: more, left)
  | left => ([], left)

end Overlay.Text.Bits
