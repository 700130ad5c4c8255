import Overlay.Octets

/-! Numbers as byte strings of a given width, most or least significant byte
first. Numbers that do not fit lose their high bytes. -/
namespace Overlay

namespace BigEndian

/-- The lowest `width` bytes of `n`, most significant first. -/
def encode : (width : Nat) → (n : Nat) → Bytes
  | 0, _ => []
  | width + 1, n => encode width (n / 256) ++ [UInt8.ofNat n]

def decode (b : Bytes) : Nat := b.foldl (fun n x => 256 * n + x.toNat) 0

@[simp] theorem length_encode (width n : Nat) : (encode width n).length = width := by
  induction width generalizing n with
  | zero => rfl
  | succ width ih => simp [encode, ih]

theorem decode_append_singleton (b : Bytes) (x : UInt8) :
    decode (b ++ [x]) = 256 * decode b + x.toNat := by
  simp [decode]

theorem decode_encode (width n : Nat) : decode (encode width n) = n % Nat.pow 256 width := by
  induction width generalizing n with
  | zero => simp [encode, decode, Nat.mod_one]
  | succ width ih =>
    have grow : Nat.pow 256 (width + 1) = 256 * Nat.pow 256 width := Nat.mul_comm ..
    rw [encode, decode_append_singleton, ih, grow, Nat.mod_mul, UInt8.toNat_ofNat']
    omega

def octets (width n : Nat) : Octets width := ⟨encode width n, length_encode width n⟩

end BigEndian

namespace LittleEndian

/-- The lowest `width` bytes of `n`, least significant first. -/
def encode : (width : Nat) → (n : Nat) → Bytes
  | 0, _ => []
  | width + 1, n => UInt8.ofNat n :: encode width (n / 256)

def decode : Bytes → Nat
  | [] => 0
  | x :: rest => x.toNat + 256 * decode rest

@[simp] theorem length_encode (width n : Nat) : (encode width n).length = width := by
  induction width generalizing n with
  | zero => rfl
  | succ width ih => simp [encode, ih]

theorem decode_encode (width n : Nat) : decode (encode width n) = n % Nat.pow 256 width := by
  induction width generalizing n with
  | zero => simp [encode, decode, Nat.mod_one]
  | succ width ih =>
    have grow : Nat.pow 256 (width + 1) = 256 * Nat.pow 256 width := Nat.mul_comm ..
    rw [encode, decode, ih, grow, Nat.mod_mul, UInt8.toNat_ofNat']

def octets (width n : Nat) : Octets width := ⟨encode width n, length_encode width n⟩

end LittleEndian
end Overlay
