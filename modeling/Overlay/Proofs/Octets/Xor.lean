import Overlay.Octets

/-! Byte strings laid over each other: what is laid over a string twice is taken away. -/
namespace Overlay

theorem zipWith_xor_xor {text key : Bytes} (covered : text.length ≤ key.length) :
    List.zipWith (· ^^^ ·) (List.zipWith (· ^^^ ·) text key) key = text := by
  induction text generalizing key with
  | nil => simp
  | cons x text ih =>
    cases key with
    | nil => simp at covered
    | cons k key =>
      simp only [List.zipWith_cons_cons, UInt8.xor_assoc, UInt8.xor_self, UInt8.xor_zero]
      rw [ih (by simpa using covered)]

namespace Octets
variable {n : Nat}

theorem xor_comm (a b : Octets n) : a.xor b = b.xor a :=
  Octets.ext (List.zipWith_comm_of_comm UInt8.xor_comm)

theorem xor_xor_cancel_right (a b : Octets n) : (a.xor b).xor b = a :=
  Octets.ext (zipWith_xor_xor (by simp))

theorem xor_right_injective (a : Octets n) {b c : Octets n} (same : a.xor b = a.xor c) :
    b = c := by
  rw [xor_comm a b, xor_comm a c] at same
  rw [← xor_xor_cancel_right b a, same, xor_xor_cancel_right]

end Octets
end Overlay
