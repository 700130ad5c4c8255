import Overlay.Proofs.Digest
import Overlay.Proofs.Octets.Number

/-! Distances are a metric on digests. As numbers of 512 bits they satisfy the triangle inequality,
are compared by size, and have as many leading zeros as they have fewer bits than 512. -/
namespace Overlay

namespace Distance

def toNat (d : Distance) : Nat := BigEndian.decode d.bytes

theorem toNat_injective {d e : Distance} (same : d.toNat = e.toNat) : d = e := by
  obtain ⟨d⟩ := d
  obtain ⟨e⟩ := e
  have sized : d.bytes.length = e.bytes.length := by rw [d.length_bytes, e.length_bytes]
  exact congrArg Distance.mk (Octets.ext (BigEndian.decode_injective sized same))

theorem compare_eq (d e : Distance) : d.compare e = Ord.compare d.toNat e.toNat := by
  apply BigEndian.compare_eq_compare_decode
  rw [d.octets.length_bytes, e.octets.length_bytes]

theorem leadingZeroBits_add_size (b : Bytes) :
    leadingZeroBits b + (BigEndian.decode b).size = 8 * b.length := by
  induction b with
  | nil => rfl
  | cons x rest ih =>
    rw [leadingZeroBits, BigEndian.decode_cons, List.length_cons]
    split
    · next zero =>
      rw [zero, UInt8.toNat_zero, Nat.zero_mul, Nat.zero_add]
      omega
    · next nonzero =>
      have positive : x.toNat ≠ 0 := fun zero => nonzero (UInt8.toNat_inj.1 zero)
      have small : x.toNat.log2 < 8 := (Nat.log2_lt positive).2 x.toNat_lt
      rw [size_mul_two_pow_add positive (BigEndian.decode_lt_two_pow rest),
        size_eq_log2_succ positive]
      omega

theorem leadingZeros_add_size (d : Distance) : d.leadingZeros + d.toNat.size = 512 := by
  rw [leadingZeros, toNat, leadingZeroBits_add_size, d.octets.length_bytes]

/-- A number with fewer bits is less. -/
theorem compare_eq_lt_of_leadingZeros {d e : Distance} (more : e.leadingZeros < d.leadingZeros) :
    d.compare e = .lt := by
  have first := d.leadingZeros_add_size
  have second := e.leadingZeros_add_size
  have shorter : d.toNat.size < e.toNat.size := by omega
  rw [compare_eq, Nat.compare_eq_lt]
  exact Nat.lt_of_lt_of_le (Nat.lt_size_self _) (Nat.lt_size.1 shorter)

end Distance

namespace Digest
variable (a b c : Digest)

theorem toNat_distance :
    (a.distance b).toNat = BigEndian.decode a.bytes ^^^ BigEndian.decode b.bytes := by
  apply BigEndian.decode_zipWith_xor
  rw [a.octets.length_bytes, b.octets.length_bytes]

theorem distance_comm : a.distance b = b.distance a :=
  congrArg Distance.mk (Octets.xor_comm a.octets b.octets)

theorem toNat_distance_self : (a.distance a).toNat = 0 := by
  rw [toNat_distance, Nat.xor_self]

theorem toNat_distance_eq_zero_iff : (a.distance b).toNat = 0 ↔ a = b := by
  constructor
  · intro zero
    apply Eq.symm
    apply a.distance_injective
    apply Distance.toNat_injective
    rw [zero, toNat_distance_self]
  · rintro rfl
    exact toNat_distance_self a

/-- The way over a third digest flips the bits of that digest twice. -/
theorem toNat_distance_trans :
    (a.distance c).toNat = (a.distance b).toNat ^^^ (b.distance c).toNat := by
  rw [toNat_distance, toNat_distance, toNat_distance, ← Nat.xor_assoc, Nat.xor_xor_cancel_right]

theorem leadingZeros_distance_trans :
    min (a.distance b).leadingZeros (b.distance c).leadingZeros ≤
      (a.distance c).leadingZeros := by
  have first := (a.distance b).leadingZeros_add_size
  have second := (b.distance c).leadingZeros_add_size
  have third := (a.distance c).leadingZeros_add_size
  have longest := size_xor_le (a.distance b).toNat (b.distance c).toNat
  rw [← toNat_distance_trans] at longest
  omega

/-- Distances are a metric, and their order and leading zeros those of the numbers. -/
theorem distance_metric :
    a.distance b = b.distance a ∧ ((a.distance b).toNat = 0 ↔ a = b) ∧
      (a.distance b = a.distance c ↔ b = c) ∧
      (a.distance c).toNat ≤ (a.distance b).toNat + (b.distance c).toNat ∧
      (∀ d e : Distance, d.compare e = Ord.compare d.toNat e.toNat) ∧
      (∀ d : Distance, d.leadingZeros + d.toNat.size = 512) ∧
      (∀ d e : Distance, e.leadingZeros < d.leadingZeros → d.compare e = .lt) ∧
      min (a.distance b).leadingZeros (b.distance c).leadingZeros ≤
        (a.distance c).leadingZeros := by
  refine ⟨distance_comm a b, toNat_distance_eq_zero_iff a b, ⟨a.distance_injective, ?equal⟩,
    ?triangle, Distance.compare_eq, Distance.leadingZeros_add_size,
    fun _ _ => Distance.compare_eq_lt_of_leadingZeros, leadingZeros_distance_trans a b c⟩
  case equal =>
    rintro rfl
    rfl
  case triangle =>
    rw [toNat_distance_trans a b c]
    exact xor_le_add _ _

end Digest
end Overlay
