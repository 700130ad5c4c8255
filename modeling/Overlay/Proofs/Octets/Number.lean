import Mathlib.Data.Nat.Bitwise
import Mathlib.Data.Nat.Size
import Overlay.Proofs.Octets.Endian

/-! Byte strings as the numbers that they spell, most significant byte first. Strings of one length
are ordered like their numbers, and the exclusive or of two spells that of the numbers. -/
namespace Overlay

theorem xor_le_add (m n : Nat) : m ^^^ n ≤ m + n := by
  induction m using Nat.strongRecOn generalizing n with
  | ind m ih =>
    rcases Nat.eq_zero_or_pos m with rfl | positive
    · rw [Nat.zero_xor, Nat.zero_add]
    · have halves : m / 2 ^^^ n / 2 ≤ m / 2 + n / 2 := ih (m / 2) (by omega) (n / 2)
      have last : (m ^^^ n) % 2 = (m + n) % 2 := Nat.xor_mod_two_eq
      have rest : (m ^^^ n) / 2 = m / 2 ^^^ n / 2 := Nat.xor_div_two
      omega

theorem mul_add_xor {k d e : Nat} (first : d < 2 ^ k) (second : e < 2 ^ k) (m n : Nat) :
    (m ^^^ n) * 2 ^ k + (d ^^^ e) = (m * 2 ^ k + d) ^^^ (n * 2 ^ k + e) := by
  have front (m : Nat) {d : Nat} (small : d < 2 ^ k) : (m * 2 ^ k + d) / 2 ^ k = m := by
    rw [Nat.mul_comm, Nat.mul_add_div (Nat.two_pow_pos k), Nat.div_eq_of_lt small, Nat.add_zero]
  have back (m : Nat) {d : Nat} (small : d < 2 ^ k) : (m * 2 ^ k + d) % 2 ^ k = d := by
    rw [Nat.mul_comm, Nat.mul_add_mod, Nat.mod_eq_of_lt small]
  rw [← Nat.div_add_mod' ((m * 2 ^ k + d) ^^^ (n * 2 ^ k + e)) (2 ^ k), Nat.xor_div_two_pow,
    Nat.xor_mod_two_pow, front m first, front n second, back m first, back n second]

/-- The bits in front decide the order, unless they are equal. -/
theorem compare_mul_add {k d e : Nat} (first : d < 2 ^ k) (second : e < 2 ^ k) (m n : Nat) :
    compare (m * 2 ^ k + d) (n * 2 ^ k + e) = (compare m n).then (compare d e) := by
  have less {m n d e : Nat} (order : m < n) (small : d < 2 ^ k) :
      m * 2 ^ k + d < n * 2 ^ k + e := by
    have step := Nat.mul_le_mul_right (2 ^ k) (Nat.succ_le_of_lt order)
    rw [Nat.succ_mul] at step
    omega
  rcases Nat.lt_trichotomy m n with lt | rfl | gt
  · rw [Nat.compare_eq_lt.2 lt, Nat.compare_eq_lt.2 (less lt first)]
    rfl
  · rw [Nat.compare_eq_eq.2 rfl, Ordering.eq_then]
    simp only [Nat.compare_eq_ite_lt, Nat.add_lt_add_iff_left]
  · rw [Nat.compare_eq_gt.2 gt, Nat.compare_eq_gt.2 (less gt second)]
    rfl

theorem size_eq_log2_succ {n : Nat} (positive : n ≠ 0) : n.size = n.log2 + 1 := by
  apply Nat.le_antisymm
  · exact Nat.size_le.2 Nat.lt_log2_self
  · exact Nat.lt_size.2 (Nat.log2_self_le positive)

theorem size_xor_le (m n : Nat) : (m ^^^ n).size ≤ max m.size n.size :=
  Nat.size_le.2 (Nat.xor_lt_two_pow (Nat.size_le.1 (Nat.le_max_left ..))
    (Nat.size_le.1 (Nat.le_max_right ..)))

/-- The bits behind a number that is not zero prolong it. -/
theorem size_mul_two_pow_add {k d n : Nat} (positive : n ≠ 0) (small : d < 2 ^ k) :
    (n * 2 ^ k + d).size = n.size + k := by
  rw [size_eq_log2_succ positive]
  apply Nat.le_antisymm
  · rw [Nat.size_le]
    calc n * 2 ^ k + d < n * 2 ^ k + 2 ^ k := Nat.add_lt_add_left small _
      _ = (n + 1) * 2 ^ k := (Nat.succ_mul n (2 ^ k)).symm
      _ ≤ 2 ^ (n.log2 + 1) * 2 ^ k := Nat.mul_le_mul_right _ Nat.lt_log2_self
      _ = 2 ^ (n.log2 + 1 + k) := (Nat.pow_add ..).symm
  · rw [Nat.add_right_comm, Nat.succ_le_iff, Nat.lt_size]
    calc 2 ^ (n.log2 + k) = 2 ^ n.log2 * 2 ^ k := Nat.pow_add ..
      _ ≤ n * 2 ^ k := Nat.mul_le_mul_right _ (Nat.log2_self_le positive)
      _ ≤ n * 2 ^ k + d := Nat.le_add_right ..

namespace BigEndian

theorem decode_cons (x : UInt8) (b : Bytes) :
    decode (x :: b) = x.toNat * 2 ^ (8 * b.length) + decode b := by
  rw [Nat.pow_mul]
  induction b using List.reverseRecOn with
  | nil => simp [decode]
  | append_singleton b y ih =>
    rw [← List.cons_append, decode_append_singleton, ih, decode_append_singleton,
      List.length_append, List.length_singleton, Nat.pow_succ]
    ring

theorem decode_lt_two_pow (b : Bytes) : decode b < 2 ^ (8 * b.length) := by
  rw [Nat.pow_mul]
  exact decode_lt b

theorem decode_injective {a b : Bytes} (sized : a.length = b.length) (same : decode a = decode b) :
    a = b := by
  rw [← encode_decode a, sized, same, encode_decode]

theorem decode_zipWith_xor {a b : Bytes} (sized : a.length = b.length) :
    decode (List.zipWith (· ^^^ ·) a b) = decode a ^^^ decode b := by
  induction a generalizing b with
  | nil =>
    obtain rfl := List.length_eq_zero_iff.1 sized.symm
    rfl
  | cons x a ih =>
    obtain ⟨y, b, rfl⟩ := List.exists_cons_of_length_eq_add_one sized.symm
    have same : a.length = b.length := Nat.succ.inj sized
    have width : (List.zipWith (· ^^^ ·) a b).length = a.length := by
      rw [List.length_zipWith, ← same, Nat.min_self]
    rw [List.zipWith_cons_cons, decode_cons, decode_cons, decode_cons, ih same, width, ← same,
      UInt8.toNat_xor, mul_add_xor (decode_lt_two_pow a) (same ▸ decode_lt_two_pow b)]

theorem compare_eq_compare_decode {a b : Bytes} (sized : a.length = b.length) :
    compare a b = compare (decode a) (decode b) := by
  induction a generalizing b with
  | nil =>
    obtain rfl := List.length_eq_zero_iff.1 sized.symm
    rfl
  | cons x a ih =>
    obtain ⟨y, b, rfl⟩ := List.exists_cons_of_length_eq_add_one sized.symm
    have same : a.length = b.length := Nat.succ.inj sized
    rw [List.compare_eq_compareLex, List.compareLex_cons_cons, ← List.compare_eq_compareLex,
      ih same, UInt8.compare_eq_toNat_compare_toNat, decode_cons, decode_cons, ← same,
      compare_mul_add (decode_lt_two_pow a) (same ▸ decode_lt_two_pow b)]

end BigEndian
end Overlay
