import Mathlib.Algebra.Group.Nat.Defs
import Mathlib.Data.List.Induction
import Mathlib.Tactic.Ring
import Overlay.Octets.Endian

/-! Both byte orders from the reading side: a byte string of a width is the encoding of
the number that is read from it, and numbers that fit are read back. -/
namespace Overlay

namespace BigEndian

theorem decode_lt (b : Bytes) : decode b < 256 ^ b.length := by
  induction b using List.reverseRecOn with
  | nil => simp [decode]
  | append_singleton b x ih =>
    rw [decode_append_singleton, List.length_append, List.length_singleton, Nat.pow_succ]
    have small := x.toNat_lt
    omega

theorem encode_decode (b : Bytes) : encode b.length (decode b) = b := by
  induction b using List.reverseRecOn with
  | nil => rfl
  | append_singleton b x ih =>
    have small := x.toNat_lt
    have quotient : (256 * decode b + x.toNat) / 256 = decode b := by omega
    have last : UInt8.ofNat (256 * decode b + x.toNat) = x := by
      apply UInt8.toNat_inj.1
      rw [UInt8.toNat_ofNat']
      omega
    rw [decode_append_singleton, List.length_append, List.length_singleton, encode, quotient,
      ih, last]

theorem decode_encode_of_lt {width n : Nat} (fits : n < 256 ^ width) :
    decode (encode width n) = n :=
  (decode_encode width n).trans (Nat.mod_eq_of_lt fits)

theorem encode_decode_of_length {b : Bytes} {width : Nat} (sized : b.length = width) :
    encode width (decode b) = b := by
  rw [← sized, encode_decode]

/-- What is read through a word of the same width is written as it was. -/
theorem encode_decode_mod {b : Bytes} {width : Nat} (sized : b.length = width) :
    encode width (decode b % 256 ^ width) = b := by
  subst sized
  rw [Nat.mod_eq_of_lt (decode_lt b), encode_decode]

/-- What is read through a word is the number that the word holds. -/
theorem decode_of_ofNat_eq {b : Bytes} {word : UInt32} (sized : b.length = 4)
    (same : UInt32.ofNat (decode b) = word) : b = encode 4 word.toNat := by
  have bound : decode b < 256 ^ 4 := sized ▸ decode_lt b
  have value : word.toNat = decode b := by
    rw [← same]
    exact UInt32.toNat_ofNat_of_lt bound
  rw [value, encode_decode_of_length sized]

@[simp] theorem drop_encode {width position n : Nat} (past : width ≤ position) :
    (encode width n).drop position = [] :=
  List.drop_of_length_le (by simpa using past)

end BigEndian

namespace LittleEndian

theorem decode_lt (b : Bytes) : decode b < 256 ^ b.length := by
  induction b with
  | nil => simp [decode]
  | cons x b ih =>
    rw [decode, List.length_cons, Nat.pow_succ]
    have small := x.toNat_lt
    omega

theorem decode_encode_of_lt {width n : Nat} (fits : n < 256 ^ width) :
    decode (encode width n) = n :=
  (decode_encode width n).trans (Nat.mod_eq_of_lt fits)

theorem encode_decode (b : Bytes) : encode b.length (decode b) = b := by
  induction b with
  | nil => rfl
  | cons x b ih =>
    have small := x.toNat_lt
    have quotient : (x.toNat + 256 * decode b) / 256 = decode b := by omega
    have first : UInt8.ofNat (x.toNat + 256 * decode b) = x := by
      apply UInt8.toNat_inj.1
      rw [UInt8.toNat_ofNat']
      omega
    rw [decode, List.length_cons, encode, quotient, ih, first]

theorem decode_append_singleton (b : Bytes) (x : UInt8) :
    decode (b ++ [x]) = decode b + 256 ^ b.length * x.toNat := by
  induction b with
  | nil => simp [decode]
  | cons y b ih =>
    rw [List.cons_append, decode, ih, decode, List.length_cons, Nat.pow_succ]
    ring

end LittleEndian
end Overlay
