import Mathlib.Algebra.Group.Nat.Defs
import Mathlib.Data.List.Basic
import Mathlib.Data.List.Induction
import Overlay.Text.Bits

/-! Regrouping loses no bits: the groups of five of a bit string hold its bits and zeros after
them, and so do the bytes but for fewer than eight bits. -/
namespace Overlay.Text.Bits

theorem toNat_append_singleton (bits : List Bool) (bit : Bool) :
    toNat (bits ++ [bit]) = 2 * toNat bits + bit.toNat := by
  simp [toNat]

theorem toNat_lt (bits : List Bool) : toNat bits < 2 ^ bits.length := by
  induction bits using List.reverseRecOn with
  | nil => simp [toNat]
  | append_singleton bits bit ih =>
    have small := bit.toNat_lt
    rw [toNat_append_singleton, List.length_append, List.length_singleton, Nat.pow_succ]
    omega

theorem ofNat_toNat (bits : List Bool) : ofNat bits.length (toNat bits) = bits := by
  induction bits using List.reverseRecOn with
  | nil => rfl
  | append_singleton bits bit ih =>
    have half : (2 * toNat bits + bit.toNat) / 2 = toNat bits := by
      have small := bit.toNat_lt
      omega
    have last : ((2 * toNat bits + bit.toNat) % 2 == 1) = bit := by
      cases bit <;> simp
    rw [toNat_append_singleton, List.length_append, List.length_singleton, ofNat, half, ih, last]

theorem toNat_ofNat (width n : Nat) : toNat (ofNat width n) = n % 2 ^ width := by
  induction width generalizing n with
  | zero => simp [ofNat, toNat, Nat.mod_one]
  | succ width ih =>
    have bit : (n % 2 == 1).toNat = n % 2 := by
      rcases Nat.mod_two_eq_zero_or_one n with even | odd <;> simp [*]
    rw [ofNat, toNat_append_singleton, ih, bit, Nat.pow_succ', Nat.mod_mul]
    omega

def filling (size : Nat) : List Bool := List.replicate ((5 - size % 5) % 5) false

theorem flatMap_fives (bits : List Bool) :
    (fives bits).flatMap (ofNat 5) = bits ++ filling bits.length := by
  fun_induction fives bits with
  | case1 a b c d e rest ih =>
    have group : ofNat 5 (toNat [a, b, c, d, e]) = [a, b, c, d, e] :=
      ofNat_toNat [a, b, c, d, e]
    have same : filling (rest.length + 5) = filling rest.length := by simp [filling]
    rw [List.flatMap_cons, ih, group]
    simp [same]
  | case2 => rfl
  | case3 a => exact ofNat_toNat [a, false, false, false, false]
  | case4 a b => exact ofNat_toNat [a, b, false, false, false]
  | case5 a b c => exact ofNat_toNat [a, b, c, false, false]
  | case6 a b c d => exact ofNat_toNat [a, b, c, d, false]

theorem length_fives (bits : List Bool) : (fives bits).length = (bits.length + 4) / 5 := by
  fun_induction fives bits with
  | case1 a b c d e rest ih =>
    simp only [List.length_cons, ih]
    omega
  | _ => simp

theorem lt_of_mem_fives {bits : List Bool} {digit : Nat} (member : digit ∈ fives bits) :
    digit < 32 := by
  fun_induction fives bits with
  | case1 a b c d e rest ih =>
    rcases List.mem_cons.1 member with rfl | inRest
    · exact toNat_lt [a, b, c, d, e]
    · exact ih inRest
  | case2 => contradiction
  | case3 a => exact List.mem_singleton.1 member ▸ toNat_lt [a, false, false, false, false]
  | case4 a b => exact List.mem_singleton.1 member ▸ toNat_lt [a, b, false, false, false]
  | case5 a b c => exact List.mem_singleton.1 member ▸ toNat_lt [a, b, c, false, false]
  | case6 a b c d => exact List.mem_singleton.1 member ▸ toNat_lt [a, b, c, d, false]

theorem fives_append {group : List Bool} (sized : group.length = 5) (rest : List Bool) :
    fives (group ++ rest) = toNat group :: fives rest := by
  match group, sized with
  | [_, _, _, _, _], _ => rfl

theorem fives_flatMap {digits : List Nat} (small : ∀ digit ∈ digits, digit < 32) :
    fives (digits.flatMap (ofNat 5)) = digits := by
  induction digits with
  | nil => rfl
  | cons digit digits ih =>
    obtain ⟨digitSmall, othersSmall⟩ := List.forall_mem_cons.1 small
    have value : toNat (ofNat 5 digit) = digit :=
      (toNat_ofNat 5 digit).trans (Nat.mod_eq_of_lt digitSmall)
    rw [List.flatMap_cons, fives_append (length_ofNat 5 digit), value, ih othersSmall]

theorem bytes_append {group : List Bool} (sized : group.length = 8) (rest : List Bool) :
    bytes (group ++ rest) = (UInt8.ofNat (toNat group) :: (bytes rest).1, (bytes rest).2) := by
  match group, sized with
  | [_, _, _, _, _, _, _, _], _ => rfl

theorem bytes_of_length_lt {left : List Bool} (short : left.length < 8) :
    bytes left = ([], left) := by
  unfold bytes
  split
  · simp at short
    omega
  · rfl

theorem bytes_flatMap (data : Bytes) {left : List Bool} (short : left.length < 8) :
    bytes ((data.flatMap fun b => ofNat 8 b.toNat) ++ left) = (data, left) := by
  induction data with
  | nil => exact bytes_of_length_lt short
  | cons b data ih =>
    have byte : UInt8.ofNat (toNat (ofNat 8 b.toNat)) = b := by
      rw [toNat_ofNat, Nat.mod_eq_of_lt b.toNat_lt, UInt8.ofNat_toNat]
    rw [List.flatMap_cons, List.append_assoc, bytes_append (length_ofNat 8 b.toNat), ih, byte]

/-- The bytes of a bit string hold its bits, but for those left over. -/
theorem eq_flatMap_append_of_bytes {bits left : List Bool} {data : Bytes}
    (read : bytes bits = (data, left)) :
    bits = (data.flatMap fun b => ofNat 8 b.toNat) ++ left ∧ left.length < 8 := by
  fun_induction bytes bits generalizing data left with
  | case1 a b c d e f g h rest more rest' split ih =>
    obtain ⟨rfl, rfl⟩ := Prod.mk.inj read
    obtain ⟨whole, short⟩ := ih split
    have small : toNat [a, b, c, d, e, f, g, h] < 2 ^ 8 := toNat_lt [a, b, c, d, e, f, g, h]
    have group : ofNat 8 (toNat [a, b, c, d, e, f, g, h]) = [a, b, c, d, e, f, g, h] :=
      ofNat_toNat [a, b, c, d, e, f, g, h]
    have byte : (UInt8.ofNat (toNat [a, b, c, d, e, f, g, h])).toNat =
        toNat [a, b, c, d, e, f, g, h] := UInt8.toNat_ofNat_of_lt small
    refine ⟨?_, short⟩
    rw [List.flatMap_cons, byte, group, whole]
    rfl
  | case2 bits few =>
    obtain ⟨rfl, rfl⟩ := Prod.mk.inj read
    refine ⟨rfl, Nat.lt_of_not_le fun many => ?_⟩
    match bits, many with
    | a :: b :: c :: d :: e :: f :: g :: h :: rest, _ => exact few a b c d e f g h rest rfl

end Overlay.Text.Bits
