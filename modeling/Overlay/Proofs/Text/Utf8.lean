import Overlay.Text.Utf8

/-! The bytes of a text, character by character: those of ASCII are spelled by one byte, only NUL
with a zero byte, and none with a byte of ones. -/
namespace Overlay.Text

theorem utf8_eq_flatMap (s : String) : utf8 s = s.toList.flatMap String.utf8EncodeChar := by
  have spelled : utf8 (String.ofList s.toList) = s.toList.flatMap String.utf8EncodeChar := by
    simp [utf8, List.utf8Encode, -String.ofList_toList]
  rwa [String.ofList_toList] at spelled

/-- A text of ASCII characters is spelled by one byte for each. -/
theorem utf8_ofList_ascii {cs : List Char} (ascii : ∀ c ∈ cs, c.toNat < 128) :
    utf8 (String.ofList cs) = cs.map Char.toUInt8 := by
  induction cs with
  | nil => rfl
  | cons c cs ih =>
    obtain ⟨small, others⟩ := List.forall_mem_cons.1 ascii
    have single : c.utf8Size = 1 :=
      Char.utf8Size_eq_one_iff.2 (UInt32.le_iff_toNat_le.2 (Nat.le_of_lt_succ small))
    rw [List.map_cons, ← ih others]
    simp [utf8, List.utf8Encode, String.utf8EncodeChar_eq_singleton single]

theorem utf8ByteSize_of_ascii {s : String} (ascii : ∀ c ∈ s.toList, c.toNat < 128) :
    s.utf8ByteSize = s.toList.length := by
  have spelled := utf8_ofList_ascii ascii
  rw [String.ofList_toList] at spelled
  have sized : s.utf8ByteSize = (utf8 s).length := rfl
  rw [sized, spelled, List.length_map]

private theorem ofNat_ne {b : UInt8} {n : Nat} (differ : b.toNat ≠ n) (small : n < 256) :
    b ≠ UInt8.ofNat n := by
  intro same
  exact differ ((congrArg UInt8.toNat same).trans (UInt8.toNat_ofNat_of_lt small))

private theorem ofNat_ne_zero {n : Nat} (positive : 0 < n) (small : n < 256) :
    (0 : UInt8) ≠ UInt8.ofNat n :=
  ofNat_ne (Nat.ne_of_lt positive) small

private theorem ofNat_ne_ones {n : Nat} (small : n < 255) : (0xff : UInt8) ≠ UInt8.ofNat n :=
  ofNat_ne (Nat.ne_of_gt small) (Nat.lt_succ_of_lt small)

/-- All bytes of a spelling of two bytes or more have their highest bit set. -/
theorem zero_not_mem_utf8EncodeChar {c : Char} (other : c ≠ '\x00') :
    0 ∉ String.utf8EncodeChar c := by
  have positive : 0 < c.val.toNat := Nat.pos_of_ne_zero fun zero => other (Char.toNat_inj.1 zero)
  simp only [String.utf8EncodeChar]
  repeat' split
  all_goals
    simp (disch := omega) only [List.mem_cons, List.not_mem_nil, ofNat_ne_zero, or_false,
      not_false_eq_true]

theorem zero_not_mem_utf8 {s : String} (free : '\x00' ∉ s.toList) : 0 ∉ utf8 s := by
  rw [utf8_eq_flatMap]
  intro member
  obtain ⟨c, inText, inChar⟩ := List.mem_flatMap.1 member
  exact zero_not_mem_utf8EncodeChar (fun same => free (same ▸ inText)) inChar

theorem ones_not_mem_utf8EncodeChar (c : Char) : 0xff ∉ String.utf8EncodeChar c := by
  simp only [String.utf8EncodeChar]
  repeat' split
  all_goals
    simp (disch := omega) only [List.mem_cons, List.not_mem_nil, ofNat_ne_ones, or_false,
      not_false_eq_true]

theorem ones_not_mem_utf8 (s : String) : 0xff ∉ utf8 s := by
  rw [utf8_eq_flatMap]
  intro member
  obtain ⟨c, -, inChar⟩ := List.mem_flatMap.1 member
  exact ones_not_mem_utf8EncodeChar c inChar

end Overlay.Text
