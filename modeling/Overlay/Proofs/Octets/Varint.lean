import Overlay.Octets.Varint
import Overlay.Proofs.Octets.Endian

/-! Numbers below `2 ^ 64` are read as they were written, whatever follows them. -/
namespace Overlay.Varint
variable {n : Nat}

/-- The width of a long number has room for it. -/
theorem width_spec (small : n < UInt64.size) :
    3 ≤ width n ∧ width n ≤ 8 ∧ n < 256 ^ width n := by
  rw [width]
  cases found : (List.range' 3 5).find? fun width => n >>> (8 * width) = 0 with
  | none => exact ⟨by decide, by decide, small⟩
  | some width =>
    have member := List.mem_range'_1.1 (List.mem_of_find?_eq_some found)
    have cleared := List.find?_some found
    rw [decide_eq_true_eq, Nat.shiftRight_eq_div_pow, Nat.pow_mul, Nat.div_eq_zero_iff] at cleared
    refine ⟨member.1, Nat.le_of_lt member.2, cleared.resolve_left ?_⟩
    exact Nat.ne_of_gt (Nat.pow_pos (by decide))

theorem length_encode_le (small : n < UInt64.size) : (encode n).length ≤ 9 := by
  rw [encode]
  split
  · exact (by decide : 1 ≤ 9)
  · split
    · exact (by decide : 2 ≤ 9)
    · split <;> rw [List.length_cons, BigEndian.length_encode]
      · decide
      · exact Nat.succ_le_succ (width_spec small).2.1

theorem cut?_encode (width n : Nat) (rest : Bytes) :
    (BigEndian.encode width n ++ rest).cut? width = some (BigEndian.encode width n, rest) :=
  Bytes.cut?_eq_some_iff.2 ⟨rfl, BigEndian.length_encode width n⟩

theorem toNat_ofNat_byte {k : Nat} (small : k < 256) : (UInt8.ofNat k).toNat = k :=
  UInt8.toNat_ofNat_of_lt small

theorem decode?_encode_append (small : n < UInt64.size) (rest : Bytes) :
    decode? (encode n ++ rest) = some (n, rest) := by
  rw [encode]
  split
  · next byte =>
    have first := toNat_ofNat_byte (Nat.lt_of_le_of_lt byte (by decide))
    rw [List.singleton_append, decode?, first, if_pos byte]
  · split
    · next large short =>
      have first : (UInt8.ofNat (241 + (n - 240) / 256)).toNat = 241 + (n - 240) / 256 :=
        toNat_ofNat_byte (by omega)
      have low : BigEndian.decode (BigEndian.encode 1 (n - 240)) = (n - 240) % 256 :=
        BigEndian.decode_encode 1 (n - 240)
      change decode? (_ :: (BigEndian.encode 1 (n - 240) ++ rest)) = _
      rw [decode?, first, if_neg (by omega), if_pos (by omega), cut?_encode, Option.map_some]
      dsimp only
      rw [low, show 240 + 256 * (241 + (n - 240) / 256 - 241) + (n - 240) % 256 = n by omega]
    · split
      · next large short =>
        have low : BigEndian.decode (BigEndian.encode 2 (n - 2288)) = n - 2288 :=
          BigEndian.decode_encode_of_lt (by omega)
        have first : (249 : UInt8).toNat = 249 := rfl
        rw [List.cons_append, decode?, first, if_neg (by decide), if_neg (by decide), if_pos rfl,
          cut?_encode, Option.map_some]
        dsimp only
        rw [low, Nat.add_sub_cancel' (by omega)]
      · obtain ⟨least, most, room⟩ := width_spec small
        have first := toNat_ofNat_byte (show 247 + width n < 256 by omega)
        have wide : 247 + width n - 247 = width n := Nat.add_sub_cancel_left ..
        rw [List.cons_append, decode?, first, if_neg (by omega), if_neg (by omega),
          if_neg (by omega), wide, cut?_encode, Option.map_some]
        dsimp only
        rw [BigEndian.decode_encode_of_lt room]

end Overlay.Varint
