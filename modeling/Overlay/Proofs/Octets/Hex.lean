import Mathlib.Data.List.GetD
import Overlay.Octets.Hex
import Overlay.Proofs.Except
import Overlay.Proofs.Text.Utf8

/-! Hexadecimal digits of either case stand for the lower-case ones, and a text is read as the bytes
that are written with those. -/
namespace Overlay.Hex

/-- A digit of either case. -/
def IsDigit (c : Char) : Prop := c.toLower ∈ lowerDigits

theorem value?_of_not_ascii {c : Char} (large : ¬ c.toNat < 128) : value? c = none := by
  have above {last : Char} (ascii : last.toNat < 128) : ¬ c ≤ last := fun le =>
    large (Nat.lt_of_le_of_lt (UInt32.le_iff_toNat_le.1 le) ascii)
  rw [value?, if_neg fun range => above (by decide) range.2,
    if_neg fun range => above (by decide) range.2, if_neg fun range => above (by decide) range.2]

theorem toLower_of_not_ascii {c : Char} (large : ¬ c.toNat < 128) : c.toLower = c :=
  dif_neg fun isUpper => large (Nat.lt_of_le_of_lt (UInt32.le_iff_toNat_le.1 isUpper.2) (by decide))

theorem ascii_of_mem_lowerDigits {c : Char} (member : c ∈ lowerDigits) : c.toNat < 128 := by
  have each : lowerDigits.all fun digit => digit.toNat < 128 := by decide
  exact of_decide_eq_true (List.all_eq_true.1 each c member)

theorem ascii_of_isDigit {c : Char} (digit : IsDigit c) : c.toNat < 128 := by
  by_contra large
  rw [IsDigit, toLower_of_not_ascii large] at digit
  exact large (ascii_of_mem_lowerDigits digit)

theorem value?_eq (c : Char) : value? c = lowerDigits.idxOf? c.toLower := by
  by_cases ascii : c.toNat < 128
  · have each : ∀ n < 128, value? (Char.ofNat n) = lowerDigits.idxOf? (Char.ofNat n).toLower := by
      decide +kernel
    have same := each c.toNat ascii
    rwa [Char.ofNat_toNat] at same
  · have other : c.toLower ∉ lowerDigits := fun digit => ascii (ascii_of_isDigit digit)
    rw [value?_of_not_ascii ascii, List.idxOf?_eq_none_iff.2 other]

theorem value?_eq_some_iff {c : Char} {v : Nat} :
    value? c = some v ↔ v < 16 ∧ c.toLower = lowerDigits.getD v '0' := by
  have listed : ∀ v < 16, lowerDigits.idxOf? (lowerDigits.getD v '0') = some v := by decide
  rw [value?_eq]
  constructor
  · intro found
    obtain ⟨inside, same, -⟩ := List.idxOf?_eq_some_iff.1 found
    exact ⟨inside, by rw [List.getD_eq_getElem _ _ inside, same]⟩
  · rintro ⟨small, same⟩
    rw [same, listed v small]

theorem exists_value?_iff {c : Char} : (∃ v, value? c = some v) ↔ IsDigit c := by
  rw [← Option.isSome_iff_exists, value?_eq, List.isSome_idxOf?, IsDigit]

theorem digit_eq_ok_iff {position v : Nat} {c : Char} :
    digit position c = .ok v ↔ value? c = some v := by
  unfold digit
  split <;> simp [*]

theorem value?_lt {c : Char} {v : Nat} (found : value? c = some v) : v < 16 :=
  (value?_eq_some_iff.1 found).1

theorem toNat_ofNat {h l : Nat} (high : h < 16) (low : l < 16) :
    (UInt8.ofNat (16 * h + l)).toNat = 16 * h + l :=
  UInt8.toNat_ofNat_of_lt (by simp only [UInt8.size]; omega)

theorem pair_ofNat {h l : Nat} (high : h < 16) (low : l < 16) :
    pair lowerDigits (UInt8.ofNat (16 * h + l)) =
      [lowerDigits.getD h '0', lowerDigits.getD l '0'] := by
  have quotient : (16 * h + l) / 16 = h := by omega
  have rest : (16 * h + l) % 16 = l := by omega
  rw [pair, toNat_ofNat high low, quotient, rest]

theorem pair_eq_iff {high low : Char} {b : UInt8} :
    [high.toLower, low.toLower] = pair lowerDigits b ↔
      ∃ h l, value? high = some h ∧ value? low = some l ∧ UInt8.ofNat (16 * h + l) = b := by
  simp only [value?_eq_some_iff]
  constructor
  · intro same
    have small := b.toNat_lt
    obtain ⟨first, second⟩ := List.cons.inj same
    have whole : UInt8.ofNat (16 * (b.toNat / 16) + b.toNat % 16) = b := by
      rw [Nat.div_add_mod, UInt8.ofNat_toNat]
    exact ⟨b.toNat / 16, b.toNat % 16, ⟨by omega, first⟩,
      ⟨by omega, List.singleton_inj.1 second⟩, whole⟩
  · rintro ⟨h, l, ⟨high, first⟩, ⟨low, second⟩, rfl⟩
    rw [pair_ofNat high low, first, second]

theorem cons_eq_pair_append_iff {high low : Char} {b : UInt8} {rest others : List Char} :
    high :: low :: rest = pair lowerDigits b ++ others ↔
      [high, low] = pair lowerDigits b ∧ rest = others := by
  simp [pair, and_assoc]

theorem length_flatMap_pair (b : Bytes) : (b.flatMap (pair lowerDigits)).length = 2 * b.length := by
  simp [List.length_flatMap, pair, List.map_const', Nat.mul_comm]

theorem mem_lowerDigits_of_mem_pair {b : UInt8} {c : Char} (member : c ∈ pair lowerDigits b) :
    c ∈ lowerDigits := by
  have listed : ∀ v < 16, lowerDigits.getD v '0' ∈ lowerDigits := by decide
  have small := b.toNat_lt
  simp only [pair, List.mem_cons, List.not_mem_nil, or_false] at member
  rcases member with rfl | rfl
  · exact listed _ (by omega)
  · exact listed _ (by omega)

theorem toLower_of_mem_lowerDigits {c : Char} (member : c ∈ lowerDigits) : c.toLower = c := by
  have each : lowerDigits.all fun digit => digit.toLower == digit := by decide
  exact eq_of_beq (List.all_eq_true.1 each c member)

theorem map_toLower_pair (b : UInt8) :
    (pair lowerDigits b).map Char.toLower = pair lowerDigits b := by
  have same : (pair lowerDigits b).map Char.toLower = (pair lowerDigits b).map id :=
    List.map_congr_left fun _ member =>
      toLower_of_mem_lowerDigits (mem_lowerDigits_of_mem_pair member)
  rw [same, List.map_id]

theorem decodePairs_eq_ok_iff {position : Nat} {cs : List Char} {b : Bytes} :
    decodePairs position cs = .ok b ↔ cs.map Char.toLower = b.flatMap (pair lowerDigits) := by
  fun_induction decodePairs position cs generalizing b with
  | case1 position =>
    cases b with
    | nil => simp
    | cons x b => simp [pair]
  | case2 position high low rest ih =>
    simp only [bind_eq_ok_iff, digit_eq_ok_iff, ih]
    constructor
    · rintro ⟨h, first, l, second, others, spelled, whole⟩
      obtain rfl := Except.ok.inj whole
      have front := pair_eq_iff.2 ⟨h, l, first, second, rfl⟩
      rw [List.flatMap_cons, ← front, ← spelled]
      rfl
    · intro spelled
      cases b with
      | nil => contradiction
      | cons x b =>
        obtain ⟨front, back⟩ := cons_eq_pair_append_iff.1 spelled
        obtain ⟨h, l, first, second, rfl⟩ := pair_eq_iff.1 front
        exact ⟨h, first, l, second, b, back, rfl⟩
  | case3 position c =>
    constructor
    · intro read
      obtain ⟨value, -, refused⟩ := bind_eq_ok_iff.1 read
      contradiction
    · intro spelled
      have sized := congrArg List.length spelled
      rw [length_flatMap_pair, List.length_map, List.length_singleton] at sized
      omega

theorem isDigit_of_spelled {cs : List Char} {b : Bytes}
    (spelled : cs.map Char.toLower = b.flatMap (pair lowerDigits)) : ∀ c ∈ cs, IsDigit c := by
  intro c member
  have image : c.toLower ∈ b.flatMap (pair lowerDigits) := spelled ▸ List.mem_map_of_mem member
  obtain ⟨x, -, inPair⟩ := List.mem_flatMap.1 image
  exact mem_lowerDigits_of_mem_pair inPair

/-- A text is read as the bytes that are written as its lower-case spelling. -/
theorem decode_eq_ok_iff {s : String} {b : Bytes} :
    decode s = .ok b ↔ s.toList.map Char.toLower = (encode b).toList := by
  rw [encode, String.toList_ofList, ← decodePairs_eq_ok_iff, decode]
  constructor
  · intro read
    split at read
    · contradiction
    · exact read
  · intro read
    have spelled := decodePairs_eq_ok_iff.1 read
    have ascii : ∀ c ∈ s.toList, c.toNat < 128 :=
      fun c member => ascii_of_isDigit (isDigit_of_spelled spelled c member)
    have sized : s.utf8ByteSize = 2 * b.length := by
      rw [Text.utf8ByteSize_of_ascii ascii, ← length_flatMap_pair, ← spelled, List.length_map]
    rw [if_neg (by omega)]
    exact read

theorem decode_encode (b : Bytes) : decode (encode b) = .ok b := by
  have lower : ((encode b).toList).map Char.toLower = (encode b).toList := by
    rw [encode, String.toList_ofList, List.map_flatMap]
    exact List.flatMap_congr fun x _ => map_toLower_pair x
  rw [decode_eq_ok_iff, lower]

theorem exists_spelled {n : Nat} {cs : List Char} (isDigit : ∀ c ∈ cs, IsDigit c)
    (sized : cs.length = 2 * n) :
    ∃ b : Bytes, b.length = n ∧ cs.map Char.toLower = b.flatMap (pair lowerDigits) := by
  induction n generalizing cs with
  | zero =>
    obtain rfl := List.length_eq_zero_iff.1 sized
    exact ⟨[], rfl, rfl⟩
  | succ n ih =>
    obtain ⟨high, low, rest, rfl⟩ : ∃ high low rest, cs = high :: low :: rest := by
      match cs, sized with
      | high :: low :: rest, _ => exact ⟨high, low, rest, rfl⟩
    obtain ⟨highDigit, others⟩ := List.forall_mem_cons.1 isDigit
    obtain ⟨lowDigit, restDigits⟩ := List.forall_mem_cons.1 others
    obtain ⟨h, first⟩ := exists_value?_iff.2 highDigit
    obtain ⟨l, second⟩ := exists_value?_iff.2 lowDigit
    obtain ⟨b, length, spelled⟩ := ih restDigits (by simp only [List.length_cons] at sized; omega)
    refine ⟨UInt8.ofNat (16 * h + l) :: b, congrArg Nat.succ length, ?_⟩
    rw [List.flatMap_cons, ← pair_eq_iff.2 ⟨h, l, first, second, rfl⟩, ← spelled]
    rfl

end Overlay.Hex
