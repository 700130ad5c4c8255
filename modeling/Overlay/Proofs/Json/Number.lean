import Overlay.Json.Value
import Overlay.Proofs.Json.Reading
import Overlay.Proofs.Text.Decimal

/-! The digits that a number is shown with are read as that number. None of them is a zero in
front of another, which no number may have. -/
namespace Overlay.Json

namespace Number
variable {digits rest : List Char} {atEnd : Cause}

/-- Digits that a number may start with. -/
structure Whole (digits : List Char) : Prop where
  nonempty : digits ≠ []
  isDigit : ∀ c ∈ digits, c.isDigit
  unpadded : digits.head? = some '0' → digits = ['0']

theorem eq_zero_of_head?_toDigits {n : Nat} (padded : (Nat.toDigits 10 n).head? = some '0') :
    n = 0 := by
  induction n using Nat.strongRecOn with
  | ind n ih =>
    rcases Nat.lt_or_ge n 10 with small | large
    · rw [Nat.toDigits_of_lt_base small] at padded
      exact Nat.digitChar_eq_zero.1 (Option.some.inj padded)
    · rw [Nat.toDigits_of_base_le (by decide) large,
        List.head?_append, List.head?_eq_some_head Nat.toDigits_ne_nil, Option.some_or,
        ← List.head?_eq_some_head] at padded
      have front := ih (n / 10) (by omega) padded
      omega

theorem whole_toString (n : Nat) : Whole (toString n).toList := by
  have shown : (toString n).toList = Nat.toDigits 10 n := by
    rw [Nat.toString_eq_ofList_toDigits, String.toList_ofList]
  refine ⟨?_, fun c => Text.Decimal.isDigit_of_mem_toString, ?_⟩
  · rw [shown]
    exact Nat.toDigits_ne_nil
  · intro padded
    rw [shown] at padded
    obtain rfl := eq_zero_of_head?_toDigits padded
    rfl

theorem readDigits_append (isDigit : ∀ c ∈ digits, c.isDigit) (ended : EndsNumber rest) :
    readDigits (digits ++ rest) = .ok (digits, rest) := by
  rw [readDigits, List.takeWhile_append_of_pos isDigit, List.dropWhile_append_of_pos isDigit]
  cases rest with
  | nil => simp
  | cons c rest => simp [(ended c rfl).1]

theorem readWhole_append (whole : Whole digits) (ended : EndsNumber rest) :
    readWhole atEnd (digits ++ rest) = .ok (digits, rest) := by
  generalize shown : digits ++ rest = cs
  rw [readWhole, get_bind]
  split
  · obtain ⟨c, others, rfl⟩ := List.exists_cons_of_ne_nil whole.nonempty
    rw [List.cons_append] at shown
    obtain ⟨rfl, rfl⟩ := List.cons.inj shown
    obtain ⟨-, rfl⟩ := List.cons.inj (whole.unpadded rfl)
    have alone : (rest.head?.map Char.isDigit).getD false = false := by
      cases rest with
      | nil => rfl
      | cons c rest => exact (ended c rfl).1
    rw [List.nil_append, set_bind, alone]
    rfl
  · rw [← shown, readSomeDigits, bind_of_eq_ok (readDigits_append whole.isDigit ended),
      get_bind]
    have nonempty := whole.nonempty
    split
    · contradiction
    · contradiction
    · rfl

theorem readFraction_none (ended : EndsNumber rest) :
    readFraction atEnd rest = .ok ([], rest) := by
  rw [readFraction, get_bind]
  split
  · next point => exact absurd rfl (ended '.' rfl).2.1
  · rfl

theorem readExponent_none (ended : EndsNumber rest) :
    readExponent atEnd rest = .ok ((false, []), rest) := by
  rw [readExponent, get_bind]
  split
  · exact absurd rfl (ended 'e' rfl).2.2.1
  · exact absurd rfl (ended 'E' rfl).2.2.2
  · rfl

theorem read_append (atEnd : Cause) (whole : Whole digits) (ended : EndsNumber rest) :
    read atEnd (digits ++ rest) = .ok (⟨digits, [], false, []⟩, rest) := by
  rw [read, bind_of_eq_ok (readWhole_append whole ended), bind_of_eq_ok (readFraction_none ended),
    bind_of_eq_ok (readExponent_none ended)]
  rfl

theorem value_toString (n : UInt64) (rest : List Char) :
    value false ⟨(toString n.toNat).toList, [], false, []⟩ rest = .ok (.integer n.toNat, rest) := by
  have small : n.toNat < UInt64.size := n.toNat_lt
  have digits := Text.Decimal.digitsBelow?_toString small
  have whole :
      integer? false ⟨(toString n.toNat).toList, [], false, []⟩ = some (n.toNat : Int) := by
    simp only [integer?, List.isEmpty_nil, and_self, if_pos, Bool.false_eq_true, if_neg,
      not_false_eq_true, digits]
    rfl
  rw [value, whole]
  rfl

end Number

theorem readFound_digit {blanks rest : List Char} {c : Char} (blank : Blank blanks)
    (digit : c.isDigit) :
    readFound (blanks ++ c :: rest) =
      (Number.read .endInValue >>= Number.value false) (c :: rest) := by
  have solid : isBlank c = false := by
    rw [isBlank, Bool.or_eq_false_iff, Bool.or_eq_false_iff, Bool.or_eq_false_iff]
    refine ⟨⟨⟨?_, ?_⟩, ?_⟩, ?_⟩ <;> rw [beq_eq_false_iff_ne] <;> rintro rfl <;> contradiction
  rw [readFound, bind_of_eq_ok (skipBlanks_append blank solid)]
  generalize shown : c :: rest = cs
  split
  · contradiction
  · obtain rfl := (List.cons.inj shown).1
    contradiction
  · obtain rfl := (List.cons.inj shown).1
    contradiction
  · obtain ⟨rfl, rfl⟩ := List.cons.inj shown
    rw [if_pos digit]

theorem reads_word64 (n : UInt64) : Reads word64 (toString n.toNat).toList n := by
  intro blanks rest blank ended
  have whole := Number.whole_toString n.toNat
  have read := Number.read_append .endInValue whole ended
  have value := Number.value_toString n rest
  obtain ⟨c, digits, shown⟩ := List.exists_cons_of_ne_nil whole.nonempty
  have digit : c.isDigit := whole.isDigit c (shown ▸ List.mem_cons_self)
  have found : readFound (blanks ++ ((toString n.toNat).toList ++ rest)) =
      .ok (.integer n.toNat, rest) := by
    rw [shown] at read value ⊢
    rw [List.cons_append, readFound_digit blank digit]
    rw [List.cons_append] at read
    rw [bind_of_eq_ok read, value]
  have same : UInt64.ofNat n.toNat = n := UInt64.ofNat_toNat
  rw [word64, bind_of_eq_ok found]
  exact congrArg (fun n => Except.ok (n, rest)) same

end Overlay.Json
