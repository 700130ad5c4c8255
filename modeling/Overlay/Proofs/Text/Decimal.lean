import Overlay.Text.Decimal

/-! Decimal numbers are read back from the digits that they are shown with, and from nothing
but digits after an optional plus sign. -/
namespace Overlay.Text.Decimal

theorem le_ofDigitChars (cs : List Char) (value : Nat) : value ≤ Nat.ofDigitChars 10 cs value := by
  induction cs generalizing value with
  | nil => simp
  | cons c cs ih =>
    rw [Nat.ofDigitChars_cons]
    exact Nat.le_trans (by omega) (ih _)

theorem digitsBelow?_eq_some_iff {bound value n : Nat} {cs : List Char} :
    digitsBelow? bound value cs = some n ↔
      (∀ c ∈ cs, c.isDigit) ∧ Nat.ofDigitChars 10 cs value = n ∧ n < bound := by
  induction cs generalizing value with
  | nil =>
    simp only [digitsBelow?, Nat.ofDigitChars_nil, List.not_mem_nil, false_implies, implies_true,
      true_and]
    split <;> simp <;> omega
  | cons c cs ih =>
    have grows := le_ofDigitChars cs (10 * value + (c.toNat - '0'.toNat))
    rw [digitsBelow?, Nat.ofDigitChars_cons, List.forall_mem_cons]
    split
    · next digit => simp [ih, digit.1]
    · next stopped =>
      simp only [reduceCtorEq, false_iff]
      rintro ⟨⟨digit, -⟩, rfl, small⟩
      exact stopped ⟨digit, by omega⟩

theorem isDigit_of_mem_toString {n : Nat} {c : Char} (member : c ∈ (toString n).toList) :
    c.isDigit = true := by
  rw [Nat.toString_eq_ofList_toDigits, String.toList_ofList] at member
  exact Nat.isDigit_of_mem_toDigits (by decide) (by decide) member

theorem digitsBelow?_toString {bound n : Nat} (small : n < bound) :
    digitsBelow? bound 0 (toString n).toList = some n := by
  have value : Nat.ofDigitChars 10 (toString n).toList 0 = n := by
    rw [Nat.toString_eq_ofList_toDigits, String.toList_ofList, Nat.ofDigitChars_ten_toDigits]
  exact digitsBelow?_eq_some_iff.2 ⟨fun c => isDigit_of_mem_toString, value, small⟩

theorem toList_toString_ne_nil (n : Nat) : (toString n).toList ≠ [] := by
  rw [Nat.toString_eq_ofList_toDigits, String.toList_ofList]
  exact Nat.toDigits_ne_nil

theorem read?_toString {bound n : Nat} (small : n < bound) :
    read? bound (toString n).toList = some n := by
  have nonempty := toList_toString_ne_nil n
  have read := digitsBelow?_toString small
  cases whole : (toString n).toList with
  | nil => contradiction
  | cons c rest =>
    have unsigned : c ≠ '+' := by
      rintro rfl
      have digit : '+'.isDigit = true := isDigit_of_mem_toString (whole ▸ List.mem_cons_self)
      contradiction
    rw [whole] at read
    simpa [read?, unsigned] using read

/-- An optional plus sign and at least one digit spell the number that the digits are. -/
def Spells (cs : List Char) (n : Nat) : Prop :=
  ∃ digits, (cs = digits ∨ cs = '+' :: digits) ∧ digits ≠ [] ∧ (∀ c ∈ digits, c.isDigit) ∧
    Nat.ofDigitChars 10 digits 0 = n

/-- A plus sign is no digit, so there is one way to take it. -/
theorem read?_eq_some_iff {bound n : Nat} {cs : List Char} :
    read? bound cs = some n ↔ Spells cs n ∧ n < bound := by
  have digits_iff (digits : List Char) :
      (if digits.isEmpty then none else digitsBelow? bound 0 digits) = some n ↔
        digits ≠ [] ∧ (∀ c ∈ digits, c.isDigit) ∧ Nat.ofDigitChars 10 digits 0 = n ∧ n < bound := by
    cases digits <;> simp [digitsBelow?_eq_some_iff]
  unfold read?
  dsimp only
  constructor
  · intro read
    have spelled := (digits_iff _).1 read
    split at spelled
    · next digits =>
      obtain ⟨nonempty, all, value, small⟩ := spelled
      exact ⟨⟨digits, .inr rfl, nonempty, all, value⟩, small⟩
    · obtain ⟨nonempty, all, value, small⟩ := spelled
      exact ⟨⟨cs, .inl rfl, nonempty, all, value⟩, small⟩
  · rintro ⟨⟨digits, rfl | rfl, nonempty, all, value⟩, small⟩
    · split
      · next rest => exact absurd (all '+' List.mem_cons_self) (by decide)
      · exact (digits_iff cs).2 ⟨nonempty, all, value, small⟩
    · exact (digits_iff digits).2 ⟨nonempty, all, value, small⟩

theorem spells_toString (n : Nat) : Spells (toString n).toList n :=
  (read?_eq_some_iff.1 (read?_toString (Nat.lt_succ_self n))).1

theorem not_mem_of_spells {cs : List Char} {n : Nat} {c : Char} (spelled : Spells cs n)
    (other : c.isDigit = false) (unsigned : c ≠ '+') : c ∉ cs := by
  obtain ⟨digits, shape, -, all, -⟩ := spelled
  have outside : c ∉ digits := by
    intro member
    exact Bool.false_ne_true (other.symm.trans (all c member))
  rcases shape with rfl | rfl
  · exact outside
  · exact List.not_mem_cons_of_ne_of_not_mem unsigned outside

end Overlay.Text.Decimal
