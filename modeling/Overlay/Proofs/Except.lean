import Mathlib.Data.List.Forall2

/-! Computations that can fail: what they give, and which part of them a failure is from. -/
namespace Overlay
variable {ε α β : Type}

@[simp] theorem ok_bind (a : α) (next : α → Except ε β) : (Except.ok a >>= next) = next a := rfl

theorem bind_eq_ok_iff {first : Except ε α} {next : α → Except ε β} {result : β} :
    (first >>= next) = .ok result ↔ ∃ a, first = .ok a ∧ next a = .ok result := by
  cases first <;> simp [bind, Except.bind]

theorem bind_eq_error_iff {first : Except ε α} {next : α → Except ε β} {fault : ε} :
    (first >>= next) = .error fault ↔
      first = .error fault ∨ ∃ a, first = .ok a ∧ next a = .error fault := by
  cases first <;> simp [bind, Except.bind]

theorem map_eq_ok_iff {first : Except ε α} {f : α → β} {result : β} :
    first.map f = .ok result ↔ ∃ a, first = .ok a ∧ f a = result := by
  cases first <;> simp [Except.map]

theorem map_eq_error_iff {first : Except ε α} {f : α → β} {fault : ε} :
    first.map f = .error fault ↔ first = .error fault := by
  cases first <;> simp [Except.map]

theorem mapError_eq_ok_iff {ε' : Type} {first : Except ε α} {f : ε → ε'} {a : α} :
    first.mapError f = .ok a ↔ first = .ok a := by
  cases first <;> simp [Except.mapError]

theorem mapM_eq_ok_iff {f : β → Except ε α} {items : List β} {results : List α} :
    items.mapM f = .ok results ↔
      List.Forall₂ (fun item result => f item = .ok result) items results := by
  induction items generalizing results with
  | nil =>
    rw [List.mapM_nil, List.forall₂_nil_left_iff]
    exact ⟨fun same => (Except.ok.inj same).symm, fun same => congrArg Except.ok same.symm⟩
  | cons item items ih =>
    rw [List.mapM_cons, bind_eq_ok_iff, List.forall₂_cons_left_iff]
    constructor
    · rintro ⟨first, read, rest⟩
      obtain ⟨others, all, whole⟩ := bind_eq_ok_iff.1 rest
      exact ⟨first, others, read, ih.1 all, (Except.ok.inj whole).symm⟩
    · rintro ⟨first, others, read, all, rfl⟩
      refine ⟨first, read, ?_⟩
      rw [ih.2 all]
      rfl

theorem forall₂_and_right {R : α → β → Prop} {P : β → Prop} {items : List α} {results : List β} :
    List.Forall₂ (fun item result => R item result ∧ P result) items results ↔
      List.Forall₂ R items results ∧ ∀ result ∈ results, P result := by
  constructor
  · intro both
    induction both with
    | nil => exact ⟨.nil, List.forall_mem_nil _⟩
    | cons first _ ih =>
      obtain ⟨related, holds⟩ := first
      exact ⟨.cons related ih.1, List.forall_mem_cons.2 ⟨holds, ih.2⟩⟩
  · rintro ⟨related, holds⟩
    induction related with
    | nil => exact .nil
    | cons first _ ih =>
      obtain ⟨firstHolds, othersHold⟩ := List.forall_mem_cons.1 holds
      exact .cons ⟨first, firstHolds⟩ (ih othersHold)

/-- A reader that inverts a writer item by item does so for lists. -/
theorem mapM_eq_ok_iff_of_inverse {f : β → Except ε α} {g : α → β} {P : α → Prop}
    (inverse : ∀ item result, f item = .ok result ↔ item = g result ∧ P result)
    {items : List β} {results : List α} :
    items.mapM f = .ok results ↔ items = results.map g ∧ ∀ result ∈ results, P result := by
  simp only [mapM_eq_ok_iff, inverse]
  rw [forall₂_and_right, ← List.forall₂_eq_eq_eq, List.forall₂_map_right_iff]

end Overlay
