import Overlay.Text.Split

/-! Splitting takes a joined text apart again where no piece holds the separator, and the
pieces of any text are joined to it. -/
namespace Overlay.Text

section
variable {α : Type} [DecidableEq α] {separator : α}

theorem splitAll_of_not_mem {piece : List α} (free : separator ∉ piece) :
    splitAll separator piece = [piece] := by
  induction piece with
  | nil => rfl
  | cons c piece ih =>
    obtain ⟨other, rest⟩ := List.ne_and_not_mem_of_not_mem_cons free
    rw [splitAll, if_neg (Ne.symm other), ih rest]

theorem splitAll_append {piece : List α} (free : separator ∉ piece) (rest : List α) :
    splitAll separator (piece ++ separator :: rest) = piece :: splitAll separator rest := by
  induction piece with
  | nil => rw [List.nil_append, splitAll, if_pos rfl]
  | cons c piece ih =>
    obtain ⟨other, unseparated⟩ := List.ne_and_not_mem_of_not_mem_cons free
    rw [List.cons_append, splitAll, if_neg (Ne.symm other), ih unseparated]

theorem splitAll_intercalate {pieces : List (List α)} (nonempty : pieces ≠ [])
    (free : ∀ piece ∈ pieces, separator ∉ piece) :
    splitAll separator ([separator].intercalate pieces) = pieces := by
  induction pieces with
  | nil => contradiction
  | cons piece pieces ih =>
    obtain ⟨pieceFree, othersFree⟩ := List.forall_mem_cons.1 free
    cases pieces with
    | nil => simpa using splitAll_of_not_mem pieceFree
    | cons next pieces =>
      rw [List.intercalate_cons_cons, List.append_assoc, List.singleton_append,
        splitAll_append pieceFree, ih (List.cons_ne_nil _ _) othersFree]

theorem splitAll_ne_nil (items : List α) : splitAll separator items ≠ [] := by
  fun_cases splitAll separator items <;> simp

theorem splitAll_append_cons (front back : List α) :
    splitAll separator (front ++ separator :: back) =
      splitAll separator front ++ splitAll separator back := by
  induction front with
  | nil => exact splitAll_append List.not_mem_nil back
  | cons c front ih =>
    rw [List.cons_append, splitAll, splitAll, ih]
    split
    · rfl
    · have nonempty : splitAll separator front ≠ [] := splitAll_ne_nil front
      obtain ⟨piece, pieces, split⟩ := List.exists_cons_of_ne_nil nonempty
      rw [split]
      rfl

theorem intercalate_splitAll (items : List α) :
    [separator].intercalate (splitAll separator items) = items := by
  fun_induction splitAll separator items with
  | case1 => rfl
  | case2 rest ih =>
    have nonempty : splitAll separator rest ≠ [] := splitAll_ne_nil rest
    obtain ⟨piece, pieces, split⟩ := List.exists_cons_of_ne_nil nonempty
    rw [split] at ih ⊢
    rw [List.intercalate_cons_cons, ih]
    rfl
  | case3 c rest other piece pieces split ih =>
    rw [split] at ih
    rw [← ih]
    cases pieces <;> simp [List.intercalate_cons_cons]
  | case4 c rest other split => exact absurd split (splitAll_ne_nil rest)

theorem not_mem_of_mem_splitAll {items piece : List α} (member : piece ∈ splitAll separator items) :
    separator ∉ piece := by
  fun_induction splitAll separator items generalizing piece with
  | case1 => simp_all
  | case2 rest ih =>
    rcases List.mem_cons.1 member with rfl | inRest
    · exact List.not_mem_nil
    · exact ih inRest
  | case3 c rest other first pieces split ih =>
    rw [split] at ih
    rcases List.mem_cons.1 member with rfl | inRest
    · exact List.not_mem_cons_of_ne_of_not_mem (Ne.symm other) (ih List.mem_cons_self)
    · exact ih (List.mem_cons_of_mem _ inRest)
  | case4 c rest other split => exact absurd split (splitAll_ne_nil rest)

theorem splitAll_eq_iff {items : List α} {pieces : List (List α)} :
    splitAll separator items = pieces ↔ pieces ≠ [] ∧ (∀ piece ∈ pieces, separator ∉ piece) ∧
      items = [separator].intercalate pieces := by
  constructor
  · rintro rfl
    exact ⟨splitAll_ne_nil items, fun _ => not_mem_of_mem_splitAll,
      (intercalate_splitAll items).symm⟩
  · rintro ⟨nonempty, free, rfl⟩
    exact splitAll_intercalate nonempty free

theorem splitAll_flatMap {pieces : List (List α)} (free : ∀ piece ∈ pieces, separator ∉ piece) :
    splitAll separator (pieces.flatMap (· ++ [separator])) = pieces ++ [[]] := by
  induction pieces with
  | nil => rfl
  | cons piece pieces ih =>
    obtain ⟨pieceFree, othersFree⟩ := List.forall_mem_cons.1 free
    rw [List.flatMap_cons, List.append_assoc, List.singleton_append, splitAll_append pieceFree,
      ih othersFree, List.cons_append]

omit [DecidableEq α] in
theorem intercalate_append_singleton {pieces : List (List α)} (nonempty : pieces ≠ []) :
    [separator].intercalate pieces ++ [separator] = pieces.flatMap (· ++ [separator]) := by
  induction pieces with
  | nil => contradiction
  | cons piece pieces ih =>
    cases pieces with
    | nil => simp
    | cons next others =>
      rw [List.intercalate_cons_cons, List.append_assoc, ih (List.cons_ne_nil _ _)]
      simp only [List.flatMap_cons]

end

theorem splitOnce_cons_append {c : Char} {before : List Char} (free : c ∉ before)
    (others after : List Char) :
    splitOnce (c :: others) (before ++ (c :: others ++ after)) = some (before, after) := by
  induction before with
  | nil =>
    have whole : (c :: others).isPrefixOf (c :: (others ++ after)) = true :=
      List.isPrefixOf_iff_prefix.2 (List.prefix_append ..)
    simp [splitOnce, whole]
  | cons x before ih =>
    obtain ⟨other, rest⟩ := List.ne_and_not_mem_of_not_mem_cons free
    simpa [splitOnce, other] using ih rest

theorem splitOnce_append {c : Char} {before : List Char} (free : c ∉ before) (after : List Char) :
    splitOnce [c] (before ++ c :: after) = some (before, after) :=
  splitOnce_cons_append free [] after

theorem splitOnce_of_not_mem {c : Char} {cs : List Char} (free : c ∉ cs) :
    splitOnce [c] cs = none := by
  induction cs with
  | nil => simp [splitOnce]
  | cons x cs ih =>
    obtain ⟨other, rest⟩ := List.ne_and_not_mem_of_not_mem_cons free
    simp [splitOnce, other, ih rest]

theorem eq_append_of_splitOnce {separator cs before after : List Char}
    (found : splitOnce separator cs = some (before, after)) :
    cs = before ++ (separator ++ after) := by
  fun_induction splitOnce separator cs generalizing before after with
  | case1 => simp_all
  | case2 => simp_all
  | case3 c rest starts =>
    obtain ⟨rfl, rfl⟩ := Prod.mk.inj (Option.some.inj found)
    obtain ⟨after, whole⟩ := List.isPrefixOf_iff_prefix.1 starts
    rw [← whole, List.drop_left, List.nil_append]
  | case4 c rest starts ih =>
    obtain ⟨⟨inRest, after⟩, split, same⟩ := Option.map_eq_some_iff.1 found
    obtain ⟨rfl, rfl⟩ := Prod.mk.inj same
    rw [ih split, List.cons_append]

/-- What stands before and after a separator that occurs nowhere earlier. -/
structure CutAtFirst (separator cs before after : List Char) : Prop where
  whole : cs = before ++ (separator ++ after)
  first : ∀ front back, cs = front ++ (separator ++ back) → before.length ≤ front.length

theorem CutAtFirst.unique {separator cs before after before' after' : List Char}
    (cut : CutAtFirst separator cs before after) (cut' : CutAtFirst separator cs before' after') :
    before = before' ∧ after = after' := by
  have sized : before.length = before'.length :=
    Nat.le_antisymm (cut.first _ _ cut'.whole) (cut'.first _ _ cut.whole)
  obtain ⟨same, rest⟩ := List.append_inj (cut.whole.symm.trans cut'.whole) sized
  exact ⟨same, List.append_cancel_left rest⟩

theorem cutAtFirst_of_splitOnce {separator cs before after : List Char}
    (found : splitOnce separator cs = some (before, after)) :
    CutAtFirst separator cs before after := by
  refine ⟨eq_append_of_splitOnce found, ?_⟩
  fun_induction splitOnce separator cs generalizing before after with
  | case1 => simp_all
  | case2 => contradiction
  | case3 c rest starts =>
    obtain ⟨rfl, rfl⟩ := Prod.mk.inj (Option.some.inj found)
    exact fun _ _ _ => Nat.zero_le _
  | case4 c rest starts ih =>
    obtain ⟨⟨inRest, after⟩, split, same⟩ := Option.map_eq_some_iff.1 found
    obtain ⟨rfl, rfl⟩ := Prod.mk.inj same
    intro front back whole
    cases front with
    | nil => exact absurd (List.isPrefixOf_iff_prefix.2 ⟨back, whole.symm⟩) starts
    | cons x front =>
      obtain ⟨-, whole⟩ := List.cons.inj whole
      exact Nat.succ_le_succ (ih split front back whole)

theorem splitOnce_eq_none_iff {separator cs : List Char} :
    splitOnce separator cs = none ↔ ¬ separator <:+: cs := by
  fun_induction splitOnce separator cs with
  | case1 empty => simpa using empty
  | case2 other => simpa using other
  | case3 c rest starts =>
    have inside : separator <:+: c :: rest := (List.isPrefixOf_iff_prefix.1 starts).isInfix
    simp [inside]
  | case4 c rest starts ih =>
    rw [Option.map_eq_none_iff, ih, List.infix_cons_iff, not_or, ← List.isPrefixOf_iff_prefix]
    exact (and_iff_right starts).symm

theorem splitOnce_eq_some_iff {separator cs before after : List Char} :
    splitOnce separator cs = some (before, after) ↔ CutAtFirst separator cs before after := by
  refine ⟨cutAtFirst_of_splitOnce, fun cut => ?_⟩
  cases found : splitOnce separator cs with
  | none => exact absurd ⟨before, after, by simp [cut.whole]⟩ (splitOnce_eq_none_iff.1 found)
  | some parts =>
    obtain ⟨rfl, rfl⟩ := cut.unique (cutAtFirst_of_splitOnce found)
    rfl

/-- The separator is cut out at its first place. -/
theorem splitOnce_singleton_eq_some_iff {c : Char} {cs before after : List Char} :
    splitOnce [c] cs = some (before, after) ↔ cs = before ++ c :: after ∧ c ∉ before := by
  constructor
  · intro found
    by_cases member : c ∈ cs
    · obtain ⟨front, back, rfl, free⟩ := List.eq_append_cons_of_mem member
      rw [splitOnce_append free] at found
      obtain ⟨rfl, rfl⟩ := Prod.mk.inj (Option.some.inj found)
      exact ⟨rfl, free⟩
    · rw [splitOnce_of_not_mem member] at found
      contradiction
  · rintro ⟨rfl, free⟩
    exact splitOnce_append free after

theorem splitOnce_singleton_eq_none_iff {c : Char} {cs : List Char} :
    splitOnce [c] cs = none ↔ c ∉ cs := by
  refine ⟨fun missing member => ?_, splitOnce_of_not_mem⟩
  obtain ⟨front, back, rfl, free⟩ := List.eq_append_cons_of_mem member
  rw [splitOnce_append free] at missing
  contradiction

end Overlay.Text
