import Overlay.Store.Tree

/-! Trees by what they have under a key: an insertion or a removal is seen there and nowhere
else. -/
namespace Overlay

theorem lookup_cons_eq_ite {α β : Type} [BEq α] (key key' : α) (value : β) (rest : List (α × β)) :
    ((key', value) :: rest).lookup key = if key == key' then some value else rest.lookup key := by
  rw [List.lookup_cons]
  cases key == key' <;> rfl

/-- A list of pairs with distinct keys has a pair exactly where the key is looked up to it. -/
theorem mem_iff_lookup {α β : Type} [BEq α] [LawfulBEq α] {pairs : List (α × β)}
    (distinct : (pairs.map Prod.fst).Nodup) {key : α} {value : β} :
    (key, value) ∈ pairs ↔ pairs.lookup key = some value := by
  induction pairs with
  | nil => simp
  | cons pair rest ih =>
    obtain ⟨key', value'⟩ := pair
    obtain ⟨new, others⟩ := List.nodup_cons.1 distinct
    rw [List.mem_cons, lookup_cons_eq_ite]
    by_cases same : key = key'
    · subst same
      have absent : (key, value) ∉ rest := fun found =>
        new (List.mem_map.2 ⟨(key, value), found, rfl⟩)
      simp [absent, eq_comm]
    · simp [same, ih others]

namespace Tree

theorem distinct (t : Tree) : (t.pairs.map Prod.fst).Nodup := by
  rw [List.Nodup, List.pairwise_map]
  refine t.ascending.imp fun less same => ?_
  rw [same] at less
  exact Std.OrientedCmp.not_lt_of_lt less less

theorem mem_pairs_iff {t : Tree} {key value : Bytes} :
    (key, value) ∈ t.pairs ↔ t.get? key = some value :=
  mem_iff_lookup t.distinct

theorem get?_empty (key : Bytes) : empty.get? key = none := rfl

theorem get?_insert (t : Tree) (key value other : Bytes) :
    (t.insert key value).get? other = if other = key then some value else t.get? other := by
  obtain ⟨pairs, ascending⟩ := t
  simp only [insert, get?]
  clear ascending
  fun_induction insertPair key value pairs with
  | case1 => by_cases same : other = key <;> simp [lookup_cons_eq_ite, same]
  | case2 => by_cases same : other = key <;> simp [lookup_cons_eq_ite, same]
  | case3 key' value' rest equal =>
    obtain rfl := Std.LawfulEqOrd.eq_of_compare equal
    by_cases same : other = key <;> simp [lookup_cons_eq_ite, same]
  | case4 key' value' rest greater ih =>
    have differ : key' ≠ key := by
      rintro rfl
      have less := Std.OrientedCmp.lt_of_gt greater
      exact Std.OrientedCmp.not_lt_of_lt less less
    by_cases same : other = key' <;> simp [lookup_cons_eq_ite, same, differ, ih]

/-- The tree without the pairs that are not kept. -/
def filter (t : Tree) (keep : Bytes × Bytes → Bool) : Tree :=
  ⟨t.pairs.filter keep, t.ascending.filter _⟩

theorem get?_filter_eq_some_iff {t : Tree} {keep : Bytes × Bytes → Bool} {key value : Bytes} :
    (t.filter keep).get? key = some value ↔ t.get? key = some value ∧ keep (key, value) := by
  rw [← mem_pairs_iff, filter, List.mem_filter, mem_pairs_iff]

theorem filter_congr {t : Tree} {keep keep' : Bytes × Bytes → Bool}
    (same : ∀ pair ∈ t.pairs, keep pair = keep' pair) : t.filter keep = t.filter keep' := by
  simp only [filter, List.filter_congr same]

theorem filter_eq_self {t : Tree} {keep : Bytes × Bytes → Bool}
    (all : ∀ pair ∈ t.pairs, keep pair) : t.filter keep = t := by
  simp only [filter, List.filter_eq_self.2 all]

theorem foldl_remove (keys : List Bytes) (t : Tree) :
    keys.foldl remove t = t.filter fun pair => pair.1 ∉ keys := by
  induction keys generalizing t with
  | nil => exact (filter_eq_self fun _ _ => rfl).symm
  | cons key keys ih => simp [ih, remove, filter, List.filter_filter, Bool.and_comm]

end Tree
end Overlay
