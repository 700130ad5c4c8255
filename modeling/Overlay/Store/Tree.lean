import Overlay.Octets

/-! Ordered trees of byte strings: a value for each of finitely many keys, listed in
ascending order of the keys. -/
namespace Overlay

/-- Every key is less than the later ones, so that none is there twice. -/
def Ascending (pairs : List (Bytes × Bytes)) : Prop :=
  pairs.Pairwise fun a b => Ord.compare a.1 b.1 = .lt

structure Tree where
  pairs : List (Bytes × Bytes)
  ascending : Ascending pairs
  deriving DecidableEq

namespace Tree

def empty : Tree := ⟨[], .nil⟩

def insertPair (key value : Bytes) : List (Bytes × Bytes) → List (Bytes × Bytes)
  | [] => [(key, value)]
  | (key', value') :: rest =>
    match Ord.compare key key' with
    | .lt => (key, value) :: (key', value') :: rest
    | .eq => (key, value) :: rest
    | .gt => (key', value') :: insertPair key value rest

theorem eq_or_mem_of_mem_insertPair {key value : Bytes} {pair : Bytes × Bytes}
    {pairs : List (Bytes × Bytes)} (found : pair ∈ insertPair key value pairs) :
    pair = (key, value) ∨ pair ∈ pairs := by
  fun_induction insertPair key value pairs <;> grind

theorem ascending_insertPair {pairs : List (Bytes × Bytes)} (key value : Bytes)
    (sorted : Ascending pairs) : Ascending (insertPair key value pairs) := by
  fun_induction insertPair key value pairs with
  | case1 => simp [Ascending]
  | case2 key' value' rest less =>
    refine .cons (fun pair found => ?_) sorted
    rcases List.mem_cons.1 found with rfl | later
    · exact less
    · exact Std.TransCmp.lt_trans less (List.rel_of_pairwise_cons sorted later)
  | case3 key' value' rest same =>
    obtain rfl := Std.LawfulEqOrd.eq_of_compare same
    exact List.pairwise_cons.2 (List.pairwise_cons.1 sorted)
  | case4 key' value' rest greater ih =>
    obtain ⟨first, others⟩ := List.pairwise_cons.1 sorted
    refine .cons (fun pair found => ?_) (ih others)
    rcases eq_or_mem_of_mem_insertPair found with rfl | later
    · exact Std.OrientedCmp.lt_of_gt greater
    · exact first pair later

def insert (t : Tree) (key value : Bytes) : Tree :=
  ⟨insertPair key value t.pairs, ascending_insertPair key value t.ascending⟩

def get? (t : Tree) (key : Bytes) : Option Bytes := t.pairs.lookup key

def remove (t : Tree) (key : Bytes) : Tree :=
  ⟨t.pairs.filter fun pair => pair.1 ≠ key, t.ascending.filter _⟩

end Tree
end Overlay
