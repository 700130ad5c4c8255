import Overlay.Octets

/-! Fields of a known width inside a byte string. -/
namespace Overlay.Octets
variable {n : Nat} {b : Bytes}

theorem slice_eq_of_take_drop {start : Nat} {inside : start + n ≤ b.length} {a : Octets n}
    (same : (b.drop start).take n = a.bytes) : slice b start n inside = a :=
  Octets.ext same

theorem exists_append (long : n ≤ b.length) :
    ∃ (a : Octets n) (rest : Bytes), b = a.bytes ++ rest :=
  ⟨⟨b.take n, List.length_take_of_le long⟩, b.drop n, (List.take_append_drop n b).symm⟩

end Overlay.Octets
