import Overlay.Digest
import Overlay.Proofs.Octets.Xor

/-! Digests are their bytes. Distances are ordered like theirs, and those of one digest to
others tell the others apart. -/
namespace Overlay

namespace Digest

theorem bytes_injective {a b : Digest} (same : a.bytes = b.bytes) : a = b := by
  obtain ⟨a⟩ := a
  obtain ⟨b⟩ := b
  exact congrArg Digest.mk (Octets.ext same)

theorem ofBytes?_eq_some_iff {b : Bytes} {d : Digest} : ofBytes? b = some d ↔ b = d.bytes := by
  rw [ofBytes?, Option.map_eq_some_iff]
  constructor
  · rintro ⟨octets, found, rfl⟩
    exact (Octets.ofBytes?_eq_some_iff.1 found).symm
  · rintro rfl
    exact ⟨d.octets, Octets.ofBytes?_bytes d.octets, rfl⟩

theorem distance_injective (a : Digest) {b c : Digest} (same : a.distance b = a.distance c) :
    b = c := by
  obtain ⟨b⟩ := b
  obtain ⟨c⟩ := c
  exact congrArg Digest.mk (a.octets.xor_right_injective (Distance.mk.inj same))

end Digest

namespace Distance

instance : Std.TransCmp Distance.compare :=
  inferInstanceAs (Std.TransCmp (compareOn Distance.bytes))

instance : Std.LawfulEqCmp Distance.compare where
  eq_of_compare {a b} same := by
    obtain ⟨a⟩ := a
    obtain ⟨b⟩ := b
    exact congrArg Distance.mk (Octets.ext (Std.LawfulEqOrd.eq_of_compare same))

theorem compare_lt_of_isLE {a b : Distance} (differ : a ≠ b) (le : (a.compare b).isLE) :
    a.compare b = .lt := by
  cases order : a.compare b with
  | lt => rfl
  | eq => exact absurd (Std.LawfulEqCmp.eq_of_compare order) differ
  | gt => simp [order] at le

end Distance

end Overlay
