import Overlay.Text.Style

/-! Texts made to fit: padded to a width or cut to a length, counted in characters. -/
namespace Overlay.Text

theorem toList_pad (width : Nat) (s : String) :
    (pad width s).toList = s.toList ++ List.replicate (width - s.length) ' ' := by
  rw [pad, String.toList_append, String.toList_ofList]

theorem length_toList_pad {width : Nat} {s : String} (fits : s.length ≤ width) :
    (pad width s).toList.length = width := by
  rw [toList_pad, List.length_append, List.length_replicate, String.length_toList]
  omega

variable {s : String} {max : Nat}

theorem abbreviate_of_le (fits : s.length ≤ max) : abbreviate s max = s := if_pos fits

theorem abbreviate_of_lt (long : max < s.length) :
    abbreviate s max = String.ofList (s.toList.take (max - 3)) ++ "..." :=
  if_neg (Nat.not_le_of_lt long)

theorem length_abbreviate_of_lt (room : 3 ≤ max) (long : max < s.length) :
    (abbreviate s max).length = max := by
  have dots : "...".length = 3 := rfl
  rw [abbreviate_of_lt long, String.length_append, String.length_ofList, List.length_take,
    String.length_toList, dots]
  omega

theorem length_abbreviate_le (room : 3 ≤ max) (s : String) : (abbreviate s max).length ≤ max := by
  by_cases fits : s.length ≤ max
  · rwa [abbreviate_of_le fits]
  · exact Nat.le_of_eq (length_abbreviate_of_lt room (Nat.lt_of_not_le fits))

theorem abbreviate_eq_self_iff (room : 3 ≤ max) : abbreviate s max = s ↔ s.length ≤ max := by
  refine ⟨fun same => ?_, abbreviate_of_le⟩
  rw [← same]
  exact length_abbreviate_le room s

theorem abbreviate_abbreviate (room : 3 ≤ max) (s : String) :
    abbreviate (abbreviate s max) max = abbreviate s max :=
  abbreviate_of_le (length_abbreviate_le room s)

end Overlay.Text
