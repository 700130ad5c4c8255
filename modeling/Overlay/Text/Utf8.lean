import Overlay.Octets

/-! Texts as UTF-8 bytes and back. -/
namespace Overlay.Text

def utf8 (s : String) : Bytes := s.toByteArray.data.toList

def ofUtf8? (b : Bytes) : Option String := String.fromUTF8? ⟨b.toArray⟩

theorem utf8_injective {s t : String} (same : utf8 s = utf8 t) : s = t := by
  apply String.toByteArray_inj.1
  have := Array.toList_inj.1 same
  cases hs : s.toByteArray; cases ht : t.toByteArray
  simp_all

theorem ofUtf8?_utf8 (s : String) : ofUtf8? (utf8 s) = some s := by
  have whole : (⟨(utf8 s).toArray⟩ : ByteArray) = s.toByteArray := by
    simp [utf8]
  simp [ofUtf8?, whole, String.fromUTF8?, s.isValidUTF8, String.fromUTF8]

theorem utf8_of_ofUtf8? {b : Bytes} {s : String} (read : ofUtf8? b = some s) : utf8 s = b := by
  unfold ofUtf8? String.fromUTF8? at read
  split at read
  · injection read with read
    subst read
    simp [utf8, String.fromUTF8]
  · simp at read

theorem ofUtf8?_eq_some_iff {b : Bytes} {s : String} : ofUtf8? b = some s ↔ b = utf8 s :=
  ⟨fun h => (utf8_of_ofUtf8? h).symm, fun h => h ▸ ofUtf8?_utf8 s⟩

end Overlay.Text
