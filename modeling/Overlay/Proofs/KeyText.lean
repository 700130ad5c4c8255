import Mathlib.Algebra.Order.Floor.Div
import Overlay.Peer
import Overlay.Proofs.Block.Name
import Overlay.Proofs.Text.Crockford.Faults

/-! Base 32 and the keys written in it. Every byte string has one spelling, a text is read as what
its characters stand for, and the public keys of peers and zones are read from that. -/
namespace Overlay

namespace Text.Crockford

def normalised (s : String) : String := String.ofList (s.toList.map canonical)

theorem normalised_encode (data : Bytes) : normalised (encode data) = encode data := by
  rw [normalised, encode, String.toList_ofList, map_canonical_encodeChars]

theorem encode_eq_normalised_iff {s : String} {data : Bytes} :
    encode data = normalised s ↔ s.toList.map canonical = encodeChars data := by
  rw [encode, normalised, String.ofList_inj, eq_comm]

theorem decodeExact_eq_ok_iff_encode {n : Nat} {s : String} {data : Octets n} :
    decodeExact s n = .ok data ↔ encode data.bytes = normalised s := by
  rw [decodeExact_eq_ok_iff, encode_eq_normalised_iff]

end Text.Crockford

open Text

theorem PeerId.ofText_eq_ok_iff {s : String} {p : PeerId} :
    ofText s = .ok p ↔ p.text = Crockford.normalised s := by
  rw [text, ← Crockford.decodeExact_eq_ok_iff_encode, ofText]
  cases Crockford.decodeExact s 32 with
  | error fault => exact ⟨nofun, nofun⟩
  | ok key => exact ⟨fun read => Except.ok.inj read ▸ rfl, fun read => Except.ok.inj read ▸ rfl⟩

theorem ZoneKey.ofText_eq_ok_iff {s : String} {z : ZoneKey} :
    ofText s = .ok z ↔ z.text = Crockford.normalised s := by
  rw [text, ← Crockford.decodeExact_eq_ok_iff_encode, ofText]
  cases Crockford.decodeExact s 36 with
  | error fault => exact ⟨nofun, nofun⟩
  | ok octets =>
    constructor
    · intro read
      rw [Octets.ext (eq_bytes_of_ofBytes read)]
    · intro read
      obtain rfl := Except.ok.inj read
      exact z.ofBytes_bytes

theorem PeerId.ofText_text (p : PeerId) : ofText p.text = .ok p := by
  rw [ofText_eq_ok_iff, text, Crockford.normalised_encode]

theorem ZoneKey.ofText_text (z : ZoneKey) : ofText z.text = .ok z := by
  rw [ofText_eq_ok_iff, text, Crockford.normalised_encode]

/-- Base 32 is exact both ways. What is written has one character for every five bits begun, all of
them of the alphabet; what is read is what the characters stand for, and otherwise the first fault
is named. Keys keep to that. -/
theorem Text.Crockford.spelling_exact (s : String) (data : Bytes) :
    (decode s = .ok data ↔ s.toList.map canonical = (encode data).toList) ∧
      (encode data).length = 8 * data.length ⌈/⌉ 5 ∧ (∀ c ∈ (encode data).toList, c ∈ alphabet) ∧
      Function.Injective encode ∧
      (∀ fault, decode s = .error fault ↔ Faulty s fault) ∧
      decode s = (normaliseAll s.toList >>= decodeRewritten) ∧
      (∀ p : PeerId, PeerId.ofText p.text = .ok p ∧
        (PeerId.ofText s = .ok p ↔ p.text = normalised s)) ∧
      (∀ z : ZoneKey, ZoneKey.ofText z.text = .ok z ∧
        (ZoneKey.ofText s = .ok z ↔ z.text = normalised s)) := by
  have written : (encode data).toList = encodeChars data := String.toList_ofList
  have sized : (encode data).length = 8 * data.length ⌈/⌉ 5 := by
    rw [← String.length_toList, written, length_encodeChars, Nat.ceilDiv_eq_add_pred_div,
      Nat.add_sub_assoc (by decide)]
  rw [written]
  exact ⟨decode_eq_ok_iff, sized, fun _ => mem_alphabet_of_mem_encodeChars, encode_injective,
    fun _ => decode_eq_error_iff, decode_eq_decodeRewritten s,
    fun p => ⟨p.ofText_text, PeerId.ofText_eq_ok_iff⟩,
    fun z => ⟨z.ofText_text, ZoneKey.ofText_eq_ok_iff⟩⟩

end Overlay
