import Overlay.Proofs.Except
import Overlay.Proofs.Octets.Endian
import Overlay.Proofs.Time
import Overlay.Store.Entry

/-! Stored entries are read back from their encoding, whatever follows it, as long as the
lengths in it fit eight bytes. What a lookup makes of an entry depends on its kind, its
expiration and its filter key alone. -/
namespace Overlay.Entry

/-- The lengths of an entry's byte strings fit the eight bytes that they are written with.
Byte strings in memory are never longer. -/
structure Fits (e : Entry) : Prop where
  data : e.data.length < UInt64.size
  filterKey : ∀ key ∈ e.filterKey, key.length < UInt64.size

theorem decodeNumber?_eq_some_iff {width n : Nat} {b rest : Bytes} :
    decodeNumber? width b = some (n, rest) ↔
      n < 256 ^ width ∧ b = LittleEndian.encode width n ++ rest := by
  simp only [decodeNumber?, Option.map_eq_some_iff, Prod.exists, Bytes.cut?_eq_some_iff,
    Prod.mk.injEq]
  constructor
  · rintro ⟨front, _, ⟨rfl, rfl⟩, rfl, rfl⟩
    exact ⟨LittleEndian.decode_lt front, by rw [LittleEndian.encode_decode]⟩
  · rintro ⟨fits, rfl⟩
    exact ⟨_, rest, ⟨rfl, LittleEndian.length_encode width n⟩,
      LittleEndian.decode_encode_of_lt fits, rfl⟩

theorem decodeData?_eq_some_iff {b data rest : Bytes} :
    decodeData? b = some (data, rest) ↔
      data.length < UInt64.size ∧ b = encodeData data ++ rest := by
  simp only [decodeData?, Option.bind_eq_bind, Option.bind_eq_some_iff, Prod.exists,
    decodeNumber?_eq_some_iff, Bytes.cut?_eq_some_iff]
  constructor
  · rintro ⟨_, _, ⟨fits, rfl⟩, rfl, rfl⟩
    exact ⟨fits, by rw [encodeData, List.append_assoc]⟩
  · rintro ⟨fits, rfl⟩
    exact ⟨_, _, ⟨fits, by rw [encodeData, List.append_assoc]⟩, rfl, rfl⟩

theorem present_eq_ok_iff {α : Type} {part : Option α} {a : α} :
    present part = .ok a ↔ part = some a := by
  cases part <;> simp [present]

def encodeFilterKey : Option Bytes → Bytes
  | none => [0]
  | some key => 1 :: encodeData key

theorem encode_eq (e : Entry) :
    e.encode = LittleEndian.encode 2 e.kind.code.toNat ++
      (LittleEndian.encode 8 e.expiration.toNat ++
        (encodeData e.data ++ encodeFilterKey e.filterKey)) := by
  rw [encode, List.append_assoc, List.append_assoc]
  cases e.filterKey <;> rfl

theorem decodeFilterKey_eq_ok_iff {filterKey : Option Bytes} {b : Bytes} :
    decodeFilterKey b = .ok filterKey ↔
      (∀ key ∈ filterKey, key.length < UInt64.size) ∧
        ∃ rest, b = encodeFilterKey filterKey ++ rest := by
  fun_cases decodeFilterKey b with
  | case1 => cases filterKey <;> simp [encodeFilterKey]
  | case2 rest => cases filterKey <;> simp [encodeFilterKey]
  | case3 rest =>
    cases filterKey <;>
      simp [encodeFilterKey, map_eq_ok_iff, present_eq_ok_iff, decodeData?_eq_some_iff]
  | case4 flag rest absent present => cases filterKey <;> simp [encodeFilterKey, absent, present]

/-- Exactly the encodings of entries are read, whatever follows them. -/
theorem decode_eq_ok_iff {e : Entry} {b : Bytes} :
    decode b = .ok e ↔ e.Fits ∧ e.encode <+: b := by
  simp only [decode, bind_eq_ok_iff, present_eq_ok_iff, Prod.exists, decodeNumber?_eq_some_iff,
    decodeData?_eq_some_iff, decodeFilterKey_eq_ok_iff]
  constructor
  · rintro ⟨code, _, ⟨codeFits, rfl⟩, micros, _, ⟨microsFit, rfl⟩, data, _, ⟨dataFits, rfl⟩,
      filterKey, ⟨keyFits, rest, rfl⟩, same⟩
    obtain rfl := Except.ok.inj same
    refine ⟨⟨dataFits, keyFits⟩, rest, ?_⟩
    have kind : (UInt16.ofNat code).toNat = code := UInt16.toNat_ofNat_of_lt codeFits
    simp only [encode_eq, kind, Timestamp.toNat_ofMicros microsFit, List.append_assoc]
  · rintro ⟨⟨dataFits, keyFits⟩, rest, rfl⟩
    have same : (⟨⟨UInt16.ofNat e.kind.code.toNat⟩, .ofMicros e.expiration.toNat, e.data,
        e.filterKey⟩ : Entry) = e := by
      rw [UInt16.ofNat_toNat, Timestamp.ofMicros_toNat]
    refine ⟨_, _, ⟨e.kind.code.toNat_lt, ?_⟩, _, _, ⟨e.expiration.toNat_lt, rfl⟩, _, _,
      ⟨dataFits, rfl⟩, _, ⟨keyFits, rest, rfl⟩, congrArg Except.ok same⟩
    rw [encode_eq]
    simp only [List.append_assoc]

theorem decode_encode_append {e : Entry} (fits : e.Fits) (rest : Bytes) :
    decode (e.encode ++ rest) = .ok e :=
  decode_eq_ok_iff.2 ⟨fits, List.prefix_append _ _⟩

theorem decode_encode {e : Entry} (fits : e.Fits) : decode e.encode = .ok e := by
  simpa using decode_encode_append fits []

theorem answer_eq (now : Timestamp) (q : Query) (e : Entry) :
    e.answer now q =
      if q.kind ≠ .any ∧ q.kind ≠ e.kind then .error .notFound
      else if e.expiration.isExpired now then .error .expired
      else .ok e := by
  simp [answer, BlockKind.accepts]

theorem filteredBy_eq (e : Entry) (f : ResultFilter) :
    e.filteredBy f = e.filterDigest.any f.containsDigest := by
  rw [filteredBy]
  cases e.filterDigest <;> rfl

end Overlay.Entry
