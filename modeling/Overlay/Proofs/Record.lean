import Overlay.Proofs.Except
import Overlay.Proofs.Time
import Overlay.Record

/-! The written form of record sets is exact: a byte string is read as a set if and only
if it is what the set is written as. -/
namespace Overlay

namespace Record

def written (r : Record) : Bytes := r.header ++ r.data

theorem length_header (r : Record) : r.header.length = headerSize := by
  simp [header, headerSize]

theorem header_fields (r : Record) :
    r.header.take 8 = r.expiration.bytes ∧
      (r.header.drop 8).take 2 = BigEndian.encode 2 r.data.length ∧
      (r.header.drop 10).take 2 = BigEndian.encode 2 r.flags.toNat ∧
      (r.header.drop 12).take 4 = BigEndian.encode 4 r.recordType.toNat := by
  simp [header, Timestamp.bytes, List.drop_append, List.take_of_length_le]

theorem dataSize_header {r : Record} (short : r.data.length ≤ maxDataSize) :
    dataSize r.header = r.data.length := by
  obtain ⟨-, size, -, -⟩ := r.header_fields
  rw [dataSize, size]
  exact BigEndian.decode_encode_of_lt (Nat.lt_succ_of_le short)

theorem ofHeader_header (r : Record) : ofHeader r.header r.data = r := by
  obtain ⟨expiration, -, flags, recordType⟩ := r.header_fields
  have flagsRead : BigEndian.decode (BigEndian.encode 2 r.flags.toNat) = r.flags.toNat :=
    BigEndian.decode_encode_of_lt r.flags.toNat_lt
  have typeRead : BigEndian.decode (BigEndian.encode 4 r.recordType.toNat) = r.recordType.toNat :=
    BigEndian.decode_encode_of_lt r.recordType.toNat_lt
  simp only [ofHeader, expiration, flags, recordType, flagsRead, typeRead,
    Timestamp.ofMicros_decode_bytes, UInt16.ofNat_toNat, UInt32.ofNat_toNat]

theorem header_ofHeader {header data : Bytes} (sized : header.length = headerSize)
    (same : dataSize header = data.length) : (ofHeader header data).header = header := by
  have expiration : (ofHeader header data).expiration.bytes = header.take 8 :=
    Timestamp.bytes_ofMicros_decode (by simp [sized, headerSize])
  have size : BigEndian.encode 2 data.length = (header.drop 8).take 2 := by
    rw [← same]
    exact BigEndian.encode_decode_of_length (by simp [sized, headerSize])
  have flags : BigEndian.encode 2 (ofHeader header data).flags.toNat = (header.drop 10).take 2 :=
    BigEndian.encode_decode_mod (by simp [sized, headerSize])
  have recordType : BigEndian.encode 4 (ofHeader header data).recordType.toNat =
      (header.drop 12).take 4 :=
    BigEndian.encode_decode_mod (by simp [sized, headerSize])
  rw [Record.header, expiration, flags, recordType]
  simp only [ofHeader, size]
  rw [← List.take_add, ← List.take_add, ← List.take_add]
  exact List.take_of_length_le (Nat.le_of_eq sized)

theorem dataSize_le (header : Bytes) : dataSize header ≤ maxDataSize := by
  have bound := BigEndian.decode_lt ((header.drop 8).take 2)
  have grown : 256 ^ ((header.drop 8).take 2).length ≤ 256 ^ 2 :=
    Nat.pow_le_pow_right (by decide) (List.length_take_le ..)
  exact Nat.le_of_lt_succ (Nat.lt_of_lt_of_le bound grown)

end Record

namespace RecordSet

theorem decodeRecords_written {r : Record} (short : r.data.length ≤ Record.maxDataSize)
    (count index : Nat) (rest : Bytes) :
    decodeRecords (count + 1) index (r.written ++ rest) =
      (decodeRecords count (index + 1) rest).map (r :: ·) := by
  have header : (r.written ++ rest).cut? Record.headerSize = some (r.header, r.data ++ rest) :=
    Bytes.cut?_eq_some_iff.2 ⟨by simp [Record.written], r.length_header⟩
  have data : (r.data ++ rest).cut? (Record.dataSize r.header) = some (r.data, rest) :=
    Bytes.cut?_eq_some_iff.2 ⟨rfl, (Record.dataSize_header short).symm⟩
  simp only [decodeRecords, header, data, Record.ofHeader_header]
  cases decodeRecords count (index + 1) rest <;> rfl

/-- Whatever a first record was read from is what it is written as. -/
theorem decodeRecords_succ_eq_ok {count index : Nat} {b : Bytes} {records : List Record}
    (found : decodeRecords (count + 1) index b = .ok records) :
    ∃ r rest others, records = r :: others ∧ r.data.length ≤ Record.maxDataSize ∧
      b = r.written ++ rest ∧ decodeRecords count (index + 1) rest = .ok others := by
  simp only [decodeRecords] at found
  split at found
  · contradiction
  · next header afterHeader headerCut =>
    split at found
    · contradiction
    · next data rest dataCut =>
      obtain ⟨rfl, headerSized⟩ := Bytes.cut?_eq_some_iff.1 headerCut
      obtain ⟨rfl, dataSized⟩ := Bytes.cut?_eq_some_iff.1 dataCut
      obtain ⟨others, tail, whole⟩ := bind_eq_ok_iff.1 found
      have same := Record.header_ofHeader headerSized dataSized.symm
      refine ⟨Record.ofHeader header data, rest, others, ?records, ?short, ?written, tail⟩
      case records => exact (Except.ok.inj whole).symm
      case short => exact dataSized ▸ Record.dataSize_le header
      case written => rw [Record.written, same, List.append_assoc]; rfl

theorem decodeRecords_eq_ok_iff {count index : Nat} {b : Bytes} {records : List Record} :
    decodeRecords count index b = .ok records ↔
      records.length = count ∧ (∀ r ∈ records, r.data.length ≤ Record.maxDataSize) ∧
        b = records.flatMap Record.written := by
  induction count generalizing index b records with
  | zero =>
    cases b <;> cases records <;> simp [decodeRecords]
  | succ count ih =>
    constructor
    · intro found
      obtain ⟨r, rest, others, rfl, short, rfl, tail⟩ := decodeRecords_succ_eq_ok found
      obtain ⟨rfl, allShort, rfl⟩ := ih.1 tail
      exact ⟨rfl, List.forall_mem_cons.2 ⟨short, allShort⟩, List.flatMap_cons.symm⟩
    · rintro ⟨sized, allShort, rfl⟩
      obtain ⟨r, others, rfl⟩ := List.exists_cons_of_length_eq_add_one sized
      obtain ⟨short, othersShort⟩ := List.forall_mem_cons.1 allShort
      have tail : decodeRecords count (index + 1) (others.flatMap Record.written) = .ok others :=
        ih.2 ⟨Nat.succ.inj sized, othersShort, rfl⟩
      rw [List.flatMap_cons, decodeRecords_written short, tail]
      rfl

/-- Records are written one after the other, up to the first that is too large. -/
theorem mapM_encode (records : List Record) :
    records.mapM Record.encode =
      match (records.map fun r => r.data.length).find? (Record.maxDataSize < ·) with
      | none => .ok (records.map Record.written)
      | some size => .error (.tooLarge size) := by
  induction records with
  | nil => rfl
  | cons r others ih =>
    rw [List.mapM_cons, ih, List.map_cons, List.find?_cons, Record.encode]
    by_cases short : r.data.length ≤ Record.maxDataSize
    · rw [if_pos short, decide_eq_false (Nat.not_lt.2 short)]
      cases (others.map fun r => r.data.length).find? (Record.maxDataSize < ·) <;> rfl
    · rw [if_neg short, decide_eq_true (Nat.lt_of_not_le short)]
      rfl

theorem encode_of_length_lt {s : RecordSet} (few : s.records.length < UInt32.size) :
    s.encode =
      match (s.records.map fun r => r.data.length).find? (Record.maxDataSize < ·) with
      | none => .ok (BigEndian.encode 4 s.records.length ++ s.records.flatMap Record.written)
      | some size => .error (.tooLarge size) := by
  rw [encode, if_pos few, mapM_encode]
  cases (s.records.map fun r => r.data.length).find? (Record.maxDataSize < ·) <;> rfl

theorem encode_of_length_ge {s : RecordSet} (many : ¬ s.records.length < UInt32.size) :
    s.encode = .error (.malformed .tooMany) :=
  if_neg many

theorem find?_dataSize_eq_none_iff {records : List Record} :
    (records.map fun r => r.data.length).find? (Record.maxDataSize < ·) = none ↔
      ∀ r ∈ records, r.data.length ≤ Record.maxDataSize := by
  simp

theorem encode_eq_ok_iff {s : RecordSet} {b : Bytes} :
    s.encode = .ok b ↔
      s.records.length < UInt32.size ∧ (∀ r ∈ s.records, r.data.length ≤ Record.maxDataSize) ∧
        b = BigEndian.encode 4 s.records.length ++ s.records.flatMap Record.written := by
  by_cases few : s.records.length < UInt32.size
  · rw [encode_of_length_lt few, ← find?_dataSize_eq_none_iff]
    cases (s.records.map fun r => r.data.length).find? (Record.maxDataSize < ·) <;>
      simp [few, eq_comm]
  · simp [encode_of_length_ge few, few]

def writtenSize (records : List Record) : Nat :=
  4 + (records.map fun r => Record.headerSize + r.data.length).sum

theorem length_of_encode {s : RecordSet} {b : Bytes} (written : s.encode = .ok b) :
    b.length = writtenSize s.records := by
  obtain ⟨-, -, rfl⟩ := encode_eq_ok_iff.1 written
  rw [List.length_append, BigEndian.length_encode, List.length_flatMap, writtenSize]
  simp only [Record.written, List.length_append, Record.length_header]

theorem decode_eq_ok_iff {s : RecordSet} {b : Bytes} :
    decode b = .ok s ↔
      s.records.length < UInt32.size ∧ (∀ r ∈ s.records, r.data.length ≤ Record.maxDataSize) ∧
        b = BigEndian.encode 4 s.records.length ++ s.records.flatMap Record.written := by
  constructor
  · intro found
    unfold decode at found
    split at found
    · contradiction
    · next count rest countCut =>
      obtain ⟨rfl, countSized⟩ := Bytes.cut?_eq_some_iff.1 countCut
      obtain ⟨records, read, whole⟩ := bind_eq_ok_iff.1 found
      obtain rfl := Except.ok.inj whole
      obtain ⟨sized, allShort, rfl⟩ := decodeRecords_eq_ok_iff.1 read
      have few : BigEndian.decode count < 256 ^ 4 := by
        rw [← countSized]
        exact BigEndian.decode_lt count
      rw [sized, BigEndian.encode_decode_of_length countSized]
      exact ⟨few, allShort, rfl⟩
  · rintro ⟨few, allShort, rfl⟩
    have count : BigEndian.decode (BigEndian.encode 4 s.records.length) = s.records.length :=
      BigEndian.decode_encode_of_lt few
    have cut : Bytes.cut?
        (BigEndian.encode 4 s.records.length ++ s.records.flatMap Record.written) 4 =
          some (BigEndian.encode 4 s.records.length, s.records.flatMap Record.written) :=
      Bytes.cut?_eq_some_iff.2 ⟨rfl, BigEndian.length_encode ..⟩
    have read : decodeRecords s.records.length 0 (s.records.flatMap Record.written) =
        .ok s.records := decodeRecords_eq_ok_iff.2 ⟨rfl, allShort, rfl⟩
    simp only [decode, cut, count, read]
    rfl

theorem decode_eq_ok_iff_encode {s : RecordSet} {b : Bytes} :
    decode b = .ok s ↔ s.encode = .ok b :=
  decode_eq_ok_iff.trans encode_eq_ok_iff.symm

theorem encode_tooMany_iff {s : RecordSet} :
    s.encode = .error (.malformed .tooMany) ↔ ¬ s.records.length < UInt32.size := by
  refine ⟨fun failed few => ?_, encode_of_length_ge⟩
  rw [encode_of_length_lt few] at failed
  split at failed <;> simp at failed

theorem encode_tooLarge_iff {s : RecordSet} {size : Nat} :
    s.encode = .error (.tooLarge size) ↔ s.records.length < UInt32.size ∧
      (s.records.map fun r => r.data.length).find? (Record.maxDataSize < ·) = some size := by
  by_cases few : s.records.length < UInt32.size
  · rw [encode_of_length_lt few]
    cases (s.records.map fun r => r.data.length).find? (Record.maxDataSize < ·) <;> simp [few]
  · simp [encode_of_length_ge few, few]

theorem encode_eq_error_iff {s : RecordSet} :
    (∃ fault, s.encode = .error fault) ↔
      ¬ s.records.length < UInt32.size ∨ ∃ r ∈ s.records, Record.maxDataSize < r.data.length := by
  by_cases few : s.records.length < UInt32.size
  · rw [encode_of_length_lt few]
    cases first : (s.records.map fun r => r.data.length).find? (Record.maxDataSize < ·) with
    | none =>
      have allShort := find?_dataSize_eq_none_iff.1 first
      simpa [few] using allShort
    | some size =>
      obtain ⟨r, member, rfl⟩ := List.mem_map.1 (List.mem_of_find?_eq_some first)
      have large : Record.maxDataSize < r.data.length := by
        simpa using List.find?_some first
      simpa [few] using ⟨r, member, large⟩
  · simp [encode_of_length_ge few, few]

/-- A byte string is read as a set exactly if the set is written as it. Too many records
are found before any record is written, and of the records too large for their size field
the first is named. -/
theorem codec_exact (s : RecordSet) :
    (∀ b, decode b = .ok s ↔ s.encode = .ok b) ∧
      ((∃ fault, s.encode = .error fault) ↔
        UInt32.size - 1 < s.records.length ∨ ∃ r ∈ s.records, 65535 < r.data.length) ∧
      (s.encode = .error (.malformed .tooMany) ↔ UInt32.size - 1 < s.records.length) ∧
      ∀ n, s.encode = .error (.tooLarge n) ↔ s.records.length ≤ UInt32.size - 1 ∧
        (s.records.map fun r => r.data.length).find? (65535 < ·) = some n := by
  have few_iff : s.records.length < UInt32.size ↔ s.records.length ≤ UInt32.size - 1 :=
    Nat.lt_succ_iff
  have many_iff : ¬ s.records.length < UInt32.size ↔ UInt32.size - 1 < s.records.length :=
    Nat.not_lt.trans Nat.succ_le_iff
  refine ⟨fun b => decode_eq_ok_iff_encode, ?fails, ?tooMany, ?tooLarge⟩
  case fails => exact encode_eq_error_iff.trans (or_congr_left many_iff)
  case tooMany => exact encode_tooMany_iff.trans many_iff
  case tooLarge => exact fun n => encode_tooLarge_iff.trans (and_congr_left' few_iff)

end RecordSet
end Overlay
