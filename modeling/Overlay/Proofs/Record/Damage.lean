import Overlay.Proofs.Record

/-! Byte strings that are damaged record sets. A written set that was cut off is blamed on the
part of it that is cut through, one that was extended on what follows it, and a number of records
that the bytes have no room for is not believed. -/
namespace Overlay.RecordSet

/-- What is cut through where the written form of some records ends after `size` bytes. -/
inductive CutAt (records : List Record) (size : Nat) : RecordFault → Prop where
  | count (short : size < 4) : CutAt records size .tooShort
  | header {before after : List Record} {r : Record} (split : records = before ++ r :: after)
      (begun : writtenSize before ≤ size)
      (short : size < writtenSize before + Record.headerSize) :
      CutAt records size (.truncated before.length)
  | data {before after : List Record} {r : Record} (split : records = before ++ r :: after)
      (begun : writtenSize before + Record.headerSize ≤ size)
      (short : size < writtenSize before + Record.headerSize + r.data.length) :
      CutAt records size (.dataTruncated before.length)

theorem length_flatMap_written (records : List Record) :
    4 + (records.flatMap Record.written).length = writtenSize records := by
  rw [List.length_flatMap, writtenSize]
  simp only [Record.written, List.length_append, Record.length_header]

theorem writtenSize_append_cons (before after : List Record) (r : Record) :
    writtenSize (before ++ r :: after) =
      writtenSize before + (Record.headerSize + r.data.length) +
        (after.map fun r => Record.headerSize + r.data.length).sum := by
  simp only [writtenSize, List.map_append, List.map_cons, List.sum_append, List.sum_cons]
  omega

/-- Every place before the end is within the number of records, a header or some data. -/
theorem exists_cutAt {records : List Record} {size : Nat} (inside : size < writtenSize records) :
    ∃ fault, CutAt records size fault := by
  by_cases counted : size < 4
  · exact ⟨_, .count counted⟩
  -- The record that is cut through is the first one that ends after the place.
  suffices found : ∃ before r after, records = before ++ r :: after ∧ writtenSize before ≤ size ∧
      size < writtenSize before + (Record.headerSize + r.data.length) by
    obtain ⟨before, r, after, split, begun, short⟩ := found
    by_cases headed : size < writtenSize before + Record.headerSize
    · exact ⟨_, .header split begun headed⟩
    · exact ⟨_, .data split (Nat.not_lt.1 headed) (by omega)⟩
  induction records using List.reverseRecOn with
  | nil => exact absurd inside counted
  | append_singleton records r ih =>
    by_cases earlier : size < writtenSize records
    · obtain ⟨before, r', after, rfl, begun, short⟩ := ih earlier
      exact ⟨before, r', after ++ [r], by simp, begun, short⟩
    · rw [writtenSize_append_cons, List.map_nil, List.sum_nil] at inside
      exact ⟨records, r, [], rfl, Nat.not_lt.1 earlier, inside⟩

theorem decodeRecords_append {records : List Record}
    (short : ∀ r ∈ records, r.data.length ≤ Record.maxDataSize) (count index : Nat)
    (rest : Bytes) :
    decodeRecords (records.length + count) index (records.flatMap Record.written ++ rest) =
      (decodeRecords count (index + records.length) rest).map (records ++ ·) := by
  induction records generalizing index with
  | nil =>
    rw [List.length_nil, Nat.zero_add, List.flatMap_nil, List.nil_append, Nat.add_zero]
    cases decodeRecords count index rest <;> rfl
  | cons r records ih =>
    obtain ⟨first, others⟩ := List.forall_mem_cons.1 short
    have next : index + 1 + records.length = index + (records.length + 1) := by omega
    rw [List.flatMap_cons, List.append_assoc, List.length_cons, Nat.add_right_comm,
      decodeRecords_written first, ih others, next]
    cases decodeRecords count (index + (records.length + 1)) rest <;> rfl

theorem decode_encode_count {count : Nat} (few : count < UInt32.size) (rest : Bytes) :
    decode (BigEndian.encode 4 count ++ rest) =
      (decodeRecords count 0 rest).map RecordSet.mk := by
  have cut : Bytes.cut? (BigEndian.encode 4 count ++ rest) 4 =
      some (BigEndian.encode 4 count, rest) :=
    Bytes.cut?_eq_some_iff.2 ⟨rfl, BigEndian.length_encode ..⟩
  have read : BigEndian.decode (BigEndian.encode 4 count) = count :=
    BigEndian.decode_encode_of_lt few
  rw [decode, cut]
  dsimp only
  rw [read]
  cases decodeRecords count 0 rest <;> rfl

theorem decode_of_short {b : Bytes} (short : b.length < 4) :
    decode b = .error (.malformed .tooShort) := by
  rw [decode, Bytes.cut?_eq_none_iff.2 short]
  rfl

theorem decodeRecords_of_short_header {count index : Nat} {b : Bytes}
    (short : b.length < Record.headerSize) :
    decodeRecords (count + 1) index b = .error (.malformed (.truncated index)) := by
  rw [decodeRecords, Bytes.cut?_eq_none_iff.2 short]

theorem decodeRecords_of_short_data {r : Record} (fits : r.data.length ≤ Record.maxDataSize)
    {count index : Nat} {b : Bytes} (short : b.length < r.data.length) :
    decodeRecords (count + 1) index (r.header ++ b) =
      .error (.malformed (.dataTruncated index)) := by
  have header : (r.header ++ b).cut? Record.headerSize = some (r.header, b) :=
    Bytes.cut?_eq_some_iff.2 ⟨rfl, r.length_header⟩
  rw [decodeRecords, header]
  dsimp only
  rw [Record.dataSize_header fits, Bytes.cut?_eq_none_iff.2 short]

variable {s : RecordSet} {b : Bytes}

/-- What is left of a written set after whole records is read as the following ones. -/
theorem decode_of_whole {before after : List Record}
    (written : s.encode = .ok b) (split : s.records = before ++ after) (rest : Bytes) :
    decode (BigEndian.encode 4 s.records.length ++ before.flatMap Record.written ++ rest) =
      (decodeRecords after.length before.length rest).map fun others => ⟨before ++ others⟩ := by
  obtain ⟨few, short, -⟩ := encode_eq_ok_iff.1 written
  rw [split] at short
  have front : ∀ r ∈ before, r.data.length ≤ Record.maxDataSize :=
    fun r member => short r (List.mem_append_left after member)
  rw [List.append_assoc, decode_encode_count few, split, List.length_append,
    decodeRecords_append front, Nat.zero_add]
  cases decodeRecords after.length before.length rest <;> rfl

/-- Of two ways to split a byte string the later one splits the rest of the earlier one. -/
theorem split_of_le {front back head tail : Bytes} (same : front ++ back = head ++ tail)
    (reached : head.length ≤ front.length) :
    ∃ rest, front = head ++ rest ∧ rest ++ back = tail := by
  have within : head <+: front :=
    List.prefix_of_prefix_length_le (List.prefix_append head tail) ⟨back, same⟩ reached
  obtain ⟨rest, rfl⟩ := within
  rw [List.append_assoc] at same
  exact ⟨rest, rfl, List.append_cancel_left same⟩

/-- Bytes that reach into a record are read up to it. -/
theorem decode_of_begun {front back : Bytes} {before after : List Record} {r : Record}
    (written : s.encode = .ok (front ++ back)) (split : s.records = before ++ r :: after)
    (begun : writtenSize before ≤ front.length) :
    ∃ rest, front.length = writtenSize before + rest.length ∧
      rest ++ back = r.header ++ (r.data ++ after.flatMap Record.written) ∧
      decode front = (decodeRecords (after.length + 1) before.length rest).map
        fun others => ⟨before ++ others⟩ := by
  obtain ⟨-, -, whole⟩ := encode_eq_ok_iff.1 written
  have size : (BigEndian.encode 4 s.records.length ++ before.flatMap Record.written).length =
      writtenSize before := by
    rw [List.length_append, BigEndian.length_encode, length_flatMap_written]
  have parted : front ++ back =
      BigEndian.encode 4 s.records.length ++ before.flatMap Record.written ++
        (r :: after).flatMap Record.written := by
    rw [whole, List.append_assoc, ← List.flatMap_append, ← split]
  obtain ⟨rest, rfl, last⟩ := split_of_le parted (size ▸ begun)
  refine ⟨rest, ?_, ?_, decode_of_whole written split rest⟩
  · rw [List.length_append, size]
  · rw [last, List.flatMap_cons, Record.written, List.append_assoc]

theorem decode_of_cutAt {front back : Bytes} {fault : RecordFault}
    (written : s.encode = .ok (front ++ back)) (cut : CutAt s.records front.length fault) :
    decode front = .error (.malformed fault) := by
  cases cut with
  | count short => exact decode_of_short short
  | @header before after r split begun short =>
    obtain ⟨rest, size, -, read⟩ := decode_of_begun written split begun
    rw [read, decodeRecords_of_short_header (by omega)]
    rfl
  | @data before after r split begun short =>
    obtain ⟨rest, size, last, read⟩ :=
      decode_of_begun written split (Nat.le_of_add_right_le begun)
    obtain ⟨-, fits, -⟩ := encode_eq_ok_iff.1 written
    have fits : r.data.length ≤ Record.maxDataSize := fits r (by simp [split])
    obtain ⟨data, rfl, -⟩ := split_of_le last (by rw [r.length_header]; omega)
    rw [List.length_append, r.length_header] at size
    rw [read, decodeRecords_of_short_data fits (by omega)]
    rfl

theorem decode_append {extra : Bytes} (written : s.encode = .ok b) (nonempty : extra ≠ []) :
    decode (b ++ extra) = .error (.malformed (.trailing extra.length)) := by
  obtain ⟨-, -, rfl⟩ := encode_eq_ok_iff.1 written
  have left : decodeRecords 0 s.records.length extra =
      .error (.malformed (.trailing extra.length)) := by
    rw [decodeRecords, List.isEmpty_eq_false_iff.2 nonempty]
    rfl
  rw [decode_of_whole written (List.append_nil _).symm, List.length_nil, left]
  rfl

/-- Records that there is no room for are missed. -/
theorem decodeRecords_of_no_room {count : Nat} (index : Nat) {b : Bytes}
    (noRoom : b.length < Record.headerSize * count) :
    ∃ i < index + count, decodeRecords count index b = .error (.malformed (.truncated i)) ∨
      decodeRecords count index b = .error (.malformed (.dataTruncated i)) := by
  induction count generalizing index b with
  | zero => simp at noRoom
  | succ count ih =>
    rw [decodeRecords]
    split
    · exact ⟨index, by omega, .inl rfl⟩
    · next header rest headerCut =>
      obtain ⟨rfl, headed⟩ := Bytes.cut?_eq_some_iff.1 headerCut
      split
      · exact ⟨index, by omega, .inr rfl⟩
      · next data rest dataCut =>
        obtain ⟨rfl, -⟩ := Bytes.cut?_eq_some_iff.1 dataCut
        rw [List.length_append, List.length_append, headed, Nat.mul_succ] at noRoom
        obtain ⟨i, low, missed⟩ := ih (index + 1) (b := rest) (by omega)
        exact ⟨i, by omega, missed.imp (fun fault => bind_eq_error_iff.2 (.inl fault))
          fun fault => bind_eq_error_iff.2 (.inl fault)⟩

theorem decode_of_no_room {count : Nat} {rest : Bytes} (few : count < UInt32.size)
    (noRoom : rest.length < Record.headerSize * count) :
    ∃ i < count,
      decode (BigEndian.encode 4 count ++ rest) = .error (.malformed (.truncated i)) ∨
        decode (BigEndian.encode 4 count ++ rest) = .error (.malformed (.dataTruncated i)) := by
  obtain ⟨i, low, missed⟩ := decodeRecords_of_no_room 0 noRoom
  rw [Nat.zero_add] at low
  refine ⟨i, low, ?_⟩
  rwa [decode_encode_count few, map_eq_error_iff, map_eq_error_iff]

theorem length_records_le {x : Bytes} (read : decode x = .ok s) :
    Record.headerSize * s.records.length ≤ x.length - 4 := by
  obtain ⟨few, -, rfl⟩ := decode_eq_ok_iff.1 read
  rw [List.length_append, BigEndian.length_encode, Nat.add_sub_cancel_left]
  by_contra more
  obtain ⟨i, -, missed | missed⟩ := decode_of_no_room few (Nat.not_le.1 more)
  · exact absurd (read.symm.trans missed) nofun
  · exact absurd (read.symm.trans missed) nofun

/-- A written set that is cut off is refused for what is cut through: the number of records, the
header of a record, or its data. One that is extended is refused for the bytes that follow it. Of
any byte string at most as many records are read as it has room for, and a greater number in front
of the others is refused for a record that is missed, whatever the other bytes are. -/
theorem decode_damaged (written : s.encode = .ok b) :
    (∀ front back, b = front ++ back → back ≠ [] →
      (∃ fault, CutAt s.records front.length fault) ∧
        ∀ fault, CutAt s.records front.length fault →
          decode front = .error (.malformed fault)) ∧
      (∀ extra, extra ≠ [] → decode (b ++ extra) = .error (.malformed (.trailing extra.length))) ∧
      (∀ x t, decode x = .ok t → t.records.length ≤ (x.length - 4) / 16) ∧
      (∀ count < UInt32.size, ∀ rest : Bytes, rest.length / 16 < count → ∃ i < count,
        decode (BigEndian.encode 4 count ++ rest) = .error (.malformed (.truncated i)) ∨
          decode (BigEndian.encode 4 count ++ rest) = .error (.malformed (.dataTruncated i))) ∧
      ∀ n, [.tooShort, .truncated n, .dataTruncated n, .trailing n].map RecordFault.message =
        ["Record set too short", s!"Record {n} truncated", s!"Record {n} data truncated",
          s!"{n} trailing bytes"] := by
  have room (n size : Nat) : size / 16 < n ↔ size < Record.headerSize * n :=
    (Nat.div_lt_iff_lt_mul (by decide)).trans (by rw [Nat.mul_comm, Record.headerSize])
  refine ⟨?cut, fun extra => decode_append written, ?accepted, ?forged, fun n => rfl⟩
  case cut =>
    intro front back parted shorter
    subst parted
    refine ⟨exists_cutAt ?_, fun fault => decode_of_cutAt written⟩
    rw [← length_of_encode written, List.length_append]
    exact Nat.lt_add_of_pos_right (List.length_pos_iff.2 shorter)
  case accepted =>
    intro x t read
    rw [← Nat.not_lt, room, Nat.not_lt]
    exact length_records_le read
  case forged =>
    intro count few rest noRoom
    exact decode_of_no_room few ((room _ _).1 noRoom)

/-- Two records, of which the second one is cut within its data, is followed by a byte, or is
missing altogether. -/
theorem decode_damaged_second :
    let s : RecordSet := ⟨[⟨.never, 1, 0, [10, 0, 0, 1]⟩, ⟨.never, 16, 2, [104, 105]⟩]⟩
    ∃ b, s.encode = .ok b ∧ b.length = 42 ∧
      decode (b.take 41) = .error (.malformed (.dataTruncated 1)) ∧
      decode (b.take 39) = .error (.malformed (.truncated 1)) ∧
      decode (b ++ [0]) = .error (.malformed (.trailing 1)) ∧
      ∃ i < 2, decode (BigEndian.encode 4 2 ++ List.replicate 31 0) =
          .error (.malformed (.truncated i)) ∨
        decode (BigEndian.encode 4 2 ++ List.replicate 31 0) =
          .error (.malformed (.dataTruncated i)) := by
  intro s
  obtain ⟨b, written, size⟩ : ∃ b, s.encode = .ok b ∧ b.length = 42 := ⟨_, rfl, by decide⟩
  obtain ⟨cut, extended, -, forged, -⟩ := decode_damaged written
  have parts (n : Nat) (inside : n < 42) : b.drop n ≠ [] := by
    rw [← List.length_pos_iff, List.length_drop, size]
    omega
  have data := cut (b.take 41) (b.drop 41) (List.take_append_drop ..).symm (parts 41 (by decide))
  have header := cut (b.take 39) (b.drop 39) (List.take_append_drop ..).symm (parts 39 (by decide))
  rw [List.length_take, size] at data header
  have split : s.records = [⟨.never, 1, 0, [10, 0, 0, 1]⟩] ++ ⟨.never, 16, 2, [104, 105]⟩ :: [] :=
    rfl
  exact ⟨b, written, size, data.2 _ (.data split (by decide) (by decide)),
    header.2 _ (.header split (by decide) (by decide)), extended [0] (by decide),
    forged 2 (by decide) _ (by decide)⟩

end Overlay.RecordSet
