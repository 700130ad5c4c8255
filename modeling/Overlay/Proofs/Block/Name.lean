import Overlay.Block.Name
import Overlay.Proofs.Except
import Overlay.Proofs.Octets.Slice
import Overlay.Proofs.Time

/-! The written form of a name block, from which the block is read back if its size
fits the 32 bits of the header, and which is the only one. -/
namespace Overlay

theorem ZoneKey.ofBytes_bytes (z : ZoneKey) : ZoneKey.ofBytes z.bytes = .ok z := by
  have keyType : z.bytes.take 4 = BigEndian.encode 4 edKeyType.toNat :=
    List.take_left' (BigEndian.length_encode ..)
  have known :
      UInt32.ofNat (BigEndian.decode (BigEndian.encode 4 edKeyType.toNat)) = edKeyType := by
    decide
  have key : (z.bytes.drop 4).take 32 = z.key.bytes := by
    rw [show z.bytes.drop 4 = z.key.bytes from List.drop_left' (BigEndian.length_encode ..)]
    exact List.take_of_length_le (by simp)
  rw [ofBytes, dif_pos z.octets.length_bytes]
  simp only [keyType, known, if_true, Octets.slice_eq_of_take_drop key]

theorem ZoneKey.eq_bytes_of_ofBytes {b : Bytes} {z : ZoneKey} (found : ofBytes b = .ok z) :
    b = z.bytes := by
  unfold ofBytes at found
  split at found
  · next sized =>
    dsimp only at found
    split at found
    · next keyType =>
      obtain rfl := Except.ok.inj found
      have front : b.take 4 = BigEndian.encode 4 edKeyType.toNat :=
        BigEndian.decode_of_ofNat_eq (by simp [sized]) keyType
      have back : (b.drop 4).take 32 = b.drop 4 := List.take_of_length_le (by simp [sized])
      calc b = b.take 4 ++ b.drop 4 := (List.take_append_drop 4 b).symm
        _ = BigEndian.encode 4 edKeyType.toNat ++ (b.drop 4).take 32 := by rw [front, back]
    · contradiction
  · contradiction

namespace ZoneSignature

@[simp] theorem length_bytes (s : ZoneSignature) : s.bytes.length = 100 := by
  simp [bytes]

theorem ofBytes_bytes (s : ZoneSignature) : ofBytes s.bytes = .ok s := by
  have zone : s.bytes.take 36 = s.zone.bytes := List.take_left' (by simp)
  have signature : (s.bytes.drop 36).take 64 = s.signature.octets.bytes := by
    rw [show s.bytes.drop 36 = s.signature.bytes from List.drop_left' (by simp)]
    exact List.take_of_length_le (by simp)
  rw [ofBytes, dif_pos s.length_bytes, zone, ZoneKey.ofBytes_bytes,
    Octets.slice_eq_of_take_drop signature]
  rfl

theorem eq_bytes_of_ofBytes {b : Bytes} {s : ZoneSignature}
    (found : ofBytes b = .ok s) : b = s.bytes := by
  unfold ofBytes at found
  split at found
  · next sized =>
    obtain ⟨zone, read, whole⟩ := bind_eq_ok_iff.1 found
    obtain rfl := Except.ok.inj whole
    have front : b.take 36 = zone.bytes := ZoneKey.eq_bytes_of_ofBytes read
    have back : (b.drop 36).take 64 = b.drop 36 := List.take_of_length_le (by simp [sized])
    calc b = b.take 36 ++ b.drop 36 := (List.take_append_drop 36 b).symm
      _ = zone.bytes ++ (b.drop 36).take 64 := by rw [front, back]
  · contradiction

end ZoneSignature

namespace NameBlock

@[simp] theorem length_signedData (b : NameBlock) :
    b.signedData.length = signedHeaderSize + b.data.length := by
  simp [signedData, purposeHeader, signedHeaderSize]
  omega

theorem signedData_fields (b : NameBlock) :
    b.signedData.take 4 = BigEndian.encode 4 (signedHeaderSize + b.data.length) ∧
      (b.signedData.drop 4).take 4 = BigEndian.encode 4 Purpose.gnsRecords.code ∧
      (b.signedData.drop 8).take 8 = b.expiration.bytes ∧
      b.signedData.drop signedHeaderSize = b.data := by
  simp [signedData, purposeHeader, signedHeaderSize, Timestamp.bytes, List.drop_append]

/-- Signer and signed data are taken apart again. Of what is read from the header, only the
size can differ from what it is checked against. -/
theorem decode_bytes_eq (b : NameBlock) :
    decode b.bytes =
      if signedHeaderSize + b.data.length < UInt32.size then .ok b
      else .error (.malformed (.nameSize ((signedHeaderSize + b.data.length) % UInt32.size)
        (signedHeaderSize + b.data.length))) := by
  obtain ⟨sizeField, purposeField, expirationField, dataField⟩ := b.signedData_fields
  have signer : b.bytes.take ZoneSignature.size = b.signer.bytes := List.take_left' (by simp; rfl)
  have signed : b.bytes.drop ZoneSignature.size = b.signedData := List.drop_left' (by simp; rfl)
  have long : ¬ b.bytes.length < fixedSize := by
    simp [bytes, fixedSize, ZoneSignature.size]
  have size : BigEndian.decode (BigEndian.encode 4 (signedHeaderSize + b.data.length)) =
      (signedHeaderSize + b.data.length) % UInt32.size :=
    BigEndian.decode_encode ..
  have purpose : BigEndian.decode (BigEndian.encode 4 Purpose.gnsRecords.code) =
      Purpose.gnsRecords.code := by decide
  simp only [decode, if_neg long, signer, signed, sizeField, purposeField, expirationField,
    dataField, size, purpose, ZoneSignature.ofBytes_bytes, Timestamp.ofMicros_decode_bytes,
    length_signedData]
  by_cases fits : signedHeaderSize + b.data.length < UInt32.size
  · rw [Nat.mod_eq_of_lt fits, if_pos fits]
    simp only [ne_eq, not_true_eq_false, if_false]
    rfl
  · have wrapped : (signedHeaderSize + b.data.length) % UInt32.size ≠
        signedHeaderSize + b.data.length := by
      intro same
      exact fits (same ▸ Nat.mod_lt _ (by decide))
    rw [if_neg fits]
    simp only [if_pos wrapped]
    rfl

theorem decode_bytes {b : NameBlock} (fits : signedHeaderSize + b.data.length < UInt32.size) :
    decode b.bytes = .ok b := by
  rw [decode_bytes_eq, if_pos fits]

/-- Signed data whose size and purpose are as the header says is that of the block whose
expiration and sealed data it holds. -/
theorem signedData_of_fields {signed : Bytes} (signer : ZoneSignature)
    (long : signedHeaderSize ≤ signed.length)
    (size : BigEndian.decode (signed.take 4) = signed.length)
    (purpose : BigEndian.decode ((signed.drop 4).take 4) = Purpose.gnsRecords.code) :
    let b : NameBlock :=
      ⟨signer, .ofMicros (BigEndian.decode ((signed.drop 8).take 8)), signed.drop signedHeaderSize⟩
    b.signedData = signed ∧ signedHeaderSize + b.data.length < UInt32.size := by
  intro b
  rw [signedHeaderSize] at long
  have whole : signedHeaderSize + b.data.length = signed.length := by
    simp only [b, signedHeaderSize, List.length_drop]
    omega
  have sizeField : BigEndian.encode 4 signed.length = signed.take 4 := by
    rw [← size]
    exact BigEndian.encode_decode_of_length (by simp; omega)
  have purposeField : BigEndian.encode 4 Purpose.gnsRecords.code = (signed.drop 4).take 4 := by
    rw [← purpose]
    exact BigEndian.encode_decode_of_length (by simp; omega)
  have expirationField : b.expiration.bytes = (signed.drop 8).take 8 :=
    Timestamp.bytes_ofMicros_decode (by simp; omega)
  constructor
  · rw [signedData, purposeHeader, whole, sizeField, purposeField, expirationField,
      ← List.take_add, ← List.take_add]
    exact List.take_append_drop signedHeaderSize signed
  · rw [whole, ← size]
    refine Nat.lt_of_lt_of_le (BigEndian.decode_lt _) ?_
    exact Nat.pow_le_pow_right (by decide) (List.length_take_le ..)

theorem eq_bytes_of_decode {d : Bytes} {b : NameBlock} (found : decode d = .ok b) :
    d = b.bytes ∧ signedHeaderSize + b.data.length < UInt32.size := by
  unfold decode at found
  dsimp only at found
  split at found
  · contradiction
  · next long =>
    obtain ⟨signer, read, found⟩ := bind_eq_ok_iff.1 found
    split at found
    · contradiction
    · next size =>
      split at found
      · contradiction
      · next purpose =>
        obtain rfl := Except.ok.inj found
        have room : signedHeaderSize ≤ (d.drop ZoneSignature.size).length := by
          rw [fixedSize] at long
          rw [List.length_drop]
          omega
        have front : d.take ZoneSignature.size = signer.bytes :=
          ZoneSignature.eq_bytes_of_ofBytes (mapError_eq_ok_iff.1 read)
        obtain ⟨back, fits⟩ :=
          signedData_of_fields signer room (not_not.1 size) (not_not.1 purpose)
        refine ⟨?_, fits⟩
        rw [bytes, back, ← front, List.take_append_drop]

/-- A block is read back from what it is written as exactly if the size of its signed part
fits 32 bits, and is refused otherwise, with the size that the header is left with. Nothing
else is read as the block. -/
theorem decode_bytes_iff_fits (b : NameBlock) :
    (decode b.bytes = .ok b ↔ 16 + b.data.length < 2 ^ 32) ∧
      (decode b.bytes = .error (.malformed (.nameSize ((16 + b.data.length) % 2 ^ 32)
        (16 + b.data.length))) ↔ ¬ 16 + b.data.length < 2 ^ 32) ∧
      ∀ d, decode d = .ok b ↔ d = b.bytes ∧ 16 + b.data.length < 2 ^ 32 := by
  have whole : decode b.bytes = if 16 + b.data.length < 2 ^ 32 then .ok b
      else .error (.malformed (.nameSize ((16 + b.data.length) % 2 ^ 32)
        (16 + b.data.length))) := b.decode_bytes_eq
  have only (d : Bytes) : decode d = .ok b ↔ d = b.bytes ∧ 16 + b.data.length < 2 ^ 32 := by
    refine ⟨eq_bytes_of_decode, ?_⟩
    rintro ⟨rfl, fits⟩
    exact decode_bytes fits
  by_cases fits : 16 + b.data.length < 2 ^ 32
  · rw [if_pos fits] at whole
    rw [whole]
    exact ⟨iff_of_true rfl fits, iff_of_false nofun (not_not.2 fits), only⟩
  · rw [if_neg fits] at whole
    rw [whole]
    exact ⟨iff_of_false nofun fits, iff_of_true rfl fits, only⟩

end NameBlock
end Overlay
