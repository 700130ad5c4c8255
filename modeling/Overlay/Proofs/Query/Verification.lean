import Overlay.Proofs.Block.Publish
import Overlay.Proofs.Record
import Overlay.Query.Verification

/-! What a lookup accepts of a block: the signature of the derived key over the block, data that
opens for zone, label and expiration, and nothing in the data but records. A block that is
verified step by step is held to the same. -/
namespace Overlay
variable {C : Curve}

theorem NameBlock.verify_eq_ok_true_iff {b : NameBlock} :
    b.verify C = .ok true ↔ b.signer.verify C b.signedData = .ok true := by
  rw [verify]
  split
  · next valid checked => simp [checked]
  · next checked => simp [checked]
  · next fault checked => simp [checked]

namespace NameQuery
variable {q : NameQuery} {zone : ZoneKey} {label : String} {b : NameBlock} {records : RecordSet}

theorem make_eq_ok_iff :
    make C zone label = .ok q ↔
      ∃ derived, zone.derive C label nameContext = .ok derived ∧
        q = ⟨zone, label, derived, .none⟩ := by
  rw [make, bind_eq_ok_iff]
  constructor
  · intro made
    obtain ⟨derived, found, same⟩ := made
    exact ⟨derived, mapError_eq_ok_iff.1 found, (Except.ok.inj same).symm⟩
  · rintro ⟨derived, found, rfl⟩
    exact ⟨derived, mapError_eq_ok_iff.2 found, rfl⟩

theorem verify_name_iff :
    q.verify C (.name b) = .ok () ↔
      b.signer.zone = q.derived ∧
        q.derived.verify C b.signedData b.signer.signature = .ok true := by
  constructor
  · intro verified
    by_cases same : b.signer.zone = q.derived
    · refine ⟨same, ?_⟩
      rw [verify, if_neg (not_not.2 same)] at verified
      obtain ⟨valid, checked, verified⟩ := bind_eq_ok_iff.1 verified
      cases valid with
      | false => contradiction
      | true =>
        rw [← same]
        exact NameBlock.verify_eq_ok_true_iff.1 checked
    · rw [verify, if_pos same] at verified
      contradiction
  · intro signed
    obtain ⟨same, signed⟩ := signed
    refine verify_name same (NameBlock.verify_eq_ok_true_iff.2 ?_)
    rw [ZoneSignature.verify, same]
    exact signed

/-- The records of a block are those that its data is written for, if it is for the query. -/
theorem records_name_eq_ok_iff :
    q.records C (.name b) = .ok records ↔
      q.verify C (.name b) = .ok () ∧
        ∃ plaintext, q.zone.openData q.label b.expiration b.data = .ok plaintext ∧
          records.encode = .ok plaintext := by
  rw [NameQuery.records, bind_eq_ok_iff]
  constructor
  · intro recorded
    obtain ⟨_, verified, found⟩ := recorded
    obtain ⟨plaintext, decrypted, read⟩ := bind_eq_ok_iff.1 found
    exact ⟨verified, plaintext, mapError_eq_ok_iff.1 decrypted,
      RecordSet.decode_eq_ok_iff_encode.1 (mapError_eq_ok_iff.1 read)⟩
  · intro sealedFor
    obtain ⟨verified, plaintext, opened, written⟩ := sealedFor
    exact ⟨(), verified, bind_eq_ok_iff.2 ⟨plaintext, mapError_eq_ok_iff.2 opened,
      mapError_eq_ok_iff.2 (RecordSet.decode_eq_ok_iff_encode.2 written)⟩⟩

end NameQuery

/-- The first decryption of a block checks it first. -/
theorem Verification.decrypt_start (q : NameQuery) (b : NameBlock) :
    (start.decrypt C q b).1 = (do q.verify C (.name b); q.decrypt (.name b)) := by
  rw [decrypt, check]
  cases q.verify C (.name b) with
  | error fault => rfl
  | ok _ =>
    rw [ok_bind]
    cases q.decrypt (.name b) <;> rfl

theorem Verification.decrypt_start_eq_ok_iff {q : NameQuery} {b : NameBlock} {plaintext : Bytes} :
    (start.decrypt C q b).1 = .ok plaintext ↔
      q.verify C (.name b) = .ok () ∧ q.zone.openData q.label b.expiration b.data = .ok plaintext := by
  rw [decrypt_start, bind_eq_ok_iff]
  constructor
  · intro decrypted
    obtain ⟨_, verified, decrypted⟩ := decrypted
    exact ⟨verified, mapError_eq_ok_iff.1 decrypted⟩
  · intro opened
    exact ⟨(), opened.1, mapError_eq_ok_iff.2 opened.2⟩

end Overlay
