import Overlay.Proofs.Query.Verification

/-! Sets of records as they are published: the private records have no part in the block, and
the others are found in it again. -/
namespace Overlay
variable {C : Curve} {OnCurve : C.Point → Prop}

theorem ZoneKey.exists_sealData_iff {z : ZoneKey} {label : String} {expiration : Timestamp}
    {plaintext : Bytes} :
    (∃ data, z.sealData label expiration plaintext = .ok data) ↔
      Aead.fits plaintext.length = true := by
  refine ⟨?_, z.sealData_eq_ok label expiration⟩
  intro ⟨data, done⟩
  have encrypted := ZoneKey.sealData_eq_ok_iff.1 done
  rw [Aead.encrypt] at encrypted
  split at encrypted
  · assumption
  · contradiction

namespace NameBlock
variable {secret : ZoneSecret} {label : String} {expiration : Timestamp} {plaintext : Bytes}
  {b : NameBlock}

/-- What is published holds the sealed data, under the blinded key and signed with it. -/
structure Publishes (C : Curve) (secret : ZoneSecret) (label : String) (expiration : Timestamp)
    (plaintext : Bytes) (b : NameBlock) : Prop where
  expires : b.expiration = expiration
  signer : b.signer.zone = (secret.derive C label nameContext).zone
  signature : b.signer.signature = (secret.derive C label nameContext).sign C b.signedData
  sealedData : (secret.zone C).sealData label expiration plaintext = .ok b.data

theorem publishes_of_publish (done : publish C secret label expiration plaintext = .ok b) :
    Publishes C secret label expiration plaintext b := by
  obtain ⟨data, read, done⟩ := bind_eq_ok_iff.1 done
  obtain ⟨signature, signed, done⟩ := bind_eq_ok_iff.1 done
  have signed := mapError_eq_ok_iff.1 signed
  rw [BlindedSecret.trySign] at signed
  split at signed
  · contradiction
  · obtain rfl := Except.ok.inj signed
    obtain rfl := Except.ok.inj done
    exact ⟨rfl, rfl, rfl, mapError_eq_ok_iff.1 read⟩

namespace Publishes

theorem fits (done : Publishes C secret label expiration plaintext b) :
    Aead.fits plaintext.length = true :=
  ZoneKey.exists_sealData_iff.1 ⟨b.data, done.sealedData⟩

theorem length_data (done : Publishes C secret label expiration plaintext b) :
    b.data.length = plaintext.length + Aead.tagSize :=
  ZoneKey.length_sealData done.sealedData

theorem verify (lawful : C.Lawful OnCurve)
    (done : Publishes C secret label expiration plaintext b) : b.verify C = .ok true :=
  verify_of_blinded lawful rfl done.signer done.signature

theorem openData (done : Publishes C secret label expiration plaintext b) :
    (secret.zone C).openData label b.expiration b.data = .ok plaintext := by
  rw [done.expires]
  exact ZoneKey.openData_sealData done.sealedData

theorem sized (done : Publishes C secret label expiration plaintext b)
    (fits : 32 + plaintext.length < UInt32.size) :
    signedHeaderSize + b.data.length < UInt32.size := by
  rw [done.length_data, signedHeaderSize, Aead.tagSize]
  omega

theorem key_eq (lawful : C.Lawful OnCurve)
    (done : Publishes C secret label expiration plaintext b) {q : NameQuery}
    (made : NameQuery.make C (secret.zone C) label = .ok q) : q.key = b.routingKey := by
  rw [NameQuery.make_zone lawful] at made
  obtain rfl := Except.ok.inj made
  rw [routingKey, done.signer, NameQuery.key]

end Publishes

/-- What is published under a label are the records of a set that are not private. -/
theorem publishRecords_eq_ok {s : RecordSet} (done : publishRecords C secret label s = .ok b) :
    ∃ plaintext, s.publicRecords.encode = .ok plaintext ∧
      Publishes C secret label s.publicRecords.expiration plaintext b := by
  obtain ⟨plaintext, encoded, done⟩ := bind_eq_ok_iff.1 done
  exact ⟨plaintext, mapError_eq_ok_iff.1 encoded, publishes_of_publish done⟩

end NameBlock

theorem Record.isPrivate_txt (value : String) (expiration : Timestamp) :
    (Record.txt value expiration).isPrivate = false :=
  show ((0 : UInt16) &&& privateFlag != 0) = false from rfl

namespace RecordSet

theorem isEarliest_expiration (s : RecordSet) :
    s.expiration.IsEarliest (s.records.map Record.expiration) :=
  Timestamp.isEarliest_foldl _

end RecordSet

namespace NameBlock

/-- Records are published exactly if those that are not private can be written, in a text that
can be sealed. -/
theorem exists_publishRecords_iff (lawful : C.Lawful OnCurve) {secret : ZoneSecret}
    {label : String} {s : RecordSet} :
    (∃ b, publishRecords C secret label s = .ok b) ↔
      (∀ r ∈ s.publicRecords.records, r.data.length ≤ Record.maxDataSize) ∧
        s.publicRecords.records.length < UInt32.size ∧
        Aead.fits (RecordSet.writtenSize s.publicRecords.records) = true := by
  constructor
  · intro ⟨b, done⟩
    obtain ⟨plaintext, written, published⟩ := publishRecords_eq_ok done
    obtain ⟨few, short, -⟩ := RecordSet.encode_eq_ok_iff.1 written
    rw [← RecordSet.length_of_encode written]
    exact ⟨short, few, published.fits⟩
  · intro ⟨short, few, fits⟩
    have written := RecordSet.encode_eq_ok_iff.2 ⟨few, short, rfl⟩
    rw [← RecordSet.length_of_encode written] at fits
    obtain ⟨b, done, -⟩ :=
      publish_eq_ok lawful secret label s.publicRecords.expiration fits
    refine ⟨b, ?_⟩
    rw [publishRecords, written]
    exact done

/-- The block of a set of records is made of those that are not private, and nothing else: it
is the same for every set in which these are the same. It is there if these can be written and
sealed. The lookup of the label finds them in it in their order, and the block expires with the
first of them. -/
theorem publishRecords_public (lawful : C.Lawful OnCurve) (secret : ZoneSecret) (label : String)
    (s : RecordSet) :
    let shown := s.records.filter fun r => !r.isPrivate
    ((∃ b, publishRecords C secret label s = .ok b) ↔
      (∀ r ∈ shown, r.data.length ≤ 65535) ∧ shown.length < UInt32.size ∧
        Aead.fits (RecordSet.writtenSize shown) = true) ∧
    (∀ b, publishRecords C secret label s = .ok b →
      (∃ q, NameQuery.make C (secret.zone C) label = .ok q ∧
        q.records C (.name b) = .ok ⟨shown⟩) ∧
      b.expiration.IsEarliest (shown.map Record.expiration) ∧
      ∀ now, b.expiration.isExpired now ↔ ∃ r ∈ shown, r.expiration.isExpired now) ∧
    ∀ other : RecordSet, (other.records.filter fun r => !r.isPrivate) = shown →
      publishRecords C secret label other = publishRecords C secret label s := by
  intro shown
  refine ⟨exists_publishRecords_iff lawful, ?found, ?same⟩
  case found =>
    intro b done
    obtain ⟨plaintext, written, published⟩ := publishRecords_eq_ok done
    have earliest : b.expiration.IsEarliest (shown.map Record.expiration) := by
      rw [published.expires]
      exact s.publicRecords.isEarliest_expiration
    let q : NameQuery :=
      ⟨secret.zone C, label, (secret.derive C label nameContext).zone, .none⟩
    have verified : q.verify C (.name b) = .ok () :=
      NameQuery.verify_name published.signer (published.verify lawful)
    refine ⟨⟨q, NameQuery.make_zone lawful secret label, ?_⟩, earliest, fun now => ?_⟩
    · exact NameQuery.records_name_eq_ok_iff.2 ⟨verified, plaintext, published.openData, written⟩
    · have expired : b.expiration.isExpired now ↔
          ∃ u ∈ shown.map Record.expiration, u.isExpired now := earliest.isExpired_iff
      simpa using expired
  case same =>
    intro other same
    have same : other.publicRecords = s.publicRecords := congrArg RecordSet.mk same
    rw [publishRecords, publishRecords, same]

/-- A private record that is too large to be written is left out, and does not count for the
expiration either. -/
theorem publishRecords_public_oversize :
    let large : Record := ⟨.ofMicros 1, Record.txtType, Record.privateFlag, List.replicate 70000 0⟩
    let first : Record := .txt "a" (.ofMicros 3)
    let second : Record := .txt "b" (.ofMicros 2)
    let secret : ZoneSecret := ⟨.zero 32⟩
    ed25519.Lawful Ed25519.Point.OnCurve ∧
      ∃ b q, publishRecords ed25519 secret "www" ⟨[first, large, second]⟩ = .ok b ∧
        NameQuery.make ed25519 (secret.zone ed25519) "www" = .ok q ∧
        q.records ed25519 (.name b) = .ok ⟨[first, second]⟩ ∧
        b.expiration.isExpired (.ofMicros 2) ∧ ¬ b.expiration.isExpired (.ofMicros 1) := by
  intro large first second secret
  have hidden : (Record.privateFlag &&& Record.privateFlag != 0) = true := rfl
  have shown : ([first, large, second].filter fun r => !r.isPrivate) = [first, second] := by
    simp [first, second, Record.isPrivate_txt, show large.isPrivate = true from hidden]
  obtain ⟨published, found, -⟩ :=
    publishRecords_public ed25519_lawful secret "www" ⟨[first, large, second]⟩
  simp only [shown] at published found
  obtain ⟨b, done⟩ := published.2 ⟨by decide, by decide, by decide⟩
  obtain ⟨⟨q, made, records⟩, -, expired⟩ := found b done
  refine ⟨ed25519_lawful, b, q, done, made, records, (expired _).2 ?_, ?_⟩
  · exact ⟨second, by decide, by decide⟩
  · rw [expired]
    decide

end NameBlock
end Overlay
