import Overlay.Proofs.Block.Name
import Overlay.Proofs.Except
import Overlay.Proofs.Zone.Blinding
import Overlay.Proofs.Zone.Sealing
import Overlay.Query

/-! What is published under a label is found by a lookup of the label: under the same
routing key, with a signature that the lookup accepts and data that it opens. -/
namespace Overlay
variable {C : Curve} {OnCurve : C.Point → Prop} (lawful : C.Lawful OnCurve)

theorem Aead.fits_of_lt {size : Nat} (short : 32 + size < UInt32.size) : fits size = true := by
  rw [fits_iff]
  simp only [UInt32.size] at short ⊢
  omega

include lawful

namespace NameBlock

/-- The block holds the sealed data and a signature by the blinded key, which does not
cover itself. -/
theorem publish_eq_ok (secret : ZoneSecret) (label : String) (expiration : Timestamp)
    {plaintext : Bytes} (fits : Aead.fits plaintext.length = true) :
    ∃ block, publish C secret label expiration plaintext = .ok block ∧
      block.expiration = expiration ∧
      block.signer.zone = (secret.derive C label nameContext).zone ∧
      block.signer.signature = (secret.derive C label nameContext).sign C block.signedData ∧
      (secret.zone C).sealData label expiration plaintext = .ok block.data := by
  obtain ⟨data, done⟩ := (secret.zone C).sealData_eq_ok label expiration fits
  let blinded := secret.derive C label nameContext
  let unsigned : NameBlock := ⟨⟨blinded.zone, .empty⟩, expiration, data⟩
  have signed := BlindedSecret.trySign_eq lawful blinded rfl unsigned.signedData
  refine ⟨⟨⟨blinded.zone, blinded.sign C unsigned.signedData⟩, expiration, data⟩,
    ?published, rfl, rfl, rfl, done⟩
  rw [publish, done]
  simp only [Except.mapError, ok_bind]
  rw [signed]
  rfl

theorem verify_of_blinded {block : NameBlock} {blinded : BlindedSecret}
    (own : blinded.zone = ⟨Eddsa.publicKey C blinded.secret⟩)
    (zone : block.signer.zone = blinded.zone)
    (signature : block.signer.signature = blinded.sign C block.signedData) :
    block.verify C = .ok true := by
  rw [verify, ZoneSignature.verify, zone, signature, BlindedSecret.verify_sign lawful blinded own]

end NameBlock

namespace NameQuery

theorem make_zone (secret : ZoneSecret) (label : String) :
    make C (secret.zone C) label =
      .ok ⟨secret.zone C, label, (secret.derive C label nameContext).zone, .none⟩ := by
  rw [make, ZoneSecret.zone_derive lawful]
  rfl

omit lawful in
theorem verify_name {query : NameQuery} {block : NameBlock}
    (same : block.signer.zone = query.derived) (verified : block.verify C = .ok true) :
    query.verify C (.name block) = .ok () := by
  simp only [verify, same, ne_eq, not_true_eq_false, if_false, verified]
  rfl

end NameQuery

namespace NameBlock

/-- Every plaintext that fits is published, and the lookup of its label in its zone finds
the block by its routing key, accepts it and decrypts it, also after the block has been
written and read. -/
theorem publish_then_lookup (secret : ZoneSecret) (label : String) (expiration : Timestamp)
    (plaintext : Bytes) (fits : 32 + plaintext.length < UInt32.size) :
    ∃ block query derived,
      publish C secret label expiration plaintext = .ok block ∧
      decode block.bytes = .ok block ∧
      NameQuery.make C (secret.zone C) label = .ok query ∧
      (secret.zone C).derive C label "gns" = .ok derived ∧
      query.key = block.routingKey ∧
      block.routingKey = ⟨Sha512.hash derived.bytes⟩ ∧
      block.verify C = .ok true ∧
      query.verify C (.name block) = .ok () ∧
      query.decrypt (.name block) = .ok plaintext := by
  obtain ⟨block, published, expires, zone, signature, done⟩ :=
    publish_eq_ok lawful secret label expiration (Aead.fits_of_lt fits)
  have sized : signedHeaderSize + block.data.length < UInt32.size := by
    rw [ZoneKey.length_sealData done, signedHeaderSize, Aead.tagSize]
    omega
  have verified := verify_of_blinded lawful rfl zone signature
  have opened := ZoneKey.openData_sealData done
  refine ⟨block, _, _, published, decode_bytes sized, NameQuery.make_zone lawful secret label,
    ZoneSecret.zone_derive lawful secret label "gns", ?key, ?digest, verified,
    NameQuery.verify_name zone verified, ?plaintext⟩
  case key => rw [NameQuery.key, routingKey, zone]
  case digest => rw [routingKey, zone]; rfl
  case plaintext => rw [NameQuery.decrypt, expires, opened]; rfl

omit lawful

/-- On the curve in use, two bytes under a label that is not ASCII. -/
theorem publish_then_lookup_ed25519 :
    ed25519.Lawful Ed25519.Point.OnCurve ∧ 32 + [7, 8].length < UInt32.size ∧
      (let secret : ZoneSecret := ⟨.zero 32⟩
      ∃ block query derived,
        publish ed25519 secret "wörld" (.ofMicros 1500000) [7, 8] = .ok block ∧
        decode block.bytes = .ok block ∧
        NameQuery.make ed25519 (secret.zone ed25519) "wörld" = .ok query ∧
        (secret.zone ed25519).derive ed25519 "wörld" "gns" = .ok derived ∧
        query.key = block.routingKey ∧
        block.routingKey = ⟨Sha512.hash derived.bytes⟩ ∧
        block.verify ed25519 = .ok true ∧
        query.verify ed25519 (.name block) = .ok () ∧
        query.decrypt (.name block) = .ok [7, 8]) :=
  ⟨ed25519_lawful, by decide,
    publish_then_lookup ed25519_lawful _ "wörld" (.ofMicros 1500000) [7, 8] (by decide)⟩

end NameBlock
end Overlay
