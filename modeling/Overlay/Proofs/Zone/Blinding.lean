import Overlay.Proofs.Eddsa
import Overlay.Proofs.Edwards.Lawful
import Overlay.Zone

/-! Blinded keys. The owner of a zone multiplies a scalar and everybody else a point;
both come to the same key, and signatures of the one verify under the other. -/
namespace Overlay
variable {C : Curve} {OnCurve : C.Point → Prop} (lawful : C.Lawful OnCurve)
include lawful

namespace ZoneSecret

theorem decode_zone (secret : ZoneSecret) :
    C.decode (secret.zone C).key = some (C.mul (Eddsa.expand secret.seed).scalar C.base) :=
  Eddsa.decode_publicKey lawful _

/-- The blinded scalar is reduced twice, the scalar of the zone not at all. -/
theorem blinded_mul (factor scalar : Nat) :
    C.mul (factor * (scalar % C.order) % C.order) C.base = C.mul factor (C.mul scalar C.base) := by
  have onCurve := lawful.onCurve_base
  calc C.mul (factor * (scalar % C.order) % C.order) C.base
      = C.mul (factor * (scalar % C.order)) C.base := lawful.mul_mod_order _
    _ = C.mul factor (C.mul (scalar % C.order) C.base) := (lawful.mul_mul onCurve _ _).symm
    _ = C.mul factor (C.mul scalar C.base) := by rw [lawful.mul_mod_order]

theorem zone_derive (secret : ZoneSecret) (label context : String) :
    (secret.zone C).derive C label context = .ok (secret.derive C label context).zone := by
  simp only [ZoneKey.derive, decode_zone lawful, derive, Eddsa.publicKey, blinded_mul lawful]

end ZoneSecret

namespace BlindedSecret

theorem trySign_eq (blinded : BlindedSecret)
    (own : blinded.zone = ⟨Eddsa.publicKey C blinded.secret⟩) (message : Bytes) :
    blinded.trySign C message = .ok (blinded.sign C message) := by
  simp only [trySign, own, Eddsa.decode_publicKey lawful]

theorem verify_sign (blinded : BlindedSecret)
    (own : blinded.zone = ⟨Eddsa.publicKey C blinded.secret⟩) (message : Bytes) :
    blinded.zone.verify C message (blinded.sign C message) = .ok true := by
  simp only [ZoneKey.verify, sign, own]
  exact Eddsa.verify_sign lawful blinded.secret message

end BlindedSecret

namespace ZoneSecret

/-- Owner and public agree on the blinded key of every label and context, and what the
owner signs with it verifies. -/
theorem blinding_agreement (secret : ZoneSecret) (label context : String) (message : Bytes) :
    (secret.zone C).derive C label context = .ok (secret.derive C label context).zone ∧
      ∃ signature, (secret.derive C label context).trySign C message = .ok signature ∧
        Eddsa.verify C (secret.derive C label context).zone.key message signature.octets =
          .ok true := by
  let blinded := secret.derive C label context
  have signed := BlindedSecret.trySign_eq lawful blinded rfl message
  have verified := BlindedSecret.verify_sign lawful blinded rfl message
  exact ⟨zone_derive lawful secret label context, blinded.sign C message, signed, verified⟩

end ZoneSecret

omit lawful

/-- The agreement on the curve in use, for a zone with a seed of zeros. -/
theorem ZoneSecret.blinding_agreement_ed25519 :
    ed25519.Lawful Ed25519.Point.OnCurve ∧
      (let secret : ZoneSecret := ⟨.zero 32⟩
      (secret.zone ed25519).derive ed25519 "www" "gns" =
          .ok (secret.derive ed25519 "www" "gns").zone ∧
        ∃ signature, (secret.derive ed25519 "www" "gns").trySign ed25519 [1, 2, 3] =
            .ok signature ∧
          Eddsa.verify ed25519 (secret.derive ed25519 "www" "gns").zone.key [1, 2, 3]
            signature.octets = .ok true) :=
  ⟨ed25519_lawful, ZoneSecret.blinding_agreement ed25519_lawful _ "www" "gns" [1, 2, 3]⟩

end Overlay
