import Overlay.Crypto.Eddsa
import Overlay.Proofs.Curve
import Overlay.Proofs.Octets.Endian

/-! On a lawful curve what a secret signs verifies under its public key, whatever the
scalar and the nonce key are. -/
namespace Overlay

namespace Octets

theorem firstHalf_append (a b : Octets 32) : (a.append b : Octets 64).firstHalf = a := by
  ext1
  exact List.take_left' a.length_bytes

theorem drop_append {n m : Nat} (a : Octets n) (b : Octets m) :
    (a.append b).bytes.drop n = b.bytes :=
  List.drop_left' a.length_bytes

end Octets

namespace Eddsa
variable {C : Curve} {OnCurve : C.Point → Prop} (lawful : C.Lawful OnCurve)
include lawful

theorem onCurve_publicPoint (secret : Secret) : OnCurve (C.mul secret.scalar C.base) :=
  lawful.onCurve_mul lawful.onCurve_base secret.scalar

theorem decode_publicKey (secret : Secret) :
    C.decode (publicKey C secret) = some (C.mul secret.scalar C.base) :=
  lawful.decode_encode (onCurve_publicPoint lawful secret)

/-- The equation of the signature, with the scalar reduced as the signer does. -/
theorem response_eq (scalar nonce k : Nat) :
    C.add (C.mul ((k * scalar + nonce) % C.order) C.base)
      (C.neg (C.mul k (C.mul scalar C.base))) = C.mul nonce C.base := by
  rw [lawful.mul_mod_order, lawful.mul_mul lawful.onCurve_base, Nat.add_comm,
    lawful.mul_add_sub lawful.onCurve_base]

theorem decode_response (n : Nat) :
    LittleEndian.decode (LittleEndian.octets 32 (n % C.order)).bytes = n % C.order := by
  apply LittleEndian.decode_encode_of_lt
  calc n % C.order < C.order := Nat.mod_lt n lawful.order_pos
    _ ≤ 1 <<< 253 := lawful.order_le
    _ ≤ 256 ^ 32 := by decide

theorem verify_sign (secret : Secret) (message : Bytes) :
    verify C (publicKey C secret) message (sign C secret (publicKey C secret) message) =
      .ok true := by
  have reduced (n : Nat) : n % C.order < C.order := Nat.mod_lt n lawful.order_pos
  have readable (n : Nat) : ¬ 1 <<< 253 ≤ n % C.order :=
    Nat.not_le.2 (Nat.lt_of_lt_of_le (reduced n) lawful.order_le)
  simp only [verify, sign, decode_publicKey lawful, Octets.firstHalf_append,
    Octets.drop_append, decode_response lawful]
  rw [if_neg (readable _), if_neg (Nat.not_le.2 (reduced _)), response_eq lawful,
    decide_eq_true rfl]

end Eddsa
end Overlay
