import Overlay.Crypto.Aead
import Overlay.Proofs.Octets.Xor

/-! What is sealed opens again. The key stream is taken away by laying it over the text
a second time, and the tag is computed from the ciphertext on both sides. -/
namespace Overlay

namespace ChaCha20

theorem length_stream (key : Octets 32) (nonce : Octets 12) (counter count : Nat) :
    (stream key nonce counter count).length = 64 * count := by
  simp [stream, List.length_flatMap, List.map_const', Nat.mul_comm]

theorem length_apply (key : Octets 32) (nonce : Octets 12) (text : Bytes) :
    (apply key nonce text).length = text.length := by
  rw [apply, List.length_zipWith, length_stream]
  omega

theorem apply_apply (key : Octets 32) (nonce : Octets 12) (text : Bytes) :
    apply key nonce (apply key nonce text) = text := by
  rw [apply, length_apply, apply]
  apply zipWith_xor_xor
  rw [length_stream]
  omega

end ChaCha20

namespace Aead

theorem fits_iff {size : Nat} : fits size ↔ size < 64 * (UInt32.size - 1) := by
  simp only [fits, UInt32.size, decide_eq_true_eq]
  omega

/-- Behind a ciphertext that is not too long one tag is accepted, and it is the computed one. -/
theorem decrypt_append_eq_some_iff {key : Octets 32} {nonce : Octets 12} {ciphertext text : Bytes}
    {given : Octets 16} :
    decrypt key nonce (ciphertext ++ given.bytes) = some text ↔
      fits ciphertext.length ∧ given = tag key nonce ciphertext ∧
        text = ChaCha20.apply key nonce ciphertext := by
  have size : (ciphertext ++ given.bytes).length - tagSize = ciphertext.length := by simp [tagSize]
  have room : tagSize ≤ (ciphertext ++ given.bytes).length := by simp [tagSize]
  simp only [decrypt, size, List.take_left, List.drop_left, ← Octets.ext_iff, room, true_and]
  split
  · next accepted => simp [accepted, eq_comm]
  · next refused =>
    refine iff_of_false nofun ?_
    rintro ⟨fit, authentic, -⟩
    exact refused ⟨fit, authentic⟩

theorem fits_of_encrypt {key : Octets 32} {nonce : Octets 12} {plaintext ciphertext : Bytes}
    (encrypted : encrypt key nonce plaintext = some ciphertext) : fits plaintext.length := by
  unfold encrypt at encrypted
  split at encrypted
  · next fit => exact fit
  · contradiction

theorem length_encrypt {key : Octets 32} {nonce : Octets 12} {plaintext ciphertext : Bytes}
    (encrypted : encrypt key nonce plaintext = some ciphertext) :
    ciphertext.length = plaintext.length + tagSize := by
  unfold encrypt at encrypted
  split at encrypted
  · obtain rfl := Option.some.inj encrypted
    simp [ChaCha20.length_apply, tagSize]
  · contradiction

/-- A text is opened exactly if it is what sealing gives. -/
theorem decrypt_eq_some_iff {key : Octets 32} {nonce : Octets 12} {plaintext ciphertext : Bytes} :
    decrypt key nonce ciphertext = some plaintext ↔
      encrypt key nonce plaintext = some ciphertext := by
  constructor
  · intro decrypted
    simp only [decrypt] at decrypted
    split at decrypted
    · next accepted =>
      obtain ⟨long, fit, authentic⟩ := accepted
      obtain rfl := Option.some.inj decrypted
      have sized : (ciphertext.take (ciphertext.length - tagSize)).length =
          ciphertext.length - tagSize := by simp
      rw [encrypt, ChaCha20.length_apply, sized, if_pos fit, ChaCha20.apply_apply]
      simp only [← authentic, List.take_append_drop]
    · contradiction
  · intro encrypted
    unfold encrypt at encrypted
    split at encrypted
    · next fit =>
      obtain rfl := Option.some.inj encrypted
      have sized := ChaCha20.length_apply key nonce plaintext
      exact decrypt_append_eq_some_iff.2
        ⟨sized.symm ▸ fit, rfl, (ChaCha20.apply_apply key nonce plaintext).symm⟩
    · contradiction

end Aead
end Overlay
