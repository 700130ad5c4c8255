import Mathlib.Logic.ExistsUnique
import Overlay.Proofs.Aead
import Overlay.Zone.Sealing

/-! Record data opens for the zone, label and expiration that it was sealed for, and for these
nothing opens but what was sealed. -/
namespace Overlay.ZoneKey
variable (z : ZoneKey) (label : String) (expiration : Timestamp)

theorem sealData_eq_ok {plaintext : Bytes} (fit : Aead.fits plaintext.length = true) :
    ∃ ciphertext, z.sealData label expiration plaintext = .ok ciphertext := by
  simp only [sealData, Aead.encrypt, if_pos fit]
  exact ⟨_, rfl⟩

variable {z label expiration}

theorem sealData_eq_ok_iff {plaintext ciphertext : Bytes} :
    z.sealData label expiration plaintext = .ok ciphertext ↔
      Aead.encrypt (z.sealKey label) (z.sealNonce label expiration) plaintext =
        some ciphertext := by
  unfold sealData
  split <;> simp [*]

theorem length_sealData {plaintext ciphertext : Bytes}
    (done : z.sealData label expiration plaintext = .ok ciphertext) :
    ciphertext.length = plaintext.length + Aead.tagSize :=
  Aead.length_encrypt (sealData_eq_ok_iff.1 done)

theorem openData_sealData {plaintext ciphertext : Bytes}
    (done : z.sealData label expiration plaintext = .ok ciphertext) :
    z.openData label expiration ciphertext = .ok plaintext := by
  have long := length_sealData done
  have decrypted := Aead.decrypt_eq_some_iff.2 (sealData_eq_ok_iff.1 done)
  rw [openData, if_neg (by omega), decrypted]

theorem openData_eq_ok_iff {plaintext ciphertext : Bytes} :
    z.openData label expiration ciphertext = .ok plaintext ↔
      z.sealData label expiration plaintext = .ok ciphertext := by
  refine ⟨fun opened => ?_, openData_sealData⟩
  rw [openData] at opened
  split at opened
  · contradiction
  · split at opened
    · next text decrypted =>
      obtain rfl := Except.ok.inj opened
      exact sealData_eq_ok_iff.2 (Aead.decrypt_eq_some_iff.1 decrypted)
    · contradiction

theorem openData_tooShort_iff {ciphertext : Bytes} :
    z.openData label expiration ciphertext = .error (.decryptionFailed .tooShort) ↔
      ciphertext.length < Aead.tagSize := by
  rw [openData]
  split
  · next short => exact iff_of_true rfl short
  · next long =>
    refine iff_of_false ?_ long
    split <;> simp

theorem openData_append_eq_ok_iff {body plaintext : Bytes} {given : Octets 16} :
    z.openData label expiration (body ++ given.bytes) = .ok plaintext ↔
      Aead.fits body.length ∧
        given = Aead.tag (z.sealKey label) (z.sealNonce label expiration) body ∧
        plaintext = ChaCha20.apply (z.sealKey label) (z.sealNonce label expiration) body := by
  rw [openData_eq_ok_iff, sealData_eq_ok_iff, ← Aead.decrypt_eq_some_iff,
    Aead.decrypt_append_eq_some_iff]

/-- Opening undoes sealing, for texts that the cipher has blocks enough for, and accepts nothing
else: no text that is shorter than a tag, and behind a body one tag only. -/
theorem openData_exact (z : ZoneKey) (label : String) (expiration : Timestamp)
    (plaintext ciphertext body : Bytes) :
    (z.openData label expiration ciphertext = .ok plaintext ↔
        z.sealData label expiration plaintext = .ok ciphertext) ∧
      ((∃ made, z.sealData label expiration plaintext = .ok made ∧
        made.length = plaintext.length + 16 ∧ z.openData label expiration made = .ok plaintext) ↔
          plaintext.length < 64 * (UInt32.size - 1)) ∧
      (z.openData label expiration ciphertext = .error (.decryptionFailed .tooShort) ↔
        ciphertext.length < 16) ∧
      ((∃! tag : Octets 16, ∃ text, z.openData label expiration (body ++ tag.bytes) = .ok text) ↔
        body.length < 64 * (UInt32.size - 1)) := by
  refine ⟨openData_eq_ok_iff, ?sealing, openData_tooShort_iff, ?tags⟩
  case sealing =>
    rw [← Aead.fits_iff]
    constructor
    · rintro ⟨made, done, -⟩
      exact Aead.fits_of_encrypt (sealData_eq_ok_iff.1 done)
    · intro fit
      obtain ⟨made, done⟩ := sealData_eq_ok z label expiration fit
      exact ⟨made, done, length_sealData done, openData_sealData done⟩
  case tags =>
    simp only [openData_append_eq_ok_iff, ← Aead.fits_iff]
    constructor
    · rintro ⟨_, ⟨_, fit, -⟩, -⟩
      exact fit
    · intro fit
      refine ⟨_, ⟨_, fit, rfl, rfl⟩, ?_⟩
      rintro other ⟨_, -, same, -⟩
      exact same

end Overlay.ZoneKey
