import Overlay.Proofs.Block.Hello
import Overlay.Proofs.Eddsa
import Overlay.Proofs.Edwards.Lawful

/-! Announcements that are signed by their peer, and what verifying says about any others. The
signature is no part of what it covers, so signing again changes nothing, and whoever reads the
announcement finds the signature valid. -/
namespace Overlay
variable {C : Curve} {OnCurve : C.Point → Prop}

/-- The scalar of a signature is not read if one of the three highest bits of its last byte is
set. -/
def Signature.Undecodable (s : Signature) : Prop := ∃ last ∈ s.bytes.getLast?, last &&& 0xe0 ≠ 0

theorem and_high_ne_zero_iff (x : UInt8) : x &&& 0xe0 ≠ 0 ↔ 32 ≤ x.toNat := by
  have high : ∀ n < 256, n &&& 0xe0 ≠ 0 ↔ 32 ≤ n := by decide +kernel
  rw [← high x.toNat x.toNat_lt, ne_eq, ne_eq, ← UInt8.toNat_inj, UInt8.toNat_and]
  rfl

theorem Signature.undecodable_iff {s : Signature} :
    s.Undecodable ↔ 1 <<< 253 ≤ LittleEndian.decode (s.bytes.drop 32) := by
  obtain ⟨front, last, split⟩ : ∃ front last, s.bytes = front ++ [last] := by
    have nonempty : s.bytes ≠ [] := List.ne_nil_of_length_pos (by rw [s.octets.length_eq]; decide)
    exact ⟨_, _, (List.dropLast_concat_getLast nonempty).symm⟩
  have size : front.length = 63 := by
    have whole := s.octets.length_eq
    rw [show s.octets.bytes = _ from split, List.length_append, List.length_singleton] at whole
    omega
  have scalar : LittleEndian.decode (s.bytes.drop 32) =
      LittleEndian.decode (front.drop 32) + 256 ^ 31 * last.toNat := by
    rw [split, List.drop_append_of_le_length (by omega), LittleEndian.decode_append_singleton,
      List.length_drop, size]
  have low : LittleEndian.decode (front.drop 32) < 256 ^ 31 := by
    have bound := LittleEndian.decode_lt (front.drop 32)
    rwa [List.length_drop, size] at bound
  rw [Undecodable, scalar, split, List.getLast?_append]
  simp only [List.getLast?_singleton, Option.some_or, Option.mem_some_iff, exists_eq_left',
    and_high_ne_zero_iff]
  have power : 1 <<< 253 = 256 ^ 31 * 32 := by decide
  rw [power]
  constructor
  · intro high
    have scaled := Nat.mul_le_mul_left (256 ^ 31) high
    omega
  · intro high
    by_contra small
    have scaled := Nat.mul_le_mul_left (256 ^ 31) (Nat.lt_succ_iff.1 (Nat.not_le.1 small))
    omega

/-- Only a key that is no point and a scalar that is not read are faults. -/
theorem Eddsa.verify_eq_error_iff {key : Octets 32} {message : Bytes} {s : Signature}
    {fault : CryptoError} :
    verify C key message s.octets = .error fault ↔
      C.decode key = none ∧ fault = .invalidKey .undecodable ∨
        (C.decode key).isSome ∧ s.Undecodable ∧ fault = .invalidSignature .undecodable := by
  rw [verify]
  cases C.decode key with
  | none => simp [eq_comm]
  | some a =>
    dsimp only
    by_cases high : s.Undecodable
    · rw [if_pos (Signature.undecodable_iff.1 high)]
      simp [high, eq_comm]
    · rw [if_neg (mt Signature.undecodable_iff.2 high)]
      split <;> simp [high]

namespace Hello
variable {h : Hello} {secret : PeerSecret}

theorem sign_eq_ok_iff {signed : Hello} :
    h.sign C secret = .ok signed ↔
      secret.peerId C = h.peer ∧ signed = { h with signature := secret.sign C h.signedData } := by
  rw [sign]
  split
  · next own => simp [own, eq_comm]
  · next other => simp [other]

theorem sign_eq_error_iff {fault : BlockError} :
    h.sign C secret = .error fault ↔
      secret.peerId C ≠ h.peer ∧ fault = .crypto (.invalidKey .otherPeer) := by
  rw [sign]
  split
  · next own => simp [own]
  · next other => simp [other, eq_comm]

def attempted (C : Curve) (secret : PeerSecret) (h : Hello) : Hello :=
  (h.sign C secret).toOption.getD h

theorem verify_eq_error_iff {fault : BlockError} :
    h.verify C = .error fault ↔
      C.decode h.peer.key = none ∧ fault = .crypto (.invalidKey .undecodable) := by
  have faults (cause : CryptoError) :=
    @Eddsa.verify_eq_error_iff C h.peer.key h.signedData h.signature cause
  rw [verify, PeerId.verify]
  cases read : Eddsa.verify C h.peer.key h.signedData h.signature.octets with
  | ok valid =>
    have key : C.decode h.peer.key ≠ none := by
      intro none
      exact absurd (read.symm.trans ((faults _).2 (.inl ⟨none, rfl⟩))) nofun
    simp [key]
  | error cause =>
    rcases (faults _).1 read with ⟨none, rfl⟩ | ⟨key, -, rfl⟩
    · simp [none, eq_comm]
    · simp [Option.isSome_iff_ne_none.1 key]

theorem verify_of_undecodable (key : (C.decode h.peer.key).isSome)
    (unread : h.signature.Undecodable) : h.verify C = .ok false := by
  have read : Eddsa.verify C h.peer.key h.signedData h.signature.octets =
      .error (.invalidSignature .undecodable) :=
    Eddsa.verify_eq_error_iff.2 (.inr ⟨key, unread, rfl⟩)
  rw [verify, PeerId.verify, read]

/-- The signature is no part of what it covers. -/
theorem signedData_withSignature (h : Hello) (signature : Signature) :
    signedData { h with signature } = h.signedData := rfl

theorem verify_sign (lawful : C.Lawful OnCurve) (own : secret.peerId C = h.peer) :
    verify C { h with signature := secret.sign C h.signedData } = .ok true := by
  have valid : Eddsa.verify C h.peer.key h.signedData (secret.sign C h.signedData).octets =
      .ok true := by
    rw [← own]
    exact Eddsa.verify_sign lawful (Eddsa.expand secret.seed) h.signedData
  simp only [verify, PeerId.verify, signedData_withSignature, valid]

/-- An announcement is refused a signature exactly if the secret is not that of its peer, and stays
as it is then. Otherwise it gains a signature and keeps all else, signing it again comes to the
same, and it verifies, also after it was written and read again. Verifying any announcement at all
fails exactly if its peer is no point of the curve; if it is one, a signature that cannot be decoded
is not valid. -/
theorem sign_then_verify (lawful : C.Lawful OnCurve) (secret : PeerSecret) (h : Hello) :
    (∀ fault, h.sign C secret = .error fault ↔
      secret.peerId C ≠ h.peer ∧ fault = .crypto (.invalidKey .otherPeer)) ∧
      (secret.peerId C ≠ h.peer → h.attempted C secret = h) ∧
      (secret.peerId C = h.peer → ∃ signature, h.sign C secret = .ok { h with signature } ∧
        h.attempted C secret = { h with signature } ∧
        sign C { h with signature } secret = .ok { h with signature } ∧
        verify C { h with signature } = .ok true ∧
        ((∀ a ∈ h.addresses, a.WellFormed) → ∃ read,
          decode (bytes { h with signature }) = .ok read ∧ read = { h with signature } ∧
            read.verify C = .ok true)) ∧
      (∀ other : Hello, (∀ fault, other.verify C = .error fault ↔
          C.decode other.peer.key = none ∧ fault = .crypto (.invalidKey .undecodable)) ∧
        ((C.decode other.peer.key).isSome → other.signature.Undecodable →
          other.verify C = .ok false)) := by
  refine ⟨fun fault => sign_eq_error_iff, ?refused, ?signed,
    fun other => ⟨fun fault => verify_eq_error_iff, verify_of_undecodable⟩⟩
  case refused =>
    intro differs
    rw [attempted, sign_eq_error_iff.2 ⟨differs, rfl⟩]
    rfl
  case signed =>
    intro own
    have done := sign_eq_ok_iff.2 ⟨own, rfl⟩
    have valid := verify_sign lawful own
    refine ⟨_, done, ?_, sign_eq_ok_iff.2 ⟨own, rfl⟩, valid, fun formed => ?_⟩
    · rw [attempted, done]
      rfl
    · exact ⟨_, decode_bytes formed, rfl, valid⟩

/-- An announcement of the peer itself, one with a signature of ones, and one of a key that is no
point. -/
theorem sign_then_verify_ed25519 :
    let secret : PeerSecret := ⟨.zero 32⟩
    let own : Hello := ⟨secret.peerId ed25519, .empty, .ofMicros 1500000, [⟨"ip+udp", "a://b"⟩]⟩
    let forged : Hello := { own with signature := ⟨⟨List.replicate 64 0xff, rfl⟩⟩ }
    let other : Hello := { own with peer := ⟨⟨2 :: List.replicate 31 0, rfl⟩⟩ }
    ed25519.Lawful Ed25519.Point.OnCurve ∧ (∀ a ∈ own.addresses, a.WellFormed) ∧
      (∃ signature, own.sign ed25519 secret = .ok { own with signature } ∧
        verify ed25519 { own with signature } = .ok true ∧
        ∃ read, decode (bytes { own with signature }) = .ok read ∧
          read.verify ed25519 = .ok true) ∧
      forged.verify ed25519 = .ok false ∧
      other.sign ed25519 secret = .error (.crypto (.invalidKey .otherPeer)) ∧
      other.verify ed25519 = .error (.crypto (.invalidKey .undecodable)) := by
  intro secret own forged other
  have formed : ∀ a ∈ own.addresses, a.WellFormed := by decide
  have point : (ed25519.decode own.peer.key).isSome :=
    Option.isSome_of_mem (Eddsa.decode_publicKey ed25519_lawful (Eddsa.expand secret.seed))
  have noPoint : ed25519.decode other.peer.key = none :=
    Option.isNone_iff_eq_none.1 (by decide +kernel)
  have differs : secret.peerId ed25519 ≠ other.peer := by
    intro same
    have none : ed25519.decode own.peer.key = none :=
      (congrArg (fun peer : PeerId => ed25519.decode peer.key) same).trans noPoint
    rw [none] at point
    exact absurd point nofun
  obtain ⟨-, -, signed, each⟩ := sign_then_verify ed25519_lawful secret own
  obtain ⟨refused, -⟩ := sign_then_verify ed25519_lawful secret other
  obtain ⟨signature, done, -, -, valid, again⟩ := signed rfl
  obtain ⟨read, decoded, -, same⟩ := again formed
  exact ⟨ed25519_lawful, formed, ⟨signature, done, valid, read, decoded, same⟩,
    (each forged).2 point ⟨0xff, rfl, by decide⟩, (refused _).2 ⟨differs, rfl⟩,
    ((each other).1 _).2 ⟨noPoint, rfl⟩⟩

end Hello
end Overlay
