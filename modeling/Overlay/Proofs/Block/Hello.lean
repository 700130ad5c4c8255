import Overlay.Block.Hello
import Overlay.Proofs.Address
import Overlay.Proofs.Except
import Overlay.Proofs.Octets.Slice
import Overlay.Proofs.Text.Utf8
import Overlay.Proofs.Time

/-! The written form of an announcement is exact: a byte string is read as an announcement
if and only if it is what the announcement is written as and its addresses are well formed. -/
namespace Overlay.Hello

theorem parseAddress_eq_ok_iff {piece : Bytes} {a : Address} :
    parseAddress piece = .ok a ↔ piece = Text.utf8 a.uri ∧ a.WellFormed := by
  constructor
  · intro found
    unfold parseAddress at found
    split at found
    · contradiction
    · next uri text =>
      split at found
      · next address parsed =>
        obtain rfl := Except.ok.inj found
        obtain ⟨rfl, formed⟩ := Address.parse_eq_ok_iff.1 parsed
        exact ⟨Text.ofUtf8?_eq_some_iff.1 text, formed⟩
      · contradiction
  · rintro ⟨rfl, formed⟩
    have parsed : Address.parse a.uri = .ok a := Address.parse_eq_ok_iff.2 ⟨rfl, formed⟩
    simp only [parseAddress, Text.ofUtf8?_utf8, parsed]

theorem zero_not_mem_uri {a : Address} (formed : a.WellFormed) : 0 ∉ Text.utf8 a.uri := by
  apply Text.zero_not_mem_utf8
  rw [Address.toList_uri, List.mem_append, List.mem_append]
  rintro (inScheme | inSeparator | inAuthority)
  · exact Address.not_mem_scheme formed.scheme (by decide) inScheme
  · exact absurd inSeparator (by decide)
  · exact formed.authority.2 inAuthority

theorem addressBytes_eq (addresses : List Address) :
    addressBytes addresses = (addresses.map fun a => Text.utf8 a.uri).flatMap (· ++ [0]) := by
  rw [addressBytes, List.flatMap_map]

private theorem addressBytes_eq_append {addresses : List Address} (nonempty : addresses ≠ []) :
    addressBytes addresses =
      [0].intercalate (addresses.map fun a => Text.utf8 a.uri) ++ [0] := by
  rw [addressBytes_eq, Text.intercalate_append_singleton (by simpa using nonempty)]

theorem parseAddresses_append_zero (front : Bytes) :
    parseAddresses (front ++ [0]) = (Text.splitAll 0 front).mapM parseAddress := by
  simp [parseAddresses]

/-- Neither a piece without its NUL nor an empty piece is passed over, so the list is read
from its written form only. -/
theorem parseAddresses_eq_ok_iff {b : Bytes} {addresses : List Address} :
    parseAddresses b = .ok addresses ↔
      b = addressBytes addresses ∧ ∀ a ∈ addresses, a.WellFormed := by
  constructor
  · intro found
    cases last : b.getLast? with
    | none =>
      obtain rfl := List.getLast?_eq_none_iff.1 last
      obtain rfl := Except.ok.inj found
      exact ⟨rfl, List.forall_mem_nil _⟩
    | some octet =>
      obtain ⟨front, rfl⟩ := List.getLast?_eq_some_iff.1 last
      by_cases terminated : octet = 0
      · -- What is cut is the front: the last NUL ends a piece and begins none.
        subst terminated
        rw [parseAddresses_append_zero,
          mapM_eq_ok_iff_of_inverse fun _ _ => parseAddress_eq_ok_iff] at found
        obtain ⟨pieces, formed⟩ := found
        obtain ⟨nonempty, -, rfl⟩ := Text.splitAll_eq_iff.1 pieces
        have some : addresses ≠ [] := by simpa using nonempty
        exact ⟨(addressBytes_eq_append some).symm, formed⟩
      · simp [parseAddresses, terminated] at found
  · rintro ⟨rfl, formed⟩
    by_cases nonempty : addresses = []
    · subst nonempty
      rfl
    · have free : ∀ piece ∈ addresses.map fun a => Text.utf8 a.uri, 0 ∉ piece := by
        intro piece member
        obtain ⟨a, inList, rfl⟩ := List.mem_map.1 member
        exact zero_not_mem_uri (formed a inList)
      rw [addressBytes_eq_append nonempty, parseAddresses_append_zero,
        Text.splitAll_intercalate (by simpa using nonempty) free]
      exact (mapM_eq_ok_iff_of_inverse fun _ _ => parseAddress_eq_ok_iff).2 ⟨rfl, formed⟩

theorem bytes_eq (h : Hello) :
    h.bytes = h.peer.bytes ++ (h.signature.bytes ++ (h.expiration.bytes ++
      addressBytes h.addresses)) := by
  simp [bytes]

/-- The fields of fixed size are read as they are written, whatever follows them. -/
theorem decode_append (peer : PeerId) (signature : Signature) (expiration : Timestamp)
    (rest : Bytes) :
    decode (peer.bytes ++ (signature.bytes ++ (expiration.bytes ++ rest))) =
      (parseAddresses rest).map fun addresses => ⟨peer, signature, expiration, addresses⟩ := by
  generalize whole : peer.bytes ++ (signature.bytes ++ (expiration.bytes ++ rest)) = b
  have long : 104 ≤ b.length := by
    simp [← whole]
    omega
  have peerField : (b.drop 0).take 32 = peer.bytes := by simp [← whole]
  have signatureField : (b.drop 32).take 64 = signature.bytes := by simp [← whole]
  have expirationField : (b.drop 96).take 8 = expiration.bytes := by
    simp [← whole, List.drop_append, List.drop_eq_nil_of_le]
  have addressField : b.drop 104 = rest := by
    simp [← whole, List.drop_append, List.drop_eq_nil_of_le]
  have time : Timestamp.ofBytes (Octets.slice b 96 8 (by omega)) = expiration := by
    rw [Timestamp.ofBytes, Octets.slice]
    simp only [expirationField, Timestamp.ofMicros_decode_bytes]
  simp only [decode, dif_pos long, addressField, Octets.slice_eq_of_take_drop peerField,
    Octets.slice_eq_of_take_drop signatureField, time]
  cases parseAddresses rest <;> rfl

theorem exists_fields {b : Bytes} (long : fixedSize ≤ b.length) :
    ∃ (peer : PeerId) (signature : Signature) (expiration : Timestamp) (rest : Bytes),
      b = peer.bytes ++ (signature.bytes ++ (expiration.bytes ++ rest)) := by
  rw [fixedSize] at long
  obtain ⟨peer, afterPeer, rfl⟩ := Octets.exists_append (n := 32) (b := b) (by omega)
  rw [List.length_append, peer.length_bytes] at long
  obtain ⟨signature, afterSignature, rfl⟩ :=
    Octets.exists_append (n := 64) (b := afterPeer) (by omega)
  rw [List.length_append, signature.length_bytes] at long
  obtain ⟨time, rest, rfl⟩ := Octets.exists_append (n := 8) (b := afterSignature) (by omega)
  refine ⟨⟨peer⟩, ⟨signature⟩, .ofBytes time, rest, ?_⟩
  rw [Timestamp.ofBytes, Timestamp.bytes_ofMicros_decode time.length_bytes]

theorem decode_of_short {b : Bytes} (short : ¬ fixedSize ≤ b.length) :
    decode b = .error (.malformed (.helloTooShort b.length)) :=
  dif_neg short

theorem decode_bytes {h : Hello} (formed : ∀ a ∈ h.addresses, a.WellFormed) :
    decode h.bytes = .ok h := by
  rw [bytes_eq, decode_append, parseAddresses_eq_ok_iff.2 ⟨rfl, formed⟩]
  rfl

theorem eq_bytes_of_decode {b : Bytes} {h : Hello} (found : decode b = .ok h) :
    b = h.bytes ∧ ∀ a ∈ h.addresses, a.WellFormed := by
  by_cases long : fixedSize ≤ b.length
  · obtain ⟨peer, signature, expiration, rest, rfl⟩ := exists_fields long
    rw [decode_append] at found
    obtain ⟨addresses, read, rfl⟩ := map_eq_ok_iff.1 found
    obtain ⟨rfl, formed⟩ := parseAddresses_eq_ok_iff.1 read
    exact ⟨(bytes_eq ⟨peer, signature, expiration, addresses⟩).symm, formed⟩
  · rw [decode_of_short long] at found
    contradiction

/-- A byte string is read as an announcement exactly if it is what the announcement is written
as and the addresses are well formed. -/
theorem decode_iff_written (h : Hello) (b : Bytes) :
    decode b = .ok h ↔ b = h.bytes ∧ ∀ a ∈ h.addresses, a.WellFormed := by
  constructor
  · exact eq_bytes_of_decode
  · rintro ⟨rfl, formed⟩
    exact decode_bytes formed

end Overlay.Hello
