import Overlay.Proofs.Block.Hello
import Overlay.Proofs.Block.Name
import Overlay.Proofs.Digest

/-! Signed data stand for one statement only. The purpose in the header tells announcements from
records, and the fields behind it are cut off by their width, so that the size in the header need
not be read: it is left with 32 bits of what it was. -/
namespace Overlay

/-- What is said with a signature. -/
inductive Statement where
  | announcement (expiration : Timestamp) (addresses : Digest)
  | records (expiration : Timestamp) (data : Bytes)

namespace Statement

def purpose : Statement → Purpose
  | announcement .. => .hello
  | records .. => .gnsRecords

def size : Statement → Nat
  | announcement .. => Hello.signedSize
  | records _ data => NameBlock.signedHeaderSize + data.length

def expiration : Statement → Timestamp
  | announcement expiration _ | records expiration _ => expiration

def content : Statement → Bytes
  | announcement _ addresses => addresses.bytes
  | records _ data => data

def bytes (s : Statement) : Bytes :=
  purposeHeader s.size s.purpose.code ++ s.expiration.bytes ++ s.content

end Statement

theorem purposeHeader_injective {size size' : Nat} {purpose purpose' : Purpose}
    (same : purposeHeader size purpose.code = purposeHeader size' purpose'.code) :
    purpose = purpose' := by
  obtain ⟨-, codes⟩ := List.append_inj same (by simp)
  have read := congrArg BigEndian.decode codes
  cases purpose <;> cases purpose' <;> first | rfl | exact absurd read (by decide)

namespace Statement
variable {s t : Statement}

private theorem eq_of_parts (purpose : s.purpose = t.purpose) (time : s.expiration = t.expiration)
    (content : s.content = t.content) : s = t := by
  cases s <;> cases t
  case announcement.announcement =>
    rw [announcement.injEq]
    exact ⟨time, Digest.bytes_injective content⟩
  case records.records =>
    rw [records.injEq]
    exact ⟨time, content⟩
  all_goals contradiction

theorem bytes_injective (same : s.bytes = t.bytes) : s = t := by
  obtain ⟨front, content⟩ := List.append_inj same (by simp [purposeHeader])
  obtain ⟨header, time⟩ := List.append_inj front (by simp [purposeHeader])
  exact eq_of_parts (purposeHeader_injective header) (Timestamp.bytes_injective time) content

theorem bytes_inj : s.bytes = t.bytes ↔ s = t := ⟨bytes_injective, congrArg bytes⟩

end Statement

namespace Hello

@[simp] theorem length_signedData (h : Hello) : h.signedData.length = signedSize := by
  simp [signedData, purposeHeader, signedSize]

end Hello

namespace NameBlock

end NameBlock

end Overlay
