import Overlay.Block.Error
import Overlay.Zone.Sealing

/-! Blocks of the name system: the sealed records of a label, signed with the
label's blinded key. -/
namespace Overlay

def nameContext : String := "gns"

structure NameBlock where
  signer : ZoneSignature
  expiration : Timestamp
  data : Bytes
  deriving DecidableEq

namespace NameBlock

/-- The signed bytes in front of the sealed data. -/
def signedHeaderSize : Nat := 16

/-- What the signature covers: header, expiration and sealed data. The header has
32 bits for the size. -/
def signedData (b : NameBlock) : Bytes :=
  purposeHeader (signedHeaderSize + b.data.length) Purpose.gnsRecords.code ++
    b.expiration.bytes ++ b.data

def bytes (b : NameBlock) : Bytes := b.signer.bytes ++ b.signedData

def fixedSize : Nat := ZoneSignature.size + signedHeaderSize

def decode (b : Bytes) : Except BlockError NameBlock := do
  if b.length < fixedSize then throw (.malformed (.nameTooShort b.length))
  let signer ← (ZoneSignature.ofBytes (b.take ZoneSignature.size)).mapError .crypto
  let signed := b.drop ZoneSignature.size
  let size := BigEndian.decode (signed.take 4)
  let purpose := BigEndian.decode ((signed.drop 4).take 4)
  if size ≠ signed.length then throw (.malformed (.nameSize size signed.length))
  if purpose ≠ Purpose.gnsRecords.code then throw (.malformed (.namePurpose purpose))
  return {
    signer
    expiration := .ofMicros (BigEndian.decode ((signed.drop 8).take 8))
    data := signed.drop signedHeaderSize }

def routingKey (b : NameBlock) : Digest := b.signer.zone.digest

def debugText (b : NameBlock) : String :=
  s!"GnsBlock \x7b derived_key: {b.signer.zone.debugText}, " ++
    s!"expiration: {b.expiration.debugText}, data: \"[{b.data.length} bytes]\" \x7d"

variable (C : Curve)

def publish (secret : ZoneSecret) (label : String) (expiration : Timestamp) (plaintext : Bytes) :
    Except BlockError NameBlock := do
  let data ← ((secret.zone C).sealData label expiration plaintext).mapError .crypto
  let blinded := secret.derive C label nameContext
  let unsigned : NameBlock := ⟨⟨blinded.zone, .empty⟩, expiration, data⟩
  let signature ← (blinded.trySign C unsigned.signedData).mapError .crypto
  return { unsigned with signer := ⟨blinded.zone, signature⟩ }

/-- Publishes the records of a set that are not private. The block expires with the
first of them. -/
def publishRecords (secret : ZoneSecret) (label : String) (records : RecordSet) :
    Except BlockError NameBlock := do
  let shown := records.publicRecords
  let plaintext ← shown.encode.mapError fun fault => .malformed (.records fault)
  publish C secret label shown.expiration plaintext

def verify (b : NameBlock) : Except BlockError Bool :=
  match b.signer.verify C b.signedData with
  | .ok valid => .ok valid
  | .error (.invalidSignature _) => .ok false
  | .error fault => .error (.crypto fault)

end NameBlock
end Overlay
