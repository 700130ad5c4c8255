import Overlay.Crypto.Hkdf
import Overlay.Digest
import Overlay.Peer
import Overlay.Text.Utf8

/-! Zones of the name system. A zone is known by its public key. For a label and a
context the key is blinded: multiplied by a scalar that is derived from all three.
The zone's owner multiplies the secret scalar likewise and signs under the blinded
key, which does not show the zone to those who know neither key nor label. -/
namespace Overlay

/-- The key type of an Ed25519 zone, the only one in use. -/
def edKeyType : UInt32 := 65556

structure ZoneKey where
  key : Octets 32
  deriving DecidableEq

namespace ZoneKey

def size : Nat := 36

def octets (z : ZoneKey) : Octets 36 := (BigEndian.octets 4 edKeyType.toNat).append z.key

abbrev bytes (z : ZoneKey) : Bytes := z.octets.bytes

def ofBytes (b : Bytes) : Except CryptoError ZoneKey :=
  if sized : b.length = 36 then
    let keyType := UInt32.ofNat (BigEndian.decode (b.take 4))
    if keyType = edKeyType then .ok ⟨Octets.slice b 4 32 (by omega)⟩
    else .error (.unsupportedKeyType keyType)
  else .error (.invalidKey (.length 36 b.length))

def text (z : ZoneKey) : String := Text.Crockford.encode z.bytes

def ofText (s : String) : Except CryptoError ZoneKey :=
  match Text.Crockford.decodeExact s 36 with
  | .ok octets => ofBytes octets.bytes
  | .error fault => .error (.invalidKey (.spelling fault))

def debugText (z : ZoneKey) : String :=
  s!"ZoneKey({edKeyType.toNat}:{Hex.encode (z.key.bytes.take 6)})"

def digest (z : ZoneKey) : Digest := .of z.bytes

variable (C : Curve)

def blindingFactor (z : ZoneKey) (label context : String) : Nat :=
  Eddsa.reduce C <| Hkdf.derive (Text.utf8 "key-derivation") z.bytes
    (Text.utf8 label ++ Text.utf8 context) 64

def derive (z : ZoneKey) (label context : String) : Except CryptoError ZoneKey :=
  match C.decode z.key with
  | none => .error (.invalidKey .zoneNotAPoint)
  | some point => .ok ⟨C.encode (C.mul (z.blindingFactor C label context) point)⟩

def verify (z : ZoneKey) (message : Bytes) (signature : Signature) : Except CryptoError Bool :=
  Eddsa.verify C z.key message signature.octets

end ZoneKey

structure BlindedSecret where
  secret : Eddsa.Secret
  zone : ZoneKey

def BlindedSecret.sign (C : Curve) (s : BlindedSecret) (message : Bytes) : Signature :=
  ⟨Eddsa.sign C s.secret s.zone.key message⟩

/-- Signs after a look at the public key: one that is no point is an error. -/
def BlindedSecret.trySign (C : Curve) (s : BlindedSecret) (message : Bytes) :
    Except CryptoError Signature :=
  match C.decode s.zone.key with
  | none => .error (.invalidKey .undecodable)
  | some _ => .ok (s.sign C message)

structure ZoneSecret where
  seed : Octets 32
  deriving DecidableEq

namespace ZoneSecret
variable (C : Curve)

def zone (s : ZoneSecret) : ZoneKey := ⟨Eddsa.publicKey C (Eddsa.expand s.seed)⟩

/-- Blinds the secret for a label. The nonce key is bound to the label as well. -/
def derive (s : ZoneSecret) (label context : String) : BlindedSecret :=
  let factor := (s.zone C).blindingFactor C label context
  let own := Eddsa.expand s.seed
  let nonceKey := (Sha512.hash (LittleEndian.encode 32 factor ++ own.nonceKey.bytes)).firstHalf
  let secret : Eddsa.Secret := ⟨factor * (own.scalar % C.order) % C.order, nonceKey⟩
  ⟨secret, ⟨Eddsa.publicKey C secret⟩⟩

def debugText (_ : ZoneSecret) : String := "ZonePrivate \x7b <redacted> \x7d"

end ZoneSecret

/-- A signature together with the zone key that it verifies under. -/
structure ZoneSignature where
  zone : ZoneKey
  signature : Signature
  deriving DecidableEq

namespace ZoneSignature

def size : Nat := 100

def bytes (s : ZoneSignature) : Bytes := s.zone.bytes ++ s.signature.bytes

def ofBytes (b : Bytes) : Except CryptoError ZoneSignature :=
  if sized : b.length = 100 then do
    let zone ← ZoneKey.ofBytes (b.take 36)
    return ⟨zone, ⟨Octets.slice b 36 64 (by omega)⟩⟩
  else .error (.invalidSignature (.length 100 b.length))

def verify (C : Curve) (s : ZoneSignature) (message : Bytes) : Except CryptoError Bool :=
  s.zone.verify C message s.signature

def debugText (s : ZoneSignature) : String :=
  s!"ZoneSignature \x7b key: {s.zone.debugText}, signature: {s.signature.debugText} \x7d"

end ZoneSignature
end Overlay
