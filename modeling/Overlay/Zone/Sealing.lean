import Overlay.Crypto.Aead
import Overlay.Time
import Overlay.Zone

/-! Sealing of record data. The key is derived from zone and label, the nonce from
them and the expiration, so that none of the three can be exchanged afterwards. -/
namespace Overlay.ZoneKey

def sealKey (z : ZoneKey) (label : String) : Octets 32 :=
  Hkdf.derive (Text.utf8 "gns-aead-key") z.bytes (Text.utf8 label) 32

def sealNonce (z : ZoneKey) (label : String) (expiration : Timestamp) : Octets 12 :=
  (Hkdf.derive (Text.utf8 "gns-aead-nonce") z.bytes (Text.utf8 label) 4).append
    (BigEndian.octets 8 expiration.toNat)

def sealData (z : ZoneKey) (label : String) (expiration : Timestamp) (plaintext : Bytes) :
    Except CryptoError Bytes :=
  match Aead.encrypt (z.sealKey label) (z.sealNonce label expiration) plaintext with
  | some ciphertext => .ok ciphertext
  | none => .error .encryptionFailed

def openData (z : ZoneKey) (label : String) (expiration : Timestamp) (ciphertext : Bytes) :
    Except CryptoError Bytes :=
  if ciphertext.length < Aead.tagSize then .error (.decryptionFailed .tooShort)
  else
    match Aead.decrypt (z.sealKey label) (z.sealNonce label expiration) ciphertext with
    | some plaintext => .ok plaintext
    | none => .error (.decryptionFailed .unauthentic)

end Overlay.ZoneKey
