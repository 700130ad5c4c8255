import Overlay.Text.Crockford

/-! What can be wrong with keys, signatures and sealed texts. -/
namespace Overlay

inductive KeyFault where
  | length (expected got : Nat)
  | spelling (fault : Text.Crockford.Error)
  | undecodable
  | zoneNotAPoint
  | otherPeer
  deriving DecidableEq, Repr

def KeyFault.message : KeyFault → String
  | .length expected got => s!"Expected {expected} bytes, got {got}"
  | .spelling fault => fault.message
  | .undecodable => "signature error: Cannot decompress Edwards point"
  | .zoneNotAPoint => "Zone key is not a curve point"
  | .otherPeer => "Private key does not match peer id"

inductive SignatureFault where
  | length (expected got : Nat)
  | undecodable
  deriving DecidableEq, Repr

def SignatureFault.message : SignatureFault → String
  | .length expected got => s!"Expected {expected} bytes, got {got}"
  | .undecodable => "signature error"

inductive OpeningFault where
  | tooShort
  | unauthentic
  deriving DecidableEq, Repr

def OpeningFault.message : OpeningFault → String
  | .tooShort => "Ciphertext too short"
  | .unauthentic => "aead::Error"

inductive CryptoError where
  | invalidKey (fault : KeyFault)
  | invalidSignature (fault : SignatureFault)
  | unsupportedKeyType (keyType : UInt32)
  | encryptionFailed
  | decryptionFailed (fault : OpeningFault)
  deriving DecidableEq, Repr

def CryptoError.message : CryptoError → String
  | .invalidKey fault => s!"Invalid key: {fault.message}"
  | .invalidSignature fault => s!"Invalid signature: {fault.message}"
  | .unsupportedKeyType keyType => s!"Unsupported zone key type {keyType.toNat}"
  | .encryptionFailed => "Encryption failed: aead::Error"
  | .decryptionFailed fault => s!"Decryption failed: {fault.message}"

end Overlay
