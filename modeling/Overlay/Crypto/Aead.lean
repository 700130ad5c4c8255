import Overlay.Crypto.ChaCha20
import Overlay.Crypto.Poly1305

/-! Authenticated encryption: ChaCha20 for secrecy and a Poly1305 tag over the
ciphertext, without associated data. -/
namespace Overlay.Aead

def tagSize : Nat := 16

/-- The block counter has 32 bits and its first value makes the tag key, so a text
has fewer blocks than that. -/
def fits (size : Nat) : Bool := decide (size / 64 < UInt32.size - 1)

/-- The tag of a ciphertext. It covers the ciphertext, filled up to sixteen bytes,
and the lengths of the associated data and of the ciphertext. -/
def tag (key : Octets 32) (nonce : Octets 12) (ciphertext : Bytes) : Octets 16 :=
  let tagKey : Octets 32 := (ChaCha20.block key nonce 0).firstHalf
  let filling := List.replicate ((16 - ciphertext.length % 16) % 16) 0
  Poly1305.tag tagKey
    (ciphertext ++ filling ++ LittleEndian.encode 8 0 ++ LittleEndian.encode 8 ciphertext.length)

def encrypt (key : Octets 32) (nonce : Octets 12) (plaintext : Bytes) : Option Bytes :=
  if fits plaintext.length then
    let ciphertext := ChaCha20.apply key nonce plaintext
    some (ciphertext ++ (tag key nonce ciphertext).bytes)
  else none

def decrypt (key : Octets 32) (nonce : Octets 12) (sealedText : Bytes) : Option Bytes :=
  let size := sealedText.length - tagSize
  let ciphertext := sealedText.take size
  if tagSize ≤ sealedText.length ∧ fits size ∧ sealedText.drop size = (tag key nonce ciphertext).bytes then
    some (ChaCha20.apply key nonce ciphertext)
  else none

end Overlay.Aead
