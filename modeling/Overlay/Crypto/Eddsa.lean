import Overlay.Crypto.Curve
import Overlay.Crypto.Error
import Overlay.Crypto.Sha512

/-! Signatures on a curve. A signature is the spelling of a point `R` and a scalar
`S` with `S B = R + k A`, where `A` is the public key and the challenge `k` is
hashed from `R`, the key and the message. -/
namespace Overlay.Eddsa

structure Secret where
  scalar : Nat
  nonceKey : Octets 32

/-- A multiple of eight between `2 ^ 254` and `2 ^ 255`. -/
def clamp (n : Nat) : Nat := n % (1 <<< 254) / 8 * 8 + (1 <<< 254)

def expand (seed : Octets 32) : Secret :=
  let digest := Sha512.hash seed.bytes
  ⟨clamp (LittleEndian.decode digest.firstHalf.bytes),
    Octets.slice digest.bytes 32 32 (by simp)⟩

variable (C : Curve)

def reduce (wide : Octets 64) : Nat := LittleEndian.decode wide.bytes % C.order

def publicKey (secret : Secret) : Octets 32 := C.encode (C.mul secret.scalar C.base)

def challenge (r key : Octets 32) (message : Bytes) : Nat :=
  reduce C (Sha512.hash (r.bytes ++ key.bytes ++ message))

def sign (secret : Secret) (key : Octets 32) (message : Bytes) : Octets 64 :=
  let nonce := reduce C (Sha512.hash (secret.nonceKey.bytes ++ message))
  let r := C.encode (C.mul nonce C.base)
  let k := challenge C r key message
  r.append (LittleEndian.octets 32 ((k * secret.scalar + nonce) % C.order))

/-- Whether a signature satisfies the equation. A key that is no point is an
error, then a scalar of 2 ^ 253 or more; a scalar that is not reduced is not. -/
def verify (key : Octets 32) (message : Bytes) (signature : Octets 64) :
    Except CryptoError Bool :=
  match C.decode key with
  | none => .error (.invalidKey .undecodable)
  | some a =>
    let r : Octets 32 := signature.firstHalf
    let s := LittleEndian.decode (signature.bytes.drop 32)
    if 1 <<< 253 ≤ s then .error (.invalidSignature .undecodable)
    else if C.order ≤ s then .ok false
    else
      let k := challenge C r key message
      .ok (decide (C.encode (C.add (C.mul s C.base) (C.neg (C.mul k a))) = r))

end Overlay.Eddsa
