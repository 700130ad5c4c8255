import Overlay.Crypto.Eddsa
import Overlay.Octets.Hex

/-! Peers. A peer is known by its public key, and proves statements by signatures
of 64 bytes made with its secret seed. -/
namespace Overlay

structure Signature where
  octets : Octets 64
  deriving DecidableEq

namespace Signature

abbrev bytes (s : Signature) : Bytes := s.octets.bytes

def empty : Signature := ⟨Octets.zero 64⟩

def ofBytes (b : Bytes) : Except CryptoError Signature :=
  match Octets.ofBytes? 64 b with
  | some octets => .ok ⟨octets⟩
  | none => .error (.invalidSignature (.length 64 b.length))

def debugText (s : Signature) : String := s!"Signature({Hex.encode (s.bytes.take 6)}...)"

end Signature

def purposeHeader (size purpose : Nat) : Bytes :=
  BigEndian.encode 4 size ++ BigEndian.encode 4 purpose

inductive Purpose where
  | gnsRecords
  | hello
  deriving DecidableEq, Repr

def Purpose.code : Purpose → Nat
  | .gnsRecords => 15
  | .hello => 40

structure PeerId where
  key : Octets 32
  deriving DecidableEq

namespace PeerId

abbrev bytes (p : PeerId) : Bytes := p.key.bytes

def ofBytes (b : Bytes) : Except CryptoError PeerId :=
  match Octets.ofBytes? 32 b with
  | some key => .ok ⟨key⟩
  | none => .error (.invalidKey (.length 32 b.length))

def text (p : PeerId) : String := Text.Crockford.encode p.bytes

def ofText (s : String) : Except CryptoError PeerId :=
  match Text.Crockford.decodeExact s 32 with
  | .ok key => .ok ⟨key⟩
  | .error fault => .error (.invalidKey (.spelling fault))

def debugText (p : PeerId) : String :=
  s!"PeerId({String.ofList ((Text.Crockford.encodeChars p.bytes).take 8)})"

variable (C : Curve)

def publicKey (p : PeerId) : Except CryptoError (Octets 32) :=
  if (C.decode p.key).isSome then .ok p.key else .error (.invalidKey .undecodable)

def verify (p : PeerId) (message : Bytes) (signature : Signature) : Except CryptoError Bool :=
  Eddsa.verify C p.key message signature.octets

end PeerId

structure PeerSecret where
  seed : Octets 32
  deriving DecidableEq

namespace PeerSecret
variable (C : Curve)

def peerId (s : PeerSecret) : PeerId := ⟨Eddsa.publicKey C (Eddsa.expand s.seed)⟩

def sign (s : PeerSecret) (message : Bytes) : Signature :=
  ⟨Eddsa.sign C (Eddsa.expand s.seed) (s.peerId C).key message⟩

def debugText (_ : PeerSecret) : String := "PeerPrivateKey \x7b <redacted> \x7d"

end PeerSecret
end Overlay
