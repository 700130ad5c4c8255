import Overlay.Block.Error
import Overlay.Digest
import Overlay.Peer
import Overlay.Text.Utf8

/-! HELLO blocks, in which a peer announces its addresses for some time. The
signature covers the expiration and the digest of the addresses. -/
namespace Overlay

structure Hello where
  peer : PeerId
  signature : Signature
  expiration : Timestamp
  addresses : List Address
  deriving DecidableEq

namespace Hello

/-- An unsigned announcement. It ends with a whole second, since its URL has no
room for less. -/
def make (peer : PeerId) (addresses : List Address) (expiration : Timestamp) : Hello :=
  ⟨peer, .empty, expiration.truncateToSeconds, addresses⟩

def makeFor (now : Timestamp) (peer : PeerId) (addresses : List Address) (span : Span) : Hello :=
  make peer addresses (now.add span)

/-- Two announcements are the same if they differ at most in their expiration. -/
def same (a b : Hello) : Bool :=
  a.peer == b.peer && a.signature == b.signature && a.addresses == b.addresses

/-- The addresses' URIs, each followed by NUL. -/
def addressBytes (addresses : List Address) : Bytes :=
  addresses.flatMap fun a => Text.utf8 a.uri ++ [0]

def addressDigest (h : Hello) : Digest := .of (addressBytes h.addresses)

def signedSize : Nat := 80

/-- What the signature covers: header, expiration and digest of the addresses. -/
def signedData (h : Hello) : Bytes :=
  purposeHeader signedSize Purpose.hello.code ++ h.expiration.bytes ++ h.addressDigest.bytes

def fixedSize : Nat := 104

def bytes (h : Hello) : Bytes :=
  h.peer.bytes ++ h.signature.bytes ++ h.expiration.bytes ++ addressBytes h.addresses

def parseAddress (piece : Bytes) : Except BlockError Address :=
  match Text.ofUtf8? piece with
  | none => .error (.malformed .addressNotText)
  | some uri =>
    match Address.parse uri with
    | .ok address => .ok address
    | .error fault => .error (.malformed (.address fault))

def parseAddresses (b : Bytes) : Except BlockError (List Address) :=
  match b.getLast? with
  | none => .ok []
  | some last =>
    if last = 0 then (Text.splitAll 0 b.dropLast).mapM parseAddress
    else .error (.malformed .addressesUnterminated)

def decode (b : Bytes) : Except BlockError Hello :=
  if long : 104 ≤ b.length then do
    let addresses ← parseAddresses (b.drop 104)
    return {
      peer := ⟨Octets.slice b 0 32 (by omega)⟩
      signature := ⟨Octets.slice b 32 64 (by omega)⟩
      expiration := .ofBytes (Octets.slice b 96 8 (by omega))
      addresses }
  else .error (.malformed (.helloTooShort b.length))

def routingKey (h : Hello) : Digest := .of h.peer.bytes

def debugText (h : Hello) : String :=
  let addresses := ", ".intercalate (h.addresses.map Address.debugText)
  s!"HelloBlock \x7b peer_id: {h.peer.debugText}, signature: {h.signature.debugText}, " ++
    s!"expiration: {h.expiration.debugText}, addresses: [{addresses}] \x7d"

variable (C : Curve)

def sign (h : Hello) (secret : PeerSecret) : Except BlockError Hello :=
  if secret.peerId C = h.peer then .ok { h with signature := secret.sign C h.signedData }
  else .error (.crypto (.invalidKey .otherPeer))

/-- Whether the signature is the peer's. A signature that cannot be read is not. -/
def verify (h : Hello) : Except BlockError Bool :=
  match h.peer.verify C h.signedData h.signature with
  | .ok valid => .ok valid
  | .error (.invalidSignature _) => .ok false
  | .error fault => .error (.crypto fault)

end Hello
end Overlay
