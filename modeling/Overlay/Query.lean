import Overlay.Block

/-! Lookups. A plain one asks for a routing key and a kind. One for a name asks for
the records of a label in a zone, and knows the key that they are signed and sealed
with. -/
namespace Overlay

structure PlainQuery where
  key : Digest
  kind : BlockKind
  flags : RouteFlags
  deriving DecidableEq

/-- A lookup of a label; `derived` is the zone key blinded for it. -/
structure NameQuery where
  zone : ZoneKey
  label : String
  derived : ZoneKey
  flags : RouteFlags
  deriving DecidableEq

namespace NameQuery

def key (q : NameQuery) : Digest := q.derived.digest

def debugText (quote : String → String) (q : NameQuery) : String :=
  s!"GnsQuery \x7b zone: {q.zone.debugText}, label: {quote q.label}, " ++
    s!"key: {q.key.debugText} \x7d"

def decrypt (q : NameQuery) : Block → Except BlockError Bytes
  | .name b => (q.zone.openData q.label b.expiration b.data).mapError .crypto
  | _ => .error .cannotDecrypt

variable (C : Curve)

def make (zone : ZoneKey) (label : String) : Except BlockError NameQuery := do
  let derived ← (zone.derive C label nameContext).mapError .crypto
  return ⟨zone, label, derived, .none⟩

/-- The block answers the query if it is signed by the derived key. -/
def verify (q : NameQuery) : Block → Except BlockError Unit
  | .name b => do
    if b.signer.zone ≠ q.derived then throw .invalidSignature
    if !(← b.verify C) then throw .invalidSignature
  | _ => .error .typeNotVerified

def records (q : NameQuery) (b : Block) : Except BlockError RecordSet := do
  q.verify C b
  let plaintext ← q.decrypt b
  (RecordSet.decode plaintext).mapError fun fault => .malformed (.records fault)

end NameQuery

inductive Query where
  | plain (query : PlainQuery)
  | name (query : NameQuery)
  deriving DecidableEq

namespace Query

def key : Query → Digest
  | .plain q => q.key
  | .name q => q.key

def kind : Query → BlockKind
  | .plain q => q.kind
  | .name _ => .nameRecord

def flags : Query → RouteFlags
  | .plain q => q.flags
  | .name q => q.flags

def verify (C : Curve) : Query → Block → Except BlockError Unit
  | .plain q, b => do
    if !q.kind.accepts b.kind then throw .typeNotVerified
    if !(← b.verify C) then throw .invalidSignature
  | .name q, b => q.verify C b

def decrypt : Query → Block → Except BlockError Bytes
  | .plain _, b => .ok b.bytes
  | .name q, b => q.decrypt b

end Query
end Overlay
