import Overlay.Block.Hello
import Overlay.Block.Kind
import Overlay.Block.Name

/-! Blocks: the typed, expirable units of content that the overlay stores. -/
namespace Overlay

structure UntypedBlock where
  kind : BlockKind
  expiration : Timestamp
  data : Bytes
  deriving DecidableEq

inductive Block where
  | untyped (block : UntypedBlock)
  | test (data : Bytes)
  | hello (block : Hello)
  | name (block : NameBlock)
  deriving DecidableEq

namespace Block

def kind : Block → BlockKind
  | .untyped b => b.kind
  | .test _ => .test
  | .hello _ => .hello
  | .name _ => .nameRecord

def bytes : Block → Bytes
  | .untyped b => b.data
  | .test data => data
  | .hello h => h.bytes
  | .name n => n.bytes

def expiration : Block → Timestamp
  | .untyped b => b.expiration
  | .test _ => .never
  | .hello h => h.expiration
  | .name n => n.expiration

def verify (C : Curve) : Block → Except BlockError Bool
  | .untyped _ => .ok true
  | .test _ => .ok true
  | .hello h => h.verify C
  | .name n => n.verify C

/-- The digest by which result filters know the block. Blocks without one are not
filtered. -/
def filterKey : Block → Option Digest
  | .untyped _ => none
  | .test data => some (.of data)
  | .hello h => some h.addressDigest
  | .name n => some (.of n.bytes)

end Block
end Overlay
