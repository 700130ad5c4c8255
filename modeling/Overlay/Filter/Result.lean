import Overlay.Block
import Overlay.Filter.Bloom

/-! Filters of the results that a lookup has been given. -/
namespace Overlay

/-- A filter that lets everything pass, or one that remembers filter keys. -/
inductive ResultFilter where
  | pass
  | seen (bloom : Bloom)
  deriving DecidableEq

namespace ResultFilter

def sized (expected : Nat) (mutator : UInt32) : ResultFilter :=
  .seen (.empty (Bloom.sizeFor expected) (some (Bloom.mutatorOf mutator)))

def decode (b : Bytes) : Except FilterError ResultFilter := (Bloom.decode true b).map .seen

def bytes : ResultFilter → Bytes
  | .pass => []
  | .seen f => f.bytes

def add (f : ResultFilter) (b : Block) : ResultFilter :=
  match f, b.filterKey with
  | .seen f, some key => .seen (f.add key.bytes)
  | f, _ => f

def containsDigest : ResultFilter → Digest → Bool
  | .pass, _ => false
  | .seen f, key => f.contains key.bytes

def contains (f : ResultFilter) (b : Block) : Bool :=
  match b.filterKey with
  | some key => f.containsDigest key
  | none => false

def compare : ResultFilter → ResultFilter → Comparison
  | .pass, .pass => .same
  | .seen f, .seen g => f.compare g
  | _, _ => .different

/-- Takes over what another filter remembers. A filter that lets everything pass
takes over anything and stays what it is. -/
def merge? : ResultFilter → ResultFilter → Option ResultFilter
  | .pass, _ => some .pass
  | .seen f, .seen g => (f.merge? g).map .seen
  | .seen _, .pass => none

end ResultFilter
end Overlay
