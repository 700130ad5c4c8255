import Overlay.Filter.Bloom
import Overlay.Peer

/-! The filter of peers that a request has visited. -/
namespace Overlay

structure PeerFilter where
  bloom : Bloom
  deriving DecidableEq

namespace PeerFilter

def size : Nat := 128

def empty : PeerFilter := ⟨.empty size none⟩

def decode (b : Bytes) : Except FilterError PeerFilter :=
  if b.length = size then (Bloom.decode false b).map PeerFilter.mk
  else .error (.invalidSize b.length)

def bytes (f : PeerFilter) : Bytes := f.bloom.bytes

def add (f : PeerFilter) (p : PeerId) : PeerFilter := ⟨f.bloom.add p.bytes⟩

def contains (f : PeerFilter) (p : PeerId) : Bool := f.bloom.contains p.bytes

def merge? (f g : PeerFilter) : Option PeerFilter := (f.bloom.merge? g.bloom).map PeerFilter.mk

end PeerFilter
end Overlay
