/-! Kinds of blocks and the options of a lookup. -/
namespace Overlay

structure BlockKind where
  code : UInt16
  deriving DecidableEq, Repr

namespace BlockKind

def any : BlockKind := ⟨0⟩
def test : BlockKind := ⟨8⟩
def nameRecord : BlockKind := ⟨11⟩
def hello : BlockKind := ⟨13⟩

def names : List (UInt16 × String) :=
  [(0, "ANY"), (1, "FS_DBLOCK"), (2, "FS_IBLOCK"), (8, "TEST"), (9, "FS_UBLOCK"), (10, "DNS"),
    (11, "GNS_NAMERECORD"), (12, "REVOCATION"), (13, "DHT_HELLO")]

def name? (k : BlockKind) : Option String := names.lookup k.code

def text (k : BlockKind) : String := k.name?.getD s!"BLOCK_TYPE_{k.code.toNat}"

def debugText (k : BlockKind) : String := s!"BlockType({k.text})"

/-- Whether a lookup for this kind takes blocks of another kind. -/
def accepts (wanted found : BlockKind) : Bool := wanted == any || wanted == found

end BlockKind

structure RouteFlags where
  bits : UInt16
  deriving DecidableEq, Repr

namespace RouteFlags

def none : RouteFlags := ⟨0⟩

def union (a b : RouteFlags) : RouteFlags := ⟨a.bits ||| b.bits⟩

def contains (a b : RouteFlags) : Bool := a.bits &&& b.bits == b.bits

end RouteFlags
end Overlay
