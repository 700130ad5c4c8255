import Overlay.Filter.Result
import Overlay.Query

/-! The rules of the block kinds: how blocks are read, which routing keys and
queries they go with, what is stored, and when a lookup has its answer. A registry
holds the rules in force. -/
namespace Overlay

inductive Verdict where
  | more
  | last
  | duplicate
  | irrelevant
  deriving DecidableEq, Repr

def Verdict.text : Verdict → String
  | .more => "More"
  | .last => "Last"
  | .duplicate => "Duplicate"
  | .irrelevant => "Irrelevant"

inductive Handler where
  | test
  | hello
  | name
  deriving DecidableEq, Repr

namespace Handler

def kind : Handler → BlockKind
  | .test => .test
  | .hello => .hello
  | .name => .nameRecord

def parseBlock : Handler → Bytes → Except BlockError Block
  | .test, b => .ok (.test b)
  | .hello, b => (Hello.decode b).map .hello
  | .name, b => (NameBlock.decode b).map .name

/-- Only lookups of test blocks have extended queries. -/
def validQuery : Handler → (key : Digest) → (extended : Bytes) → Bool
  | .test, _, _ => true
  | .hello, _, extended => extended.isEmpty
  | .name, _, extended => extended.isEmpty

def deriveKey : Handler → Block → Option Digest
  | .hello, .hello h => some h.routingKey
  | .name, .name n => some n.routingKey
  | _, _ => none

/-- Whether a block belongs under a routing key. Test blocks belong anywhere. -/
def validKey (h : Handler) (b : Block) (key : Digest) : Bool :=
  match h with
  | .test => true
  | _ => h.deriveKey b == some key

def isSound (C : Curve) (now : Timestamp) (b : Block) : Bool :=
  !b.expiration.isExpired now &&
    match b.verify C with
    | .ok valid => valid
    | .error _ => false

def storable (C : Curve) (now : Timestamp) : Handler → Block → Bool
  | .test, _ => true
  | .hello, .hello h => isSound C now (.hello h)
  | .hello, _ => false
  | .name, b => isSound C now b

/-- A block that the filter knows is a duplicate; any other is remembered and gets
the verdict `fresh`. -/
def dedup (b : Block) (f : ResultFilter) (fresh : Verdict) : Verdict × ResultFilter :=
  if f.contains b then (.duplicate, f) else (fresh, f.add b)

/-- Judges a block. A peer may have further announcements; a test block and the
block of a label are the only ones under their key. -/
def filterResult : Handler → Block → (key : Digest) → ResultFilter → (extended : Bytes) →
    Verdict × ResultFilter
  | .hello, b, _, f, extended =>
    if extended.isEmpty then dedup b f .more else (.irrelevant, f)
  | .test, b, _, f, _ => dedup b f .last
  | .name, b, _, f, _ => dedup b f .last

end Handler

/-- The handlers in force, at most one for a kind. -/
structure Registry where
  handlers : List Handler
  deriving DecidableEq

namespace Registry

def empty : Registry := ⟨[]⟩

def register (r : Registry) (h : Handler) : Registry :=
  if h ∈ r.handlers then r else ⟨r.handlers ++ [h]⟩

def standard : Registry := ((empty.register .test).register .hello).register .name

def find? (r : Registry) (k : BlockKind) : Option Handler :=
  r.handlers.find? fun h => h.kind = k

def kinds (r : Registry) : List BlockKind :=
  (r.handlers.map Handler.kind).mergeSort fun a b => decide (a.code ≤ b.code)

/-- Reads a block. A kind without a handler is content that does not expire. -/
def parseBlock (r : Registry) (k : BlockKind) (b : Bytes) : Except BlockError Block :=
  match r.find? k with
  | some h => h.parseBlock b
  | none => .ok (.untyped ⟨k, .never, b⟩)

end Registry
end Overlay
