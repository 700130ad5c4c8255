import Overlay.Store.Disk
import Overlay.Store.Memory

/-! Stores of blocks, in memory or on disk, under one set of operations. -/
namespace Overlay

inductive Backend where
  | memory
  | disk
  deriving DecidableEq, Repr

inductive Store where
  | memory (store : MemoryStore)
  | disk (tree : Tree)
  deriving DecidableEq

namespace Store

def ofBackend (tree : Tree) : Backend → Store
  | .memory => .memory .empty
  | .disk => .disk tree

def put : Store → Query → Entry → Store
  | .memory s, q, e => .memory (s.put q e)
  | .disk t, q, e => .disk (DiskStore.put t q e)

def get (now : Timestamp) : Store → Query → Except StoreError Entry
  | .memory s, q => s.get now q
  | .disk t, q => DiskStore.get now t q

/-- Like `get`, but an entry that the filter has seen counts as none. -/
def getFiltered (now : Timestamp) (s : Store) (q : Query) (f : ResultFilter) :
    Except StoreError Entry := do
  let e ← s.get now q
  if e.filteredBy f then throw .notFound
  return e

/-- The entry closest to the key of a query, of those that are of the right kind, not
expired and not excluded. -/
def getApprox (now : Timestamp) : Store → Query → (Entry → Bool) →
    Except StoreError (Entry × Distance)
  | .memory s, q, excluded => s.getApprox now q excluded
  | .disk t, q, excluded => DiskStore.getApprox now t q excluded

def keys : Store → List Digest
  | .memory s => s.keys
  | .disk t => DiskStore.keys t

def prune (now : Timestamp) : Store → Nat × Store
  | .memory s => let (count, s) := s.prune now; (count, .memory s)
  | .disk t => let (count, t) := DiskStore.prune now t; (count, .disk t)

def reopen : Store → Store
  | .memory _ => .memory .empty
  | .disk t => .disk t

end Store
end Overlay
