import Overlay.Store.Entry
import Overlay.Store.Tree

/-! The persistent store: encoded entries in an ordered tree, under the bytes of
their routing keys. The tree may hold anything else as well. Keys that are no
digests are passed over, and so are values that cannot be read, except where one
is asked for by its key. -/
namespace Overlay.DiskStore

def entries (t : Tree) : List (Digest × Entry) :=
  t.pairs.filterMap fun (key, value) => do
    return (← Digest.ofBytes? key, ← (Entry.decode value).toOption)

def pair (q : Query) (e : Entry) : Bytes × Bytes := (q.key.bytes, e.encode)

def put (t : Tree) (q : Query) (e : Entry) : Tree := t.insert (pair q e).1 (pair q e).2

def get (now : Timestamp) (t : Tree) (q : Query) : Except StoreError Entry :=
  match t.get? q.key.bytes with
  | none => .error .notFound
  | some value =>
    match Entry.decode value with
    | .error damage => .error (.damaged damage)
    | .ok e => e.answer now q

def getApprox (now : Timestamp) (t : Tree) (q : Query) (excluded : Entry → Bool) :
    Except StoreError (Entry × Distance) :=
  Entry.nearest now q excluded (entries t)

def keys (t : Tree) : List Digest := t.pairs.filterMap fun (key, _) => Digest.ofBytes? key

def prune (now : Timestamp) (t : Tree) : Nat × Tree :=
  let expired := (entries t).filter fun (_, e) => e.expiration.isExpired now
  (expired.length, expired.foldl (fun t (key, _) => t.remove key.bytes) t)

end Overlay.DiskStore
