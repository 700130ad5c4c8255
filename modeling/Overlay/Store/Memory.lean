import Overlay.Store.Entry

/-! The store of a running process: entries under their routing keys, in the order
in which the keys were first used. -/
namespace Overlay

/-- No key has two entries. -/
structure MemoryStore where
  entries : List (Digest × Entry)
  distinct : (entries.map Prod.fst).Nodup
  deriving DecidableEq

namespace MemoryStore

def empty : MemoryStore := ⟨[], .nil⟩

def size (s : MemoryStore) : Nat := s.entries.length

def insert (key : Digest) (e : Entry) : List (Digest × Entry) → List (Digest × Entry)
  | [] => [(key, e)]
  | (key', e') :: rest =>
    if key' = key then (key, e) :: rest else (key', e') :: insert key e rest

theorem mem_keys_insert {key k : Digest} {e : Entry} {entries : List (Digest × Entry)} :
    k ∈ (insert key e entries).map Prod.fst ↔ k = key ∨ k ∈ entries.map Prod.fst := by
  fun_induction insert key e entries <;> grind

theorem nodup_keys_insert {entries : List (Digest × Entry)} (key : Digest) (e : Entry)
    (distinct : (entries.map Prod.fst).Nodup) :
    ((insert key e entries).map Prod.fst).Nodup := by
  induction entries with
  | nil => simp [insert]
  | cons first rest ih =>
    have := @mem_keys_insert key first.1 e rest
    grind [insert]

def put (s : MemoryStore) (q : Query) (e : Entry) : MemoryStore :=
  ⟨insert q.key e s.entries, nodup_keys_insert q.key e s.distinct⟩

def get (now : Timestamp) (s : MemoryStore) (q : Query) : Except StoreError Entry :=
  match s.entries.lookup q.key with
  | none => .error .notFound
  | some e => e.answer now q

def getApprox (now : Timestamp) (s : MemoryStore) (q : Query) (excluded : Entry → Bool) :
    Except StoreError (Entry × Distance) :=
  Entry.nearest now q excluded s.entries

def keys (s : MemoryStore) : List Digest := s.entries.map Prod.fst

def prune (now : Timestamp) (s : MemoryStore) : Nat × MemoryStore :=
  let kept := s.entries.filter fun (_, e) => !e.expiration.isExpired now
  (s.size - kept.length, ⟨kept, s.distinct.sublist (List.filter_sublist.map Prod.fst)⟩)

end MemoryStore
end Overlay
