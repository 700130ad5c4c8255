import Overlay.Filter.Result
import Overlay.Query
import Overlay.Store.Error

/-! Stored blocks: the written form of a block with its kind, its expiration and the
digest that result filters know it by, so that a lookup is answered without reading
the block. -/
namespace Overlay

structure Entry where
  kind : BlockKind
  expiration : Timestamp
  data : Bytes
  filterKey : Option Bytes
  deriving DecidableEq

namespace Entry

def ofBlock (b : Block) : Entry :=
  ⟨b.kind, b.expiration, b.bytes, b.filterKey.map Digest.bytes⟩

def filterDigest (e : Entry) : Option Digest := e.filterKey.bind Digest.ofBytes?

def filteredBy (e : Entry) (f : ResultFilter) : Bool :=
  match e.filterDigest with
  | some key => f.containsDigest key
  | none => false

def answer (now : Timestamp) (q : Query) (e : Entry) : Except StoreError Entry :=
  if !q.kind.accepts e.kind then .error .notFound
  else if e.expiration.isExpired now then .error .expired
  else .ok e

def isCandidate (now : Timestamp) (q : Query) (excluded : Entry → Bool) (e : Entry) : Bool :=
  !e.expiration.isExpired now && q.kind.accepts e.kind && !excluded e

def encodeData (data : Bytes) : Bytes := LittleEndian.encode 8 data.length ++ data

/-- The encoding on disk: fields in order, numbers least significant byte first, and
a byte that says whether there is a filter key. -/
def encode (e : Entry) : Bytes :=
  LittleEndian.encode 2 e.kind.code.toNat ++ LittleEndian.encode 8 e.expiration.toNat ++
    encodeData e.data ++
    match e.filterKey with
    | none => [0]
    | some key => 1 :: encodeData key

def decodeNumber? (width : Nat) (b : Bytes) : Option (Nat × Bytes) :=
  (b.cut? width).map fun (front, rest) => (LittleEndian.decode front, rest)

def decodeData? (b : Bytes) : Option (Bytes × Bytes) := do
  let (size, rest) ← decodeNumber? 8 b
  rest.cut? size

def present {α : Type} : Option α → Except EntryDamage α
  | none => .error .truncated
  | some part => .ok part

def decodeFilterKey : Bytes → Except EntryDamage (Option Bytes)
  | [] => .error .truncated
  | flag :: rest =>
    if flag = 0 then .ok none
    else if flag = 1 then (present (decodeData? rest)).map fun (key, _) => some key
    else .error (.unknownFlag flag)

/-- Reads an entry; bytes after it are ignored. -/
def decode (b : Bytes) : Except EntryDamage Entry := do
  let (code, rest) ← present (decodeNumber? 2 b)
  let (micros, rest) ← present (decodeNumber? 8 rest)
  let (data, rest) ← present (decodeData? rest)
  let filterKey ← decodeFilterKey rest
  return ⟨⟨UInt16.ofNat code⟩, .ofMicros micros, data, filterKey⟩

/-- The entry whose key is closest to that of the query, and its distance. The first
of several equally close ones is taken. -/
def closest? (q : Query) : List (Digest × Entry) → Option (Entry × Distance)
  | [] => none
  | (key, e) :: rest =>
    let d := q.key.distance key
    match closest? q rest with
    | none => some (e, d)
    | some (e', d') => if d'.compare d = .lt then some (e', d') else some (e, d)

def nearest (now : Timestamp) (q : Query) (excluded : Entry → Bool)
    (entries : List (Digest × Entry)) : Except StoreError (Entry × Distance) :=
  match closest? q (entries.filter fun (_, e) => e.isCandidate now q excluded) with
  | some found => .ok found
  | none => .error .notFound

end Entry
end Overlay
