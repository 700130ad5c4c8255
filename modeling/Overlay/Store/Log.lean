import Overlay.Octets.Varint
import Overlay.Store.Tree

/-! The log of a persistent store: the pages of an empty tree, and then a record for each
value that was set. A log ends where no record follows, whatever is there instead.

The bytes of the opening and of the records are a format of this library and not that of the
database behind the store. Only their lengths are the database's, since the names of checkpoints
and of blobs are offsets in its log. -/
namespace Overlay.Log

/-- The header of a log and the pages of an empty tree. No text begins like this. -/
def opening : Bytes := List.replicate 96 0xff

/-- Where the pages of the opening are, the page that names the tree first. -/
def pages : List Nat := [70, 29, 38, 53]

def mark : Bytes := List.replicate 7 0xff

def sized (b : Bytes) : Bytes := Varint.encode b.length ++ b

def sized? (b : Bytes) : Option (Bytes × Bytes) := do
  let (size, rest) ← Varint.decode? b
  rest.cut? size

def setting : UInt8 := 0

def record (key value : Bytes) : Bytes := mark ++ sized (setting :: (sized key ++ sized value))

def setting? : Bytes → Option (Bytes × Bytes)
  | [] => none
  | kind :: fields => do
    let (key, fields) ← sized? fields
    let (value, fields) ← sized? fields
    if kind = setting ∧ fields = [] then return (key, value) else none

def record? (b : Bytes) : Option ((Bytes × Bytes) × Bytes) := do
  let (front, rest) ← b.cut? mark.length
  let (body, rest) ← sized? rest
  if front = mark then return (← setting? body, rest) else none

/-- What a tree becomes by the records at the beginning, and what follows them. -/
def scan : (fuel : Nat) → Tree → Bytes → Tree × Bytes
  | 0, t, b => (t, b)
  | fuel + 1, t, b =>
    match record? b with
    | none => (t, b)
    | some ((key, value), rest) => scan fuel (t.insert key value) rest

def read? (b : Bytes) : Option (Tree × Nat) := do
  let (front, rest) ← b.cut? opening.length
  if front = opening then
    let (t, tail) := scan rest.length .empty rest
    return (t, b.length - tail.length)
  else none

/-- What a log has gained since its file was written, and where it goes. -/
structure Growth where
  offset : Nat
  bytes : Bytes
  deriving DecidableEq

namespace Growth

def nothing (length : Nat) : Growth := ⟨length, []⟩

def fresh : Growth := ⟨0, opening⟩

/-- Records that a value is set in a tree, unless it is there already. -/
def set (g : Growth) (t : Tree) (key value : Bytes) : Growth :=
  if t.get? key = some value then g else { g with bytes := g.bytes ++ record key value }

end Growth

/-- The tree of some pairs that are set one after the other, and its log. No command builds one
so: it is how the file of a store that has been used is prepared. -/
def build (pairs : List (Bytes × Bytes)) : Tree × Growth :=
  pairs.foldl (fun (t, growth) (key, value) => (t.insert key value, growth.set t key value))
    (.empty, .fresh)

end Overlay.Log
