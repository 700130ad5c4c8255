import Overlay.Octets

/-! Trees of directories and files. A name has at most the node that was put under it
last. -/
namespace Overlay

/-- The names that lead from a directory to something below it. -/
abbrev Place := List String

def Place.path (place : Place) : String := "/" ++ "/".intercalate place

inductive Listing where
  | empty
  | file (name : String) (content : Bytes) (rest : Listing)
  | directory (name : String) (inner : Listing) (rest : Listing)
  deriving DecidableEq

inductive Node where
  | directory (listing : Listing)
  | file (content : Bytes)
  deriving DecidableEq

namespace Listing

def find? (name : String) : Listing → Option Node
  | empty => none
  | file other content rest => if other = name then some (.file content) else rest.find? name
  | directory other inner rest => if other = name then some (.directory inner) else rest.find? name

def entry (name : String) (rest : Listing) : Node → Listing
  | .file content => file name content rest
  | .directory inner => directory name inner rest

def replace (name : String) (node : Node) : Listing → Listing
  | empty => entry name empty node
  | file other content rest =>
    if other = name then entry name rest node else file other content (rest.replace name node)
  | directory other inner rest =>
    if other = name then entry name rest node else directory other inner (rest.replace name node)

theorem find?_replace (name other : String) (node : Node) (l : Listing) :
    (l.replace name node).find? other = if other = name then some node else l.find? other := by
  induction l with
  | empty => cases node <;> simp [replace, entry, find?, eq_comm]
  | file _ _ _ ih => cases node <;> grind [replace, entry, find?]
  | directory _ _ _ _ ih => cases node <;> grind [replace, entry, find?]

def at? : Listing → Place → Option Node
  | l, [] => some (.directory l)
  | l, [name] => l.find? name
  | l, name :: rest =>
    match l.find? name with
    | some (.directory inner) => inner.at? rest
    | _ => none

def put (node : Node) : Listing → Place → Listing
  | l, [] => l
  | l, [name] => l.replace name node
  | l, name :: rest =>
    match l.find? name with
    | some (.directory inner) => l.replace name (.directory (inner.put node rest))
    | _ => l

def erase (name : String) : Listing → Listing
  | empty => empty
  | file other content rest =>
    if other = name then rest.erase name else file other content (rest.erase name)
  | directory other inner rest =>
    if other = name then rest.erase name else directory other inner (rest.erase name)

def remove : Listing → Place → Listing
  | l, [] => l
  | l, [name] => l.erase name
  | l, name :: rest =>
    match l.find? name with
    | some (.directory inner) => l.replace name (.directory (inner.remove rest))
    | _ => l

def names : Listing → List String
  | empty => []
  | file name _ rest | directory name _ rest => name :: rest.names

end Listing
end Overlay
