import Overlay.Octets.Endian
import Overlay.Store.Error
import Overlay.Store.Log
import Overlay.Text.Decimal

/-! Checkpoints: files beside a log that say how long it is, and are named for that. Only
the one whose name is greatest counts, and it has to be readable. -/
namespace Overlay.Checkpoint

def start : String := "snap."

/-- The names of files with this ending are passed over. -/
def passedOver : String := ".in___motion"

def draft : String := ".generating"

/-- The name of the checkpoint of a log of a given length: sixteen hexadecimal digits. -/
def name (length : Nat) : String :=
  let digits := (Nat.toDigits 16 length).map Char.toUpper
  start ++ String.ofList (List.replicate (16 - digits.length) '0' ++ digits)

def isName (s : String) : Bool :=
  start.toList.isPrefixOf s.toList && !passedOver.toList.isSuffixOf s.toList

def mark : UInt8 := 0xff

/-- The length of the log and where its first pages are. -/
def encode (length : Nat) : Bytes :=
  mark :: (length :: Log.pages).flatMap (LittleEndian.encode 8)

def decode? (b : Bytes) : Option Nat :=
  let length := LittleEndian.decode ((b.drop 1).take 8)
  if b = encode length then some length else none

def greatest? : List String → Option String
  | [] => none
  | name :: rest =>
    match greatest? rest with
    | none => some name
    | some other =>
      some (if Ord.compare (Text.utf8 name) (Text.utf8 other) = .lt then other else name)

def directory (store : String) (t : Files) : String := Path.join (Place.path t.working) store

def names (store : String) : FileChange StoreError (List String) := do
  let path := directory store (← get)
  (FileChange.makeDirectory path).adapt .unusable
  return (← (FileChange.names path).adapt .unusable).filter isName

def read (store : String) : FileChange StoreError (Option Nat) := do
  match greatest? (← names store) with
  | none => return none
  | some name =>
    let content ← (FileChange.read (Path.join (directory store (← get)) name)).adapt .unusable
    match decode? content with
    | some length => return some length
    | none => throw (.corrupted none)

def write (store : String) (length : Nat) : FileChange StoreError Unit := do
  let path := Path.join store (name length)
  (FileChange.write (path ++ draft) (encode length)).adapt .unusable
  (FileChange.rename (path ++ draft) path).adapt .unusable
  let others := (← names store).filter (· ≠ name length)
  let directory := directory store (← get)
  others.forM fun other => FileChange.tryRemove (Path.join directory other)

end Overlay.Checkpoint
