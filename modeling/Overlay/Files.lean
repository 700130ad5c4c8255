import Overlay.Files.Listing
import Overlay.Files.Path
import Overlay.Text.Utf8

/-! Directories and files as programs see them by paths. A path is followed name by name
and fails at the first name that does not lead on. -/
namespace Overlay

inductive FileFault where
  | notFound
  | notDirectory
  | isDirectory
  | occupied
  | nameTooLong
  | embeddedNul
  | notText
  deriving DecidableEq, Repr

def FileFault.message : FileFault → String
  | .notFound => "No such file or directory (os error 2)"
  | .notDirectory => "Not a directory (os error 20)"
  | .isDirectory => "Is a directory (os error 21)"
  | .occupied => "File exists (os error 17)"
  | .nameTooLong => "File name too long (os error 36)"
  | .embeddedNul => "file name contained an unexpected NUL byte"
  | .notText => "stream did not contain valid UTF-8"

structure Files where
  root : Listing
  working : Place
  deriving DecidableEq

namespace Files

def node? (t : Files) (place : Place) : Option Node := t.root.at? place

def set (t : Files) (place : Place) (node : Node) : Files :=
  { t with root := t.root.put node place }

def bare (working : Place) : Files :=
  ⟨working.foldr (fun name inner => .directory name inner .empty) .empty, working⟩

def nameLimit : Nat := 255

def pathLimit : Nat := 4096

def start (t : Files) (path : String) : Place := if Path.isAbsolute path then [] else t.working

def usable (path : String) : Except FileFault Unit :=
  if path.toList.contains '\x00' then .error .embeddedNul
  else if path = "" then .error .notFound
  else if pathLimit ≤ (Text.utf8 path).length then .error .nameTooLong
  else .ok ()

def next (here : Place) (name : String) : Place :=
  if name = ".." then here.dropLast else here ++ [name]

def step (here : Place) (name : String) : Except FileFault Place :=
  if name ≠ ".." ∧ nameLimit < (Text.utf8 name).length then .error .nameTooLong
  else .ok (next here name)

def enter (t : Files) : (here : Place) → List String → Except FileFault Place
  | here, [] => .ok here
  | here, name :: rest => do
    let next ← step here name
    match t.node? next with
    | none => throw .notFound
    | some (.file _) => throw .notDirectory
    | some (.directory _) => t.enter next rest

/-- Where a path leads; there may be nothing there. The names before the last one are
those of directories. -/
def place (t : Files) (path : String) : Except FileFault Place := do
  usable path
  match (Path.names path).getLast? with
  | none => return t.start path
  | some name => step (← t.enter (t.start path) (Path.names path).dropLast) name

/-- Where a path leads if there is all that it needs. -/
def destination (t : Files) (path : String) : Place :=
  (Path.names path).foldl next (t.start path)

def route : (here : Place) → List String → List Place
  | here, [] => [here]
  | here, name :: rest => here :: route (next here name) rest

def lookup (t : Files) (path : String) : Except FileFault Node := do
  match t.node? (← t.place path) with
  | none => throw .notFound
  | some (.directory inner) => return .directory inner
  | some (.file content) =>
    if Path.ending path = .name then return .file content else throw .notDirectory

def has (t : Files) (path : String) : Bool := (t.lookup path).isOk

def read (t : Files) (path : String) : Except FileFault Bytes := do
  match ← t.lookup path with
  | .directory _ => throw .isDirectory
  | .file content => return content

def readText (t : Files) (path : String) : Except FileFault String := do
  match Text.ofUtf8? (← t.read path) with
  | some text => return text
  | none => throw .notText

/-- Replaces the content of a file, or makes one. A slash after the name asks for a
directory, whatever is there. -/
def write (t : Files) (path : String) (content : Bytes) : Except FileFault Files := do
  match Path.ending path with
  | .name =>
    let place ← t.place path
    match t.node? place with
    | some (.directory _) => throw .isDirectory
    | _ => return t.set place (.file content)
  | .slash =>
    usable path
    let _ ← t.enter (t.start path) (Path.names path).dropLast
    throw .isDirectory
  | .dot | .up =>
    let _ ← t.lookup path
    throw .isDirectory

/-- Bytes with others in place of those from an offset on. Zeros fill a gap. -/
def patch (old : Bytes) (offset : Nat) (new : Bytes) : Bytes :=
  old.take offset ++ List.replicate (offset - old.length) 0 ++ new ++
    old.drop (offset + new.length)

def overwrite (t : Files) (path : String) (offset : Nat) (content : Bytes) :
    Except FileFault Files :=
  t.write path (patch ((t.read path).toOption.getD []) offset content)

def names (t : Files) (path : String) : Except FileFault (List String) := do
  match ← t.lookup path with
  | .directory inner => return inner.names
  | .file _ => throw .notDirectory

def remove (t : Files) (path : String) : Except FileFault Files := do
  match ← t.lookup path with
  | .directory _ => throw .isDirectory
  | .file _ => return { t with root := t.root.remove (t.destination path) }

def rename (t : Files) (path target : String) : Except FileFault Files := do
  (← t.write target (← t.read path)).remove path

/-- Enters directories and makes those that are missing, up to the first name that is no
directory's. -/
def makeBelow (t : Files) : (here : Place) → List String → Except FileFault Unit × Files
  | _, [] => (.ok (), t)
  | here, name :: rest =>
    match step here name with
    | .error fault => (.error fault, t)
    | .ok next =>
      match t.node? next with
      | none => makeBelow (t.set next (.directory .empty)) next rest
      | some (.directory _) => makeBelow t next rest
      | some (.file _) => (.error .occupied, t)

def obstacle (t : Files) (path : String) : FileFault :=
  match t.place path with
  | .error fault => fault
  | .ok _ => if Path.ending path = .dot then .notDirectory else .occupied

/-- Makes the directory of a path, and those above it. What was made before a failure
stays. A dot at the end is not a way to make the directory that it is in. -/
def makeDirectory (t : Files) (path : String) : Except FileFault Unit × Files :=
  if path = "" then (.ok (), t)
  else match usable path with
  | .error fault => (.error fault, t)
  | .ok () =>
    let names := Path.names path
    match t.enter (t.start path) names with
    | .ok _ => (.ok (), t)
    | .error .notDirectory => (.error (t.obstacle path), t)
    | .error .notFound =>
      let (result, made) :=
        t.makeBelow (t.start path) (if Path.ending path = .dot then names.dropLast else names)
      (do result; let _ ← made.enter (made.start path) names, made)
    | .error fault => (.error fault, t)

def makeParent (t : Files) (path : String) : Except FileFault Unit × Files :=
  match Path.parent? path with
  | none => (.ok (), t)
  | some parent => t.makeDirectory parent

end Files

/-- A change of files. What was done before a failure stays. -/
abbrev FileChange (ε : Type) := ExceptT ε (StateM Files)

namespace FileChange

def whole (change : Files → Except FileFault Files) : FileChange FileFault Unit := fun t =>
  match change t with
  | .ok changed => (.ok (), changed)
  | .error fault => (.error fault, t)

def ask {α : Type} (question : Files → Except FileFault α) : FileChange FileFault α := fun t =>
  (question t, t)

def makeDirectory (path : String) : FileChange FileFault Unit := fun t => t.makeDirectory path

def makeParent (path : String) : FileChange FileFault Unit := fun t => t.makeParent path

def read (path : String) : FileChange FileFault Bytes := ask (·.read path)

def names (path : String) : FileChange FileFault (List String) := ask (·.names path)

def write (path : String) (content : Bytes) : FileChange FileFault Unit :=
  whole (·.write path content)

def overwrite (path : String) (offset : Nat) (content : Bytes) : FileChange FileFault Unit :=
  whole (·.overwrite path offset content)

def rename (path target : String) : FileChange FileFault Unit := whole (·.rename path target)

def remove (path : String) : FileChange FileFault Unit := whole (·.remove path)

/-- Removes a file, or leaves what is in the way. -/
def tryRemove {ε : Type} (path : String) : FileChange ε Unit := fun t =>
  (.ok (), ((t.remove path).toOption).getD t)

end FileChange
end Overlay
