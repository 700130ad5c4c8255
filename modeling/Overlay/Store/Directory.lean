import Overlay.Store.Checkpoint

/-! The directory of a persistent store: `db` with the log, `conf` with the settings that
it is kept under, checkpoints, and `blobs` for values that are kept apart, each in a file
named for its offset in the log. -/
namespace Overlay.StoreDirectory

def logPath (store : String) : String := Path.join store "db"
def blobsPath (store : String) : String := Path.join store "blobs"
def settingsPath (store : String) : String := Path.join store "conf"

/-- Checks the settings of a store. If there are none, the standard ones are written. -/
def checkSettings (store : String) : FileChange StoreError Unit := do
  let content ← match (← get).read (settingsPath store) with
    | .ok content => pure content
    | .error .notFound => pure []
    | .error fault => throw (.unusable fault)
  if content.length ≤ Settings.blank then
    (FileChange.write (settingsPath store) Settings.file).adapt .unusable
  else MonadExcept.ofExcept ((Settings.read content >>= Settings.check).mapError .settings)

def readLog (store : String) : FileChange StoreError Bytes := do
  match (← get).read (logPath store) with
  | .ok content => return content
  | .error .notFound =>
    (FileChange.write (logPath store) []).adapt .unusable
    return []
  | .error fault => throw (.unusable fault)

/-- The offset that the name of a blob spells, which has 63 bits at most. -/
def blobOffset? (name : String) : Option Nat := Text.Decimal.read? (1 <<< 63) name.toList

def removeBlobs (store : String) (length : Nat) : FileChange StoreError Unit := do
  let names ← (FileChange.names (blobsPath store)).adapt .unusable
  let outside := names.filter fun name => (blobOffset? name).any (length ≤ ·)
  outside.forM fun name => (FileChange.remove (Path.join (blobsPath store) name)).adapt .unusable

/-- Goes on from a log that has been read. One that is not readable is taken for none, unless
there is a checkpoint of it. -/
def takeUp (store : String) (content : Bytes) : FileChange StoreError (Tree × Log.Growth) := do
  match Log.read? content, ← Checkpoint.read store with
  | none, none => return (.empty, .fresh)
  | none, some length =>
    removeBlobs store length
    throw (.corrupted Log.pages.head?)
  | some (tree, length), checkpoint =>
    if checkpoint.all (· < length) then Checkpoint.write store length
    removeBlobs store length
    return (tree, .nothing length)

def load (store : String) : FileChange StoreError (Tree × Log.Growth) := do
  if !(← get).has (blobsPath store) then
    (FileChange.makeDirectory (blobsPath store)).adapt .unusable
  checkSettings store
  takeUp store (← readLog store)

def save (store : String) (g : Log.Growth) : FileChange FileFault Unit := do
  if g.bytes ≠ [] then FileChange.overwrite (logPath store) g.offset g.bytes

end Overlay.StoreDirectory
