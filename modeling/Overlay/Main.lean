import Overlay.Cli.Environment
import Overlay.Cli.Program
import Overlay.Crypto.Ed25519
import Std.Time.DateTime.Timestamp

/-! The program: takes up what a run may touch of the machine, runs, and writes back
what has changed. -/
namespace Overlay.Main
open Cli

/-- What is at a place whose parent is a directory; of a directory, only that it is one. -/
def observe (place : Place) : IO (Option Node) := do
  try
    return some (.file (← IO.FS.readBinFile place.path).toList)
  catch
    | .noFileOrDirectory .. => return none
    | .inappropriateType .. => return some (.directory .empty)
    | _ => return none

def takeUp (files : Files) (path : String) : IO Files := do
  let mut files := files
  for place in Files.route (files.start path) (Path.names path) do
    if (files.node? place).isNone then
      match ← observe place with
      | none => break
      | some node => files := files.set place node
  return files

def takeUpEntries (files : Files) (path : String) : IO Files := do
  match files.lookup path with
  | .ok (.directory _) =>
    let entries ← (System.mkFilePath [Place.path (files.destination path)]).readDir
    entries.foldlM (fun files entry => takeUp files (Path.join path entry.fileName)) files
  | _ => return files

def clear (place : Place) (after : Listing) : (before : Listing) → IO Unit
  | .empty => pure ()
  | .file name _ rest => do
    if (after.find? name).isNone then IO.FS.removeFile (Place.path (place ++ [name]))
    clear place after rest
  | .directory name inner rest => do
    match after.find? name with
    | some (.directory other) => clear (place ++ [name]) other inner
    | _ => pure ()
    clear place after rest

def putBack (place : Place) (before : Listing) : (after : Listing) → IO Unit
  | .empty => pure ()
  | .file name content rest => do
    if before.find? name ≠ some (.file content) then
      IO.FS.writeBinFile (Place.path (place ++ [name])) ⟨content.toArray⟩
    putBack place before rest
  | .directory name inner rest => do
    match before.find? name with
    | some (.directory other) => putBack (place ++ [name]) other inner
    | _ =>
      IO.FS.createDirAll (Place.path (place ++ [name]))
      putBack (place ++ [name]) .empty inner
    putBack place before rest

/-- The part of the machine that a run may touch. -/
def machine (environment : Environment) (arguments : Arguments) : IO Machine := do
  let working := Path.names (← IO.currentDir).toString
  let bare : Machine := ⟨.bare working, environment.configDirectory⟩
  let configPath := bare.configPath arguments
  let mut files ← takeUp bare.files configPath
  match ((Machine.configure configPath).run.run files).1 with
  | .error _ => return { bare with files }
  | .ok config =>
    for path in Machine.configuredPaths config arguments.command do
      files ← takeUp files path
    for directory in Machine.storeDirectories config do
      files ← takeUp files directory
      files ← takeUpEntries files directory
    return { bare with files }

def environment : IO Environment := do
  return {
    home := ← IO.getEnv "HOME"
    configHome := ← IO.getEnv "XDG_CONFIG_HOME"
    color := ← IO.getEnv "CLICOLOR"
    forceColor := ← IO.getEnv "CLICOLOR_FORCE"
    noColor := ← IO.getEnv "NO_COLOR" }

def clock : IO Timestamp := do
  return .ofMicros ((← Std.Time.Timestamp.now).toNanosecondsSinceUnixEpoch.val.toNat / 1000)

def randomSeed : IO (Octets 32) := do
  return (Sha512.hash (← IO.getRandomBytes 32).toList).firstHalf

def run (words : List String) : IO UInt32 := do
  let environment ← environment
  let color := environment.wantsColor (← (← IO.getStdout).isTty)
  let before ← match Arguments.parse words with
    | .ok arguments => machine environment arguments
    | .error _ => pure ⟨.bare [], environment.configDirectory⟩
  let (outcome, after) := Machine.run ed25519 ⟨← clock, ← randomSeed, color⟩ words before
  clear [] after.files.root before.files.root
  putBack [] before.files.root after.files.root
  IO.print outcome.out
  IO.eprint outcome.err
  return UInt32.ofNat outcome.exit

end Overlay.Main

def main (words : List String) : IO UInt32 := Overlay.Main.run words
