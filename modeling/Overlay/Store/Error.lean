import Overlay.Files
import Overlay.Store.Settings

/-! What goes wrong with stores, and the messages about it. -/
namespace Overlay

inductive EntryDamage where
  | truncated
  | unknownFlag (flag : UInt8)
  deriving DecidableEq, Repr

def EntryDamage.message : EntryDamage → String
  | .truncated => "io error: unexpected end of file"
  | .unknownFlag flag => s!"tag for enum is not valid, found {flag}"

/-- The message about a file that is not what it should be, from an offset on if one is
known. -/
def corruptionMessage (offset : Option Nat) : String :=
  let place := match offset with
    | none => "None"
    | some n => s!"Some(Inline({n}))"
  s!"Read corrupted data at file offset {place} backtrace ()"

def SettingsFault.message : SettingsFault → String
  | .unreadable => corruptionMessage none
  | .notText =>
    "Unsupported: failed to open database that may have been created using a sled version " ++
      "earlier than 0.29"
  | .compression found =>
    "Unsupported: cannot change compression values across restarts. " ++
      s!"old value of use_compression loaded from disk: {found}, " ++
      s!"currently set value: {Settings.standard.compression}."
  | .segmentSize found =>
    "Unsupported: cannot change the io buffer size across restarts. " ++
      s!"please change it back to {found}"
  | .version major minor =>
    s!"Unsupported: This database was created using pagecache version {major}.{minor}, but our " ++
      s!"pagecache version is {Settings.standard.major}.{Settings.standard.minor}. Please " ++
      "perform an upgrade using the sled::Db::export and sled::Db::import methods."

inductive StoreError where
  | damaged (damage : EntryDamage)
  | settings (fault : SettingsFault)
  | corrupted (offset : Option Nat)
  | unusable (fault : FileFault)
  | notFound
  | expired
  deriving DecidableEq, Repr

def StoreError.message : StoreError → String
  | .damaged damage => s!"Storage error: {damage.message}"
  | .settings fault => s!"Storage error: {fault.message}"
  | .corrupted offset => s!"Storage error: {corruptionMessage offset}"
  | .unusable fault => s!"Storage error: IO error: {fault.message}"
  | .notFound => "Block not found"
  | .expired => "Block expired"

end Overlay
