import Overlay.Text.Decimal
import Overlay.Text.Split
import Overlay.Text.Utf8

/-! The settings that a persistent store is kept under, and their file: a name and a value
on each line, and a checksum at the end. The store only works with its own settings. -/
namespace Overlay

structure Settings where
  segmentSize : UInt64
  compression : Bool
  major : UInt64
  minor : UInt64
  deriving DecidableEq, Repr

inductive SettingsFault where
  | unreadable
  | notText
  | compression (found : Bool)
  | segmentSize (found : UInt64)
  | version (major minor : UInt64)
  deriving DecidableEq, Repr

namespace Settings

def standard : Settings := ⟨524288, false, 0, 34⟩

def separator : String := ": "

def write (s : Settings) : String :=
  s!"segment_size: {s.segmentSize}\nuse_compression: {s.compression}\n" ++
    s!"version: {s.major}.{s.minor}\n"

def checksum : Bytes := [0x76, 0x19, 0x51, 0xc1]

def file : Bytes := Text.utf8 standard.write ++ checksum

/-- A file this short has no settings. -/
def blank : Nat := 8

def lineFeed : UInt8 := 10
def carriageReturn : UInt8 := 13

def dropReturn (line : Bytes) : Bytes :=
  if line.getLast? = some carriageReturn then line.dropLast else line

/-- The lines of a file. The last one may lack its end. -/
def lines (b : Bytes) : List Bytes :=
  let pieces := Text.splitAll lineFeed b
  pieces.dropLast.map dropReturn ++ pieces.getLast?.toList.filter (· ≠ [])

def field (line : Bytes) : Except SettingsFault (List Char × List Char) :=
  match Text.ofUtf8? line with
  | none => .error .notText
  | some text =>
    match Text.splitOnce separator.toList text.toList with
    | none => .error .unreadable
    | some (name, rest) =>
      .ok (name, ((Text.splitOnce separator.toList rest).map (·.1)).getD rest)

def readFlag? (value : List Char) : Option Bool :=
  if value = "true".toList then some true
  else if value = "false".toList then some false
  else none

/-- The settings that fields spell. Of several fields of one name the last one counts. -/
def ofFields? (fields : List (List Char × List Char)) : Option Settings := do
  let value (name : String) := fields.reverse.lookup name.toList
  let segmentSize ← Text.Decimal.readWord64? (← value "segment_size")
  let compression ← readFlag? (← value "use_compression")
  match Text.splitAll '.' (← value "version") with
  | major :: minor :: _ =>
    return ⟨segmentSize, compression, ← Text.Decimal.readWord64? major,
      ← Text.Decimal.readWord64? minor⟩
  | _ => none

/-- Reads a settings file. The checksum is not looked at. -/
def read (b : Bytes) : Except SettingsFault Settings := do
  let fields ← (lines (b.take (b.length - checksum.length))).mapM field
  match ofFields? fields with
  | some s => return s
  | none => throw .unreadable

def check (s : Settings) : Except SettingsFault Unit :=
  if s.compression ≠ standard.compression then .error (.compression s.compression)
  else if s.segmentSize ≠ standard.segmentSize then .error (.segmentSize s.segmentSize)
  else if (s.major, s.minor) ≠ (standard.major, standard.minor) then
    .error (.version s.major s.minor)
  else .ok ()

end Settings
end Overlay
