import Overlay.Text.Quoted
import Overlay.Text.Utf8

/-! Faults of JSON texts: what is wrong, and where reading stopped. -/
namespace Overlay.Json

inductive Found where
  | null
  | bool (value : Bool)
  | integer (value : Int)
  | float (decimal : String)
  | text (value : String)
  | list
  | object
  deriving DecidableEq, Repr

def Found.message : Found → String
  | .null => "null"
  | .bool value => s!"boolean `{value}`"
  | .integer value => s!"integer `{value}`"
  | .float decimal => s!"floating point `{decimal}`"
  | .text value => "string " ++ Text.Quoted.quote value
  | .list => "sequence"
  | .object => "map"

inductive Cause where
  | endInValue
  | endInText
  | endInList
  | endInObject
  | noColon
  | noListEnd
  | noObjectEnd
  | noWord
  | noValue
  | badEscape
  | badNumber
  | outOfRange
  | controlCharacter
  | nameNotText
  | loneHalf
  | cutEscape
  | trailingComma
  | trailingText
  | wrongType (found : Found) (expected : String)
  | wrongValue (found : Found) (expected : String)
  | wrongLength (length : Nat) (expected : String)
  | missing (field : String)
  | repeated (field : String)
  | refused (reason : String)
  deriving DecidableEq, Repr

def Cause.message : Cause → String
  | .endInValue => "EOF while parsing a value"
  | .endInText => "EOF while parsing a string"
  | .endInList => "EOF while parsing a list"
  | .endInObject => "EOF while parsing an object"
  | .noColon => "expected `:`"
  | .noListEnd => "expected `,` or `]`"
  | .noObjectEnd => "expected `,` or `\x7d`"
  | .noWord => "expected ident"
  | .noValue => "expected value"
  | .badEscape => "invalid escape"
  | .badNumber => "invalid number"
  | .outOfRange => "number out of range"
  | .controlCharacter => "control character (\\u0000-\\u001F) found while parsing a string"
  | .nameNotText => "key must be a string"
  | .loneHalf => "lone leading surrogate in hex escape"
  | .cutEscape => "unexpected end of hex escape"
  | .trailingComma => "trailing comma"
  | .trailingText => "trailing characters"
  | .wrongType found expected => s!"invalid type: {found.message}, expected {expected}"
  | .wrongValue found expected => s!"invalid value: {found.message}, expected {expected}"
  | .wrongLength length expected => s!"invalid length {length}, expected {expected}"
  | .missing field => s!"missing field `{field}`"
  | .repeated field => s!"duplicate field `{field}`"
  | .refused reason => reason

/-- A cause, and the number of bytes that are left after the place that it is blamed on. -/
structure Stop where
  cause : Cause
  left : Nat
  deriving DecidableEq, Repr

abbrev Reader := StateT (List Char) (Except Stop)

def byteCount (cs : List Char) : Nat := cs.foldl (fun n c => n + c.utf8Size) 0

/-- Blames what was read before the last `unread` bytes. -/
def stopBack {α : Type} (unread : Nat) (cause : Cause) : Reader α := fun rest =>
  .error ⟨cause, byteCount rest + unread⟩

def stopBefore {α : Type} (cause : Cause) : Reader α := stopBack 0 cause

def stopAt {α : Type} (cause : Cause) : Reader α := fun rest =>
  .error ⟨cause, byteCount rest - 1⟩

def stopAtEnd {α : Type} (cause : Cause) : Reader α := fun _ => .error ⟨cause, 0⟩

/-- A cause at a line and a column. Lines are counted from one, and columns in bytes. -/
structure Fault where
  cause : Cause
  line : Nat
  column : Nat
  deriving DecidableEq, Repr

def Fault.message (f : Fault) : String :=
  s!"{f.cause.message} at line {f.line} column {f.column}"

def lineFeed : UInt8 := 10

def Stop.locate (s : String) (stop : Stop) : Fault :=
  let front := (Text.utf8 s).take (s.utf8ByteSize - stop.left)
  ⟨stop.cause, front.count lineFeed + 1, (front.reverse.takeWhile (· ≠ lineFeed)).length⟩

end Overlay.Json
