import Overlay.Json.Number
import Overlay.Json.Text

/-! Values in JSON texts: strings and numbers where they are asked for, and any values
where they are passed over. -/
namespace Overlay.Json

def isBlank (c : Char) : Bool := c == ' ' || c == '\n' || c == '\t' || c == '\r'

def skipBlanks : Reader (List Char) := fun cs =>
  let rest := cs.dropWhile isBlank
  .ok (rest, rest)

def readWord : List Char → Reader Unit
  | [] => return ()
  | expected :: word => do
    match ← get with
    | [] => stopAtEnd .endInValue
    | c :: rest =>
      if c ≠ expected then stopAt .noWord
      set rest
      readWord word

/-- Finds out what there is. Lists and objects are not read. -/
def readFound : Reader Found := do
  match ← skipBlanks with
  | [] => stopAtEnd .endInValue
  | '[' :: _ => return .list
  | '\x7b' :: _ => return .object
  | c :: rest =>
    if c.isDigit then (← Number.read .endInValue).value false
    else
      match c with
      | 'n' => set rest; readWord "ull".toList; return .null
      | 't' => set rest; readWord "rue".toList; return .bool true
      | 'f' => set rest; readWord "alse".toList; return .bool false
      | '-' => set rest; (← Number.read .endInValue).value true
      | '"' => set rest; return .text (← readText)
      | _ => stopAt .noValue

def stopAtType {α : Type} (expected : String) : Reader α := do
  stopBefore (.wrongType (← readFound) expected)

def textFor (expected : String) : Reader String := do
  match ← skipBlanks with
  | '"' :: rest => set rest; readText
  | _ => stopAtType expected

def text : Reader String := textFor "a string"

def null : Reader Unit := do
  match ← readFound with
  | .null => return ()
  | found => stopBefore (.wrongType found "unit")

def word64 : Reader UInt64 := do
  match ← readFound with
  | .integer (.ofNat value) => return UInt64.ofNat value
  | .integer value => stopBefore (.wrongValue (.integer value) "u64")
  | found => stopBefore (.wrongType found "u64")

def colon : Reader Unit := do
  match ← skipBlanks with
  | ':' :: rest => set rest
  | [] => stopAtEnd .endInObject
  | _ => stopAt .noColon

/-- What a value that is passed over is in. -/
inductive Enclosure where
  | list
  | object
  deriving DecidableEq, Repr

def Enclosure.close : Enclosure → Char
  | .list => ']'
  | .object => '\x7d'

def Enclosure.atEnd : Enclosure → Cause
  | .list => .endInList
  | .object => .endInObject

def Enclosure.unclosed : Enclosure → Cause
  | .list => .noListEnd
  | .object => .noObjectEnd

def skipName : Reader Unit := do
  match ← skipBlanks with
  | '"' :: rest =>
    set rest
    skipText
    colon
  | [] => stopAtEnd .endInObject
  | _ => stopAt .nameNotText

def Enclosure.skipName : Enclosure → Reader Unit
  | .list => return ()
  | .object => Json.skipName

def skipPlain : Reader Unit := do
  match ← get with
  | [] => stopAtEnd .endInValue
  | c :: rest =>
    if c.isDigit then let _ ← Number.read .badNumber
    else
      match c with
      | 'n' => set rest; readWord "ull".toList
      | 't' => set rest; readWord "rue".toList
      | 'f' => set rest; readWord "alse".toList
      | '-' => set rest; let _ ← Number.read .badNumber
      | '"' => set rest; skipText
      | _ => stopAt .noValue

def Enclosure.ofOpening? : Char → Option Enclosure
  | '[' => some .list
  | '\x7b' => some .object
  | _ => none

/-- Passes over a value, or over what follows a value, up to the end of all enclosures.
The fuel has an item for each step. -/
def skipIn : (fuel : List Char) → (afterValue : Bool) → List Enclosure → Reader Unit
  | _, true, [] => return ()
  | [], _, _ => stopAtEnd .endInValue
  | _ :: fuel, true, e :: outer => do
    match ← skipBlanks with
    | [] => stopAtEnd e.atEnd
    | c :: rest =>
      if c = ',' then
        set rest
        e.skipName
        skipIn fuel false (e :: outer)
      else if c = e.close then
        set rest
        skipIn fuel true outer
      else stopAt e.unclosed
  | _ :: fuel, false, enclosing => do
    match ← skipBlanks with
    | [] => stopAtEnd .endInValue
    | c :: rest =>
      match Enclosure.ofOpening? c with
      | none =>
        skipPlain
        skipIn fuel true enclosing
      | some e =>
        set rest
        match ← skipBlanks with
        | [] => stopAtEnd e.atEnd
        | c :: rest =>
          if c = e.close then
            set rest
            skipIn fuel true enclosing
          else
            e.skipName
            skipIn fuel false (e :: enclosing)

/-- Passes over a value. Every step but the last takes a character. -/
def skip : Reader Unit := fun cs => skipIn (' ' :: cs) false [] cs

end Overlay.Json
