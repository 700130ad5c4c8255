import Overlay.Json.Fault
import Overlay.Octets.Hex

/-! Strings in JSON texts. A string that is read has to spell a text; of one that is
passed over only the form is looked at. -/
namespace Overlay.Json

def readUnit : Reader Nat := fun cs =>
  let digits? := match cs with
    | a :: b :: c :: d :: rest => ([a, b, c, d].mapM Hex.value?).map (·, rest)
    | _ => none
  match digits? with
  | some (digits, rest) => .ok (digits.foldl (fun n digit => 16 * n + digit) 0, rest)
  | none => .error (if byteCount cs < 4 then ⟨.endInText, 0⟩ else ⟨.badEscape, byteCount cs - 4⟩)

def isHighHalf (unit : Nat) : Bool := 0xd800 ≤ unit && unit < 0xdc00

def isLowHalf (unit : Nat) : Bool := 0xdc00 ≤ unit && unit < 0xe000

def joinHalves (high low : Nat) : Char :=
  Char.ofNat (0x10000 + (high - 0xd800) * 0x400 + (low - 0xdc00))

def readLowHalf (high : Nat) : Reader Char := do
  match ← get with
  | '\\' :: 'u' :: rest =>
    set rest
    let low ← readUnit
    if isLowHalf low then return joinHalves high low else stopBefore .loneHalf
  | [] | ['\\'] => stopAtEnd .endInText
  | '\\' :: rest =>
    set rest
    stopAt .cutEscape
  | _ => stopAt .cutEscape

def readCodePoint : Reader Char := do
  let unit ← readUnit
  if isLowHalf unit then stopBefore .loneHalf
  else if isHighHalf unit then readLowHalf unit
  else return Char.ofNat unit

def simpleEscape? (c : Char) : Option Char :=
  match c with
  | '"' | '\\' | '/' => some c
  | 'b' => some '\x08'
  | 'f' => some '\x0c'
  | 'n' => some '\n'
  | 'r' => some '\r'
  | 't' => some '\t'
  | _ => none

/-- An escape after its backslash. Numeric ones are read by `numeric`. -/
def escape (numeric : Reader Char) : Reader Char := do
  match ← get with
  | [] => stopAtEnd .endInText
  | 'u' :: rest =>
    set rest
    numeric
  | c :: rest =>
    match simpleEscape? c with
    | some c =>
      set rest
      return c
    | none => stopAt .badEscape

def isControl (c : Char) : Bool := c.toNat < 0x20

/-- Reads a string up to its closing quote, after the characters of `front`, of which the
last comes first. The fuel has an item for each step. -/
def readTextFrom : (fuel : List Char) → (front : List Char) → Reader String
  | [], _ => stopAtEnd .endInText
  | _ :: fuel, front => fun cs =>
    match cs with
    | [] => stopAtEnd .endInText cs
    | c :: rest =>
      if c = '"' then .ok (String.ofList front.reverse, rest)
      else if c = '\\' then
        match escape readCodePoint rest with
        | .error stop => .error stop
        | .ok (c, rest) => readTextFrom fuel (c :: front) rest
      else if isControl c then stopBefore .controlCharacter rest
      else readTextFrom fuel (c :: front) rest

/-- Reads a string whose opening quote has been read. Every step takes a character, and so
the text itself is fuel enough. -/
def readText : Reader String := fun cs => readTextFrom cs [] cs

/-- Passes over a string up to its closing quote. Halves of surrogate pairs need not come
in pairs. -/
def skipTextIn : (fuel : List Char) → Reader Unit
  | [] => stopAtEnd .endInText
  | _ :: fuel => fun cs =>
    match cs with
    | [] => stopAtEnd .endInText cs
    | c :: rest =>
      if c = '"' then .ok ((), rest)
      else if c = '\\' then
        match escape (readUnit.map Char.ofNat) rest with
        | .error stop => .error stop
        | .ok (_, rest) => skipTextIn fuel rest
      else if isControl c then stopBefore .controlCharacter cs
      else skipTextIn fuel rest

def skipText : Reader Unit := fun cs => skipTextIn cs cs

end Overlay.Json
