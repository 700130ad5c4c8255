import Overlay.Json.Value

/-! Reading JSON texts as lists and records. A record is an object with known and unknown
fields, or a list of the values of its fields. -/
namespace Overlay.Json

def nextItem (first : Bool) : Reader Bool := do
  match ← skipBlanks with
  | [] => stopAtEnd .endInList
  | ']' :: _ => return false
  | c :: rest =>
    if first then return true
    if c ≠ ',' then stopAt .noListEnd
    set rest
    match ← skipBlanks with
    | [] => stopAtEnd .endInValue
    | ']' :: _ => stopAt .trailingComma
    | _ => return true

def readName : Reader String := do
  match ← get with
  | '"' :: rest => set rest; readText
  | _ => stopAt .nameNotText

def nextName? (first : Bool) : Reader (Option String) := do
  match ← skipBlanks with
  | [] => stopAtEnd .endInObject
  | '\x7d' :: _ => return none
  | c :: rest =>
    if first then return some (← readName)
    if c ≠ ',' then stopAt .noObjectEnd
    set rest
    match ← skipBlanks with
    | [] => stopAtEnd .endInValue
    | '\x7d' :: _ => stopAt .trailingComma
    | _ => return some (← readName)

def closeList : Reader (Option Stop) := fun cs =>
  match cs.dropWhile isBlank with
  | ']' :: rest => .ok (none, rest)
  | [] => .ok (some ⟨.endInList, 0⟩, [])
  | ',' :: rest =>
    let rest := rest.dropWhile isBlank
    let cause := if rest.head? = some ']' then .trailingComma else .trailingText
    .ok (some ⟨cause, byteCount rest - 1⟩, rest)
  | rest => .ok (some ⟨.trailingText, byteCount rest - 1⟩, rest)

def closeObject : Reader (Option Stop) := fun cs =>
  match cs.dropWhile isBlank with
  | '\x7d' :: rest => .ok (none, rest)
  | [] => .ok (some ⟨.endInObject, 0⟩, [])
  | rest =>
    let cause := if rest.head? = some ',' then .trailingComma else .trailingText
    .ok (some ⟨cause, byteCount rest - 1⟩, rest)

/-- Reads the end of what has been read. A cause that has no place of its own is blamed
on that end. -/
def settle {α : Type} (close : Reader (Option Stop)) (result : Except Cause α) : Reader α := do
  let stop? ← close
  match result, stop? with
  | .error cause, _ => stopBefore cause
  | .ok _, some stop => throw stop
  | .ok value, none => return value

/-- Reads the strings of a list up to its end, after those of `front`, of which the last
comes first. The fuel has an item for each step. -/
def textsFrom : (fuel : List Char) → (front : List String) → Reader (List String)
  | [], _ => stopAtEnd .endInList
  | _ :: fuel, front => do
    if ← nextItem front.isEmpty then
      let item ← text
      textsFrom fuel (item :: front)
    else return front.reverse

def texts : Reader (List String) := do
  match ← skipBlanks with
  | '[' :: rest =>
    set rest
    settle closeList (.ok (← textsFrom rest []))
  | _ => stopAtType "a sequence"

/-- A field of a record: reading its value changes what is known of the record, unless
the value is refused. -/
structure Field (σ : Type) where
  name : String
  required : Bool
  read : σ → Reader (Except Cause σ)

def Field.ofReader {σ α : Type} (name : String) (required : Bool) (read : Reader α)
    (put : σ → α → σ) : Field σ :=
  ⟨name, required, fun s => do return .ok (put s (← read))⟩

structure Record (σ : Type) where
  name : String
  fields : List (Field σ)

namespace Record

variable {σ : Type}

/-- Reads the fields of an object up to its end, those of `given` having been read. The
fuel has an item for each step. -/
def readObject (r : Record σ) : (fuel : List Char) → (first : Bool) → (given : List String) →
    σ → Reader (Except Cause σ)
  | [], _, _, _ => stopAtEnd .endInObject
  | _ :: fuel, first, given, s => do
    match ← nextName? first with
    | none =>
      match r.fields.find? fun f => f.required && !given.contains f.name with
      | some f => return .error (.missing f.name)
      | none => return .ok s
    | some name =>
      match r.fields.find? fun f => f.name = name with
      | none =>
        colon
        skip
        readObject r fuel false given s
      | some f =>
        if given.contains name then return .error (.repeated name)
        colon
        match ← f.read s with
        | .error cause => return .error cause
        | .ok s => readObject r fuel false (name :: given) s

def readList (r : Record σ) (count : Nat) : List (Field σ) → σ → Reader (Except Cause σ)
  | [], s => return .ok s
  | f :: fields, s => do
    if ← nextItem (count = 0) then
      match ← f.read s with
      | .error cause => return .error cause
      | .ok s => readList r (count + 1) fields s
    else if f.required then
      return .error (.wrongLength count s!"{r.name} with {r.fields.length} elements")
    else return .ok s

def read (r : Record σ) (start : σ) : Reader σ := do
  match ← skipBlanks with
  | '[' :: rest =>
    set rest
    settle closeList (← r.readList 0 r.fields start)
  | '\x7b' :: rest =>
    set rest
    settle closeObject (← r.readObject rest true [] start)
  | _ => stopAtType r.name

end Record

def Reader.run {α : Type} (read : Reader α) (s : String) : Except Fault α :=
  let whole : Reader α := do
    let value ← read
    if !(← skipBlanks).isEmpty then stopAt .trailingText
    return value
  match whole s.toList with
  | .ok (value, _) => .ok value
  | .error stop => .error (stop.locate s)

end Overlay.Json
