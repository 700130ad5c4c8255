import Overlay.Text.Decimal
import Overlay.Text.Split

/-! Argument lists. A form says which options, positional words and subcommands may
be given; scanning a list collects the values that are given, in order, or finds the
first fault. The values of an option are checked when the next option or positional
word comes, or at the end. -/
namespace Overlay.Cli

/-- Why an argument list is not accepted. The first two ask for a text instead. -/
inductive UsageError where
  | help
  | version
  | nothingGiven
  | missingSubcommand
  | invalidSubcommand
  | unknownArgument
  | repeated
  | missingRequired
  | missingValue
  | malformedValue
  | needlessValue
  deriving DecidableEq, Repr

inductive ValueType where
  | text
  | path
  | number
  deriving DecidableEq, Repr

inductive OptionAction where
  | flag
  | single (type : ValueType)
  | many (type : ValueType)
  | help
  | version
  deriving DecidableEq, Repr

structure OptionForm where
  name : String
  short : Option Char
  action : OptionAction
  deriving DecidableEq, Repr

structure Form where
  options : List OptionForm
  positionals : List OptionForm
  subcommands : List String
  deriving DecidableEq, Repr

namespace OptionAction

def takesValue : OptionAction → Bool
  | .single _ | .many _ => true
  | _ => false

def isMany : OptionAction → Bool
  | .many _ => true
  | _ => false

def fault? (action : OptionAction) (value : String) : Option UsageError :=
  match action with
  | .single .path | .many .path => if value = "" then some .missingValue else none
  | .single .number | .many .number =>
    if (Text.Decimal.readWord64? value.toList).isNone then some .malformedValue else none
  | _ => none

end OptionAction

/-- How far an argument list has been scanned: the values accepted, the latest first, an
option whose values are not checked yet, whether the next word is its value, how many
positional words there were, and whether only such words follow. -/
structure Scan where
  values : List (String × String)
  pending : Option (OptionForm × List String)
  awaiting : Bool
  positionals : Nat
  trailing : Bool

namespace Scan

def start : Scan := ⟨[], none, false, 0, false⟩

def isGiven (s : Scan) (name : String) : Bool := s.values.any fun value => value.1 == name

def valuesOf (s : Scan) (name : String) : List String :=
  ((s.values.filter fun value => value.1 == name).map Prod.snd).reverse

def value? (s : Scan) (name : String) : Option String := (s.valuesOf name).head?

def enter (s : Scan) (o : OptionForm) (given : List String) : Except UsageError Scan :=
  match o.action with
  | .help => .error .help
  | .version => .error .version
  | action =>
    if action.takesValue && given.isEmpty then .error .missingValue
    else if !action.isMany && s.isGiven o.name then .error .repeated
    else match given.findSome? action.fault? with
      | some fault => .error fault
      | none =>
        let given := if action.takesValue then given else [""]
        .ok { s with values := (given.map (o.name, ·)).reverse ++ s.values, awaiting := false }

def settle (s : Scan) : Except UsageError Scan :=
  match s.pending with
  | none => .ok s
  | some (o, given) => enter { s with pending := none } o given

/-- Accepts an option with the value attached to it, if any. Without one, the next
word is the value. -/
def option (s : Scan) (o : OptionForm) (attached : Option String) : Except UsageError Scan := do
  match o.action.takesValue, attached with
  | true, none => return { ← s.settle with pending := some (o, []), awaiting := true }
  | true, some value => (← s.settle).enter o [value]
  | false, none => (← s.settle).enter o []
  | false, some _ => throw .needlessValue

/-- The letters after a single dash. One that takes a value has the letters after it
as its value, up to an equals sign in front. -/
def shorts (form : Form) : List Char → Scan → Except UsageError Scan
  | [], s => .ok s
  | c :: rest, s =>
    match form.options.find? fun o => o.short = some c with
    | none => .error .unknownArgument
    | some o =>
      if o.action.takesValue then
        s.option o <| match rest with
          | [] => none
          | '=' :: value => some (String.ofList value)
          | value => some (String.ofList value)
      else do shorts form rest (← s.option o none)

def positional (form : Form) (word : String) (s : Scan) : Except UsageError Scan :=
  match form.positionals[s.positionals]? with
  | some o => do
    return { ← s.settle with
      pending := some (o, [word]), awaiting := false, positionals := s.positionals + 1 }
  | none =>
    if form.subcommands.isEmpty || s.trailing && form.subcommands.contains word then
      .error .unknownArgument
    else .error .invalidSubcommand

def word (form : Form) (w : String) (s : Scan) : Except UsageError Scan :=
  if s.trailing then s.positional form w
  else match w.toList with
    | ['-', '-'] => .ok { s with trailing := true }
    | '-' :: '-' :: long =>
      let (name, attached) := match Text.splitOnce ['='] long with
        | some (name, value) => (String.ofList name, some (String.ofList value))
        | none => (String.ofList long, none)
      match form.options.find? fun o => o.name = name with
      | none => .error .unknownArgument
      | some o => s.option o attached
    | '-' :: c :: rest => s.shorts form (c :: rest)
    | _ =>
      match s.awaiting, s.pending with
      | true, some (o, given) =>
        .ok { s with pending := some (o, given ++ [w]), awaiting := false }
      | _, _ => s.positional form w

/-- Scans words up to a subcommand, and yields it with the words after it. -/
def words (form : Form) : List String → Scan → Except UsageError (Scan × Option (String × List String))
  | [], s => .ok (s, none)
  | w :: rest, s =>
    if !s.trailing && !s.awaiting && form.subcommands.contains w then .ok (s, some (w, rest))
    else do words form rest (← s.word form w)

end Scan
end Overlay.Cli
