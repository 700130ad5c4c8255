import Overlay.Cli.Grammar

/-! The commands of the program and their arguments. -/
namespace Overlay.Cli

inductive Command where
  | keygen (force : Bool)
  | hello (addresses : List String) (ttl : Option UInt64)
  | parseHello (url : String) (strict : Bool)
  | zoneKeygen (out : String)
  | gnsPublish (zone label value : String) (ttl : UInt64)
  | gnsLookup (zoneKey label : String)
  | storeList
  deriving DecidableEq, Repr

structure Arguments where
  config : Option String
  logLevel : Option String
  verbose : Bool
  command : Command
  deriving DecidableEq, Repr

namespace Arguments

def helpOption : OptionForm := ⟨"help", some 'h', .help⟩

def textOption (name : String) : OptionForm := ⟨name, none, .single .text⟩

def commandForm (options positionals : List OptionForm) : Form :=
  ⟨options ++ [helpOption], positionals, []⟩

structure CommandRule where
  name : String
  form : Form
  required : List String
  read : Scan → Option Command

def number (s : String) : Option UInt64 := Text.Decimal.readWord64? s.toList

def rules : List CommandRule :=
  [{ name := "keygen"
     form := commandForm [⟨"force", none, .flag⟩] []
     required := []
     read := fun s => some (.keygen (s.isGiven "force")) },
   { name := "hello"
     form := commandForm [⟨"addr", none, .many .text⟩, ⟨"ttl", none, .single .number⟩] []
     required := []
     read := fun s => some (.hello (s.valuesOf "addr") ((s.value? "ttl").bind number)) },
   { name := "parse-hello"
     form := commandForm [⟨"strict", none, .flag⟩] [textOption "url"]
     required := ["url"]
     read := fun s => do return .parseHello (← s.value? "url") (s.isGiven "strict") },
   { name := "zone-keygen"
     form := commandForm [⟨"out", none, .single .path⟩] []
     required := ["out"]
     read := fun s => do return .zoneKeygen (← s.value? "out") },
   { name := "gns-publish"
     form := commandForm [⟨"zone", none, .single .path⟩, textOption "label", textOption "value",
       ⟨"ttl", none, .single .number⟩] []
     required := ["zone", "label", "value"]
     read := fun s => do
       return .gnsPublish (← s.value? "zone") (← s.value? "label") (← s.value? "value")
         (((s.value? "ttl").bind number).getD 3600) },
   { name := "gns-lookup"
     form := commandForm [textOption "zone-key", textOption "label"] []
     required := ["zone-key", "label"]
     read := fun s => do return .gnsLookup (← s.value? "zone-key") (← s.value? "label") },
   { name := "store-list"
     form := commandForm [] []
     required := []
     read := fun _ => some .storeList }]

def helpCommand : String := "help"

def programForm : Form where
  options := [⟨"config", some 'c', .single .path⟩, textOption "log-level",
    ⟨"verbose", some 'v', .flag⟩, helpOption, ⟨"version", some 'V', .version⟩]
  positionals := []
  subcommands := rules.map CommandRule.name ++ [helpCommand]

def parseHelp : List String → UsageError
  | [] => .help
  | [command] => if command ∈ programForm.subcommands then .help else .invalidSubcommand
  | _ => .invalidSubcommand

def parseCommand (rule : CommandRule) (words : List String) : Except UsageError Command := do
  let (s, _) ← Scan.start.words rule.form words
  let s ← s.settle
  if !rule.required.all s.isGiven then throw .missingRequired
  match rule.read s with
  | some command => return command
  | none => throw .missingRequired

/-- Reads an argument list. The words of the command are read before the program's
last option is checked. -/
def parse (words : List String) : Except UsageError Arguments := do
  let (s, found) ← Scan.start.words programForm words
  match found with
  | none =>
    let s ← s.settle
    throw (if s.values.isEmpty then .nothingGiven else .missingSubcommand)
  | some (name, rest) =>
    if name = helpCommand then throw (parseHelp rest)
    match rules.find? fun rule => rule.name = name with
    | none => throw .invalidSubcommand
    | some rule =>
      let command ← parseCommand rule rest
      let s ← s.settle
      return {
        config := s.value? "config"
        logLevel := s.value? "log-level"
        verbose := s.isGiven "verbose"
        command }

end Arguments
end Overlay.Cli
