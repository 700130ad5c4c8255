import Overlay.Files
import Overlay.Json.Reader
import Overlay.Json.Writer
import Overlay.Store

/-! The configuration of a node and its file, a JSON object. Missing fields have
default values, unknown ones are ignored. -/
namespace Overlay

inductive LogLevel where
  | off
  | error
  | warn
  | info
  | debug
  | trace
  deriving DecidableEq, Repr

namespace LogLevel

def all : List LogLevel := [.off, .error, .warn, .info, .debug, .trace]

def text : LogLevel → String
  | .off => "off"
  | .error => "error"
  | .warn => "warn"
  | .info => "info"
  | .debug => "debug"
  | .trace => "trace"

/-- Reads a level in either case. -/
def parse? (s : String) : Option LogLevel :=
  all.find? fun level => level.text.toList = s.toList.map Char.toLower

def invalid (s : String) : String := s!"Invalid log level: {s}"

end LogLevel

inductive ConfigError where
  | file (fault : FileFault)
  | malformed (fault : Json.Fault)
  | ttlNotPositive
  deriving DecidableEq, Repr

def ConfigError.message : ConfigError → String
  | .file fault => s!"IO error: {fault.message}"
  | .malformed fault => s!"Parse error: {fault.message}"
  | .ttlNotPositive => "Invalid value: hello_ttl_secs must be positive"

def Backend.text : Backend → String
  | .memory => "memory"
  | .disk => "sled"

def Backend.named (name : String) : Json.Reader Backend :=
  match [Backend.memory, .disk].find? fun b => b.text = name with
  | some b => return b
  | none => Json.stopBefore (.refused s!"unknown variant `{name}`, expected `memory` or `sled`")

/-- A backend is given by its name, or by an object that maps the name to null. -/
def Backend.read : Json.Reader Backend := do
  match ← Json.skipBlanks with
  | '"' :: _ => Backend.named (← Json.text)
  | '\x7b' :: rest =>
    set rest
    let b ← Backend.named (← Json.textFor "variant identifier")
    Json.colon
    Json.null
    match ← Json.skipBlanks with
    | '\x7d' :: rest => set rest; return b
    | [] => Json.stopAtEnd .endInObject
    | _ => Json.stopBefore .noValue
  | [] => Json.stopAtEnd .endInValue
  | _ => Json.stopAt .noValue

structure Config where
  dataDir : String
  keyFile : String
  logLevel : String
  backend : Backend
  helloTtl : UInt64
  addresses : List String
  deriving DecidableEq

namespace Config

def standard : Config where
  dataDir := "data"
  keyFile := "peer.json"
  logLevel := "info"
  backend := .disk
  helloTtl := 43200
  addresses := []

def path : Json.Reader String := Json.textFor "path string"

def record : Json.Record Config where
  name := "struct Config"
  fields :=
    [.ofReader "data_dir" false path fun c dataDir => { c with dataDir },
      .ofReader "key_file" false path fun c keyFile => { c with keyFile },
      .ofReader "log_level" false Json.text fun c logLevel => { c with logLevel },
      .ofReader "store" false Backend.read fun c backend => { c with backend },
      .ofReader "hello_ttl_secs" false Json.word64 fun c helloTtl => { c with helloTtl },
      .ofReader "addresses" false Json.texts fun c addresses => { c with addresses }]

def validate (c : Config) : Except ConfigError Unit :=
  if c.helloTtl = 0 then .error .ttlNotPositive else .ok ()

def parse (s : String) : Except ConfigError Config :=
  match Json.Reader.run (record.read standard) s with
  | .error fault => .error (.malformed fault)
  | .ok c => do
    c.validate
    return c

/-- Reads a configuration file. If there is none, all values are the default ones. -/
def load : (content : Option Bytes) → Except ConfigError Config
  | none => .ok standard
  | some content =>
    match Text.ofUtf8? content with
    | none => .error (.file .notText)
    | some s => parse s

def save (c : Config) : String :=
  Json.writeObject 0 <| (record.fields.map Json.Field.name).zip
    [Json.quote c.dataDir, Json.quote c.keyFile, Json.quote c.logLevel, Json.quote c.backend.text,
      toString c.helloTtl.toNat, Json.writeTexts 1 c.addresses]

def keyFilePath (c : Config) : String := Path.join c.dataDir c.keyFile

def storePath (c : Config) : String := Path.join c.dataDir "blocks"

end Config

end Overlay
