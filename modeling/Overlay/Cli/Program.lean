import Overlay.Cli.Session

/-! The program: one run of it on a machine with files and stores. -/
namespace Overlay.Cli

def programName : String := "dht_core"
def programVersion : String := "0.1.2"

structure Machine where
  files : Files
  configHome : String
  deriving DecidableEq

structure Outcome where
  exit : Nat
  out : String
  err : String
  deriving DecidableEq, Repr

inductive ProgramError where
  | config (fault : ConfigError)
  | logLevel (text : String)
  | command (fault : CommandError)
  deriving DecidableEq, Repr

def ProgramError.messages : ProgramError → List String
  | .config (.file fault) => [(ConfigError.file fault).message, fault.message]
  | .config (.malformed fault) => [(ConfigError.malformed fault).message, fault.message]
  | .config fault => [fault.message]
  | .logLevel text => [LogLevel.invalid text]
  | .command fault => fault.messages

def UsageError.outcome : UsageError → Outcome
  | .help => ⟨0, "Usage: dht-core [OPTIONS] <COMMAND>\n", ""⟩
  | .version => ⟨0, s!"{programName} {programVersion}\n", ""⟩
  | _ => ⟨2, "", "Usage: dht-core [OPTIONS] <COMMAND>\n"⟩

namespace Machine

def defaultConfigPath (m : Machine) : String :=
  Path.join (Path.join m.configHome "dht-core") "config.json"

def loadConfig (files : Files) (path : String) : Except ConfigError Config :=
  if files.has path then do
    let content ← (files.read path).mapError .file
    Config.load (some content)
  else Config.load none

def saveConfig (path : String) (config : Config) : FileChange ConfigError Unit := do
  (FileChange.makeParent path).adapt .file
  (FileChange.write path (Text.utf8 config.save)).adapt .file

/-- The configuration at a path. If there is nothing yet, it is written there. -/
def configure (path : String) : FileChange ConfigError Config := do
  let files ← get
  let config ← MonadExcept.ofExcept (loadConfig files path)
  if !files.has path then saveConfig path config
  return config

def configPath (m : Machine) (arguments : Arguments) : String :=
  arguments.config.getD m.defaultConfigPath

/-- The paths that a command may read or write beside the store. -/
def commandPaths (config : Config) : Command → List String
  | .keygen _ | .hello .. => [config.keyFilePath]
  | .zoneKeygen out => [out]
  | .gnsPublish zone .. => [zone]
  | _ => []

/-- The paths that a run with a configuration may read or write, but for those in the
directories of the store. -/
def configuredPaths (config : Config) (command : Command) : List String :=
  config.dataDir :: commandPaths config command

def storeDirectories (config : Config) : List String :=
  [config.storePath, StoreDirectory.blobsPath config.storePath]

def logLevel (arguments : Arguments) (config : Config) : Except ProgramError LogLevel :=
  if arguments.verbose then .ok .debug
  else
    let text := arguments.logLevel.getD config.logLevel
    match LogLevel.parse? text with
    | some level => .ok level
    | none => .error (.logLevel text)

def reportText (color : Bool) : Report → String
  | .success text => Text.paint color [.bold, .green] "Success:" ++ " " ++ text ++ "\n"
  | .info text => text ++ "\n"
  | .warning text => Text.paint color [.bold, .yellow] "Warning:" ++ " " ++ text ++ "\n"

def failure (color : Bool) (e : ProgramError) : Outcome :=
  ⟨1, "", Text.paint color [.bold, .red] "Error:" ++ " " ++ ": ".intercalate e.messages ++ "\n"⟩

def perform (C : Curve) (moment : Moment) (arguments : Arguments) :
    ExceptT ProgramError (StateM Machine) Report := do
  let m ← get
  let (configured, files) := (configure (m.configPath arguments)).run.run m.files
  set { m with files }
  let config ← MonadExcept.ofExcept (configured.mapError .config)
  let _ ← MonadExcept.ofExcept (logLevel arguments config)
  let (result, s) := Session.perform C moment arguments.command (.start config files)
  set { m with files := s.close.files }
  MonadExcept.ofExcept (result.mapError .command)

def run (C : Curve) (moment : Moment) (words : List String) (m : Machine) : Outcome × Machine :=
  match Arguments.parse words with
  | .error fault => (fault.outcome, m)
  | .ok arguments =>
    match (perform C moment arguments).run.run m with
    | (.error fault, m) => (failure moment.color fault, m)
    | (.ok report, m) => (⟨0, reportText moment.color report, ""⟩, m)

end Machine
end Overlay.Cli
