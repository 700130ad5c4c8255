import Overlay.Cli.Command
import Overlay.Cli.Description
import Overlay.Cli.Table
import Overlay.Block.Hello.Url
import Overlay.Config
import Overlay.Handler
import Overlay.KeyFile
import Overlay.Query.Verification
import Overlay.Store.Directory
import Overlay.Text.DataSize

/-! Commands as changes of a session: a configuration, the files and the store. The
clock reading and the seed for a new key are given with each command. -/
namespace Overlay.Cli

inductive Report where
  | success (text : String)
  | info (text : String)
  | warning (text : String)
  deriving DecidableEq, Repr

inductive CommandError where
  | noPeerKey (path : String) (fault : FileFault)
  | noZoneKey (path : String) (fault : FileFault)
  | keySyntax (fault : Json.Fault)
  | file (fault : FileFault)
  | unwritable (path : String) (fault : FileFault)
  | dataDirectory (fault : FileFault)
  | badAddress (uri : String) (fault : AddressError)
  | helloRefused
  | publicationRefused
  | notNameBlock
  | crypto (fault : CryptoError)
  | block (fault : BlockError)
  | records (fault : RecordError)
  | store (fault : StoreError)
  deriving DecidableEq, Repr

def CommandError.messages : CommandError → List String
  | .noPeerKey path fault => [s!"No peer key at {path} (run `keygen` first)", fault.message]
  | .noZoneKey path fault => [s!"Failed to read zone key {path}", fault.message]
  | .keySyntax fault => [fault.message]
  | .file fault => [fault.message]
  | .unwritable path fault => [s!"Failed to write {path}", fault.message]
  | .dataDirectory fault => [(ConfigError.file fault).message, fault.message]
  | .badAddress uri fault => [s!"Bad address {uri}", fault.message]
  | .helloRefused => ["Generated HELLO failed validation"]
  | .publicationRefused => ["Published block failed validation"]
  | .notNameBlock => ["Stored block is not a GNS block"]
  | .crypto fault => [fault.message]
  | .block (.crypto fault) => [(BlockError.crypto fault).message, fault.message]
  | .block fault => [fault.message]
  | .records fault => [fault.message]
  | .store fault => [fault.message]

def CommandError.message (e : CommandError) : String := ": ".intercalate e.messages

structure Session where
  config : Config
  files : Files
  /-- The store, once it has been used. -/
  store : Option Store
  /-- What the log of a persistent store has gained. -/
  growth : Log.Growth
  deriving DecidableEq

structure Moment where
  now : Timestamp
  seed : Octets 32
  color : Bool

/-- A step of a session that may fail. What was done before the failure stays. -/
abbrev Step := ExceptT CommandError (StateM Session)

namespace Session

def lift {ε α : Type} (wrap : ε → CommandError) (result : Except ε α) : Step α :=
  match result with
  | .ok value => pure value
  | .error fault => throw (wrap fault)

def changeFiles {ε α : Type} (wrap : ε → CommandError) (change : FileChange ε α) : Step α := do
  let (result, files) := change.run.run (← get).files
  modify fun s => { s with files }
  lift wrap result

def start (config : Config) (files : Files) : Session := ⟨config, files, none, .nothing 0⟩

def findStore (config : Config) : Step (Store × Log.Growth) := do
  match config.backend with
  | .memory => return (.memory .empty, .nothing 0)
  | .disk =>
    let (tree, growth) ← changeFiles .store (StoreDirectory.load config.storePath)
    return (.disk tree, growth)

/-- The store, which is found when it is used first. -/
def openStore : Step Store := do
  let s ← get
  match s.store with
  | some store => return store
  | none =>
    changeFiles .dataDirectory (.makeDirectory s.config.dataDir)
    let (store, growth) ← findStore s.config
    modify fun s => { s with store := some store, growth }
    return store

def growthBy (store : Store) (q : Query) (e : Entry) (growth : Log.Growth) : Log.Growth :=
  match store with
  | .memory _ => growth
  | .disk tree => growth.set tree (DiskStore.pair q e).1 (DiskStore.pair q e).2

/-- Stores a block as the answer to a query. The program flushes its store right after this. Here
the log gains the entry, and `close` writes it to its file: storing is the last thing that a
command does, so no file is read in between. -/
def putBlock (q : Query) (b : Block) : Step Unit := do
  let store ← openStore
  let e := Entry.ofBlock b
  modify fun s =>
    { s with store := some (store.put q e), growth := growthBy store q e s.growth }

/-- Writes what is left to be written of a store and puts it away. -/
def close (s : Session) : Session :=
  start s.config ((StoreDirectory.save s.config.storePath s.growth).run.run s.files).2

def readKeyFile (k : KeyFile) (path : String) (wrap : FileFault → CommandError) :
    Step (Octets 32) := do
  let content ← lift wrap ((← get).files.readText path)
  lift .keySyntax (k.parse content)

def writeFile (path content : String) : Step Unit := do
  changeFiles .file (.makeParent path)
  changeFiles (.unwritable path) (.write path (Text.utf8 content))

variable (C : Curve) (m : Moment)

def keygen (force : Bool) : Step Report := do
  let s ← get
  let path := s.config.keyFilePath
  if s.files.has path && !force then
    return .warning s!"Key file {path} already exists (use --force to overwrite)"
  let peer := (PeerSecret.mk m.seed).peerId C
  writeFile path (KeyFile.peer.write peer.text m.seed)
  return .success s!"Peer ID: {peer.text}"

def parseUris (uris : List String) : Except CommandError (List Address) :=
  uris.mapM fun uri => (Address.parse uri).mapError (.badAddress uri)

/-- Announces addresses of this peer, by default those of the configuration. -/
def hello (uris : List String) (ttl : Option UInt64) : Step Report := do
  let config := (← get).config
  let secret := PeerSecret.mk (← readKeyFile .peer config.keyFilePath (.noPeerKey config.keyFilePath))
  let addresses ← lift id (parseUris (if uris.isEmpty then config.addresses else uris))
  if addresses.isEmpty then return .warning "No addresses to advertise"
  let span := Span.ofSeconds (ttl.getD config.helloTtl).toNat
  let h ← lift .block ((Hello.makeFor m.now (secret.peerId C) addresses span).sign C secret)
  if !Handler.hello.storable C m.now (.hello h) then throw .helloRefused
  putBlock (.plain ⟨h.routingKey, .hello, .none⟩) (.hello h)
  return .success s!"{h.url}\n{Hex.encode h.bytes}"

def parseHello (url : String) (strict : Bool) : Step Report := do
  let h ← lift .block (Hello.parseUrl m.now strict url)
  let valid ← lift .block (h.verify C)
  let text := formatHello m.color h valid
  return if valid then .info text else .warning text

def zoneKeygen (out : String) : Step Report := do
  if (← get).files.has out then return .warning s!"{out} already exists"
  let zone := (ZoneSecret.mk m.seed).zone C
  writeFile out (KeyFile.zone.write zone.text m.seed)
  return .success s!"Zone: {zone.text}"

def gnsPublish (zoneFile label value : String) (ttl : UInt64) : Step Report := do
  let secret := ZoneSecret.mk (← readKeyFile .zone zoneFile (.noZoneKey zoneFile))
  let expiration := m.now.add (.ofSeconds ttl.toNat)
  let b ← lift .block (NameBlock.publishRecords C secret label ⟨[.txt value expiration]⟩)
  if !Handler.name.storable C m.now (.name b) then throw .publicationRefused
  let q ← lift .block (NameQuery.make C (secret.zone C) label)
  putBlock (.name q) (.name b)
  return .success s!"Published 1 record(s) under '{label}' at key {q.key.text}"

def entryRecords (q : NameQuery) (e : Entry) : Except CommandError RecordSet := do
  match ← (Registry.standard.parseBlock e.kind e.data).mapError .block with
  | .name b =>
    let plaintext ← (Verification.start.decrypt C q b).1.mapError .block
    (RecordSet.decode plaintext).mapError .records
  | _ => throw .notNameBlock

def gnsLookup (zoneText label : String) : Step Report := do
  let zone ← lift .crypto (ZoneKey.ofText zoneText)
  let q ← lift .block (NameQuery.make C zone label)
  let store ← openStore
  match store.get m.now (.name q) with
  | .error .notFound => return .warning s!"No records for '{label}'"
  | .error .expired => return .warning s!"Records for '{label}' have expired"
  | .error fault => throw (.store fault)
  | .ok e =>
    let records ← lift id (entryRecords C q e)
    return .info ("\n".intercalate (records.records.map (formatRecord m.color)))

def listRow (store : Store) (key : Digest) : Except StoreError (List String) :=
  let name := Text.abbreviate key.text 24
  match store.get m.now (.plain ⟨key, .any, .none⟩) with
  | .ok e => .ok [name, e.kind.text, Text.DataSize.text e.data.length, e.expiration.text]
  | .error .expired => .ok [name, "-", "-", "expired"]
  | .error fault => .error fault

def storeList : Step Report := do
  let store ← openStore
  if store.keys.isEmpty then return .info "Store is empty"
  let rows ← lift .store (store.keys.mapM (listRow m store))
  return .info (formatTable m.color ["Key", "Type", "Size", "Expires"] rows [24, 16, 10, 24])

def run : Command → Step Report
  | .keygen force => keygen C m force
  | .hello uris ttl => hello C m uris ttl
  | .parseHello url strict => parseHello C m url strict
  | .zoneKeygen out => zoneKeygen C m out
  | .gnsPublish zone label value ttl => gnsPublish C m zone label value ttl
  | .gnsLookup zone label => gnsLookup C m zone label
  | .storeList => storeList m

def perform (c : Command) (s : Session) : Except CommandError Report × Session :=
  (run C m c).run.run s

end Session
end Overlay.Cli
