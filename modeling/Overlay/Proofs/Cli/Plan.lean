import Overlay.Cli.Session
import Overlay.Proofs.Except
import Overlay.Proofs.Stateful

/-! What a command comes to, once everything that it reads from the session is known: an answer,
a file that is written, a look into the store, or a block that is put there. Only the last one
changes what is stored. -/
namespace Overlay.Cli.Session

theorem run_lift {ε α : Type} (wrap : ε → CommandError) (result : Except ε α) (s : Session) :
    (lift wrap result).run.run s = (result.mapError wrap, s) := by
  cases result <;> rfl

theorem run_lift_bind {ε α β : Type} (wrap : ε → CommandError) (result : Except ε α)
    (next : α → Step β) (s : Session) :
    (lift wrap result >>= next).run.run s =
      match result with
      | .ok a => (next a).run.run s
      | .error fault => (.error (wrap fault), s) := by
  rw [run_bind, run_lift]
  cases result <;> rfl

def seedAt (t : Files) (k : KeyFile) (path : String) (wrap : FileFault → CommandError) :
    Except CommandError (Octets 32) := do
  let content ← (t.readText path).mapError wrap
  (k.parse content).mapError .keySyntax

theorem run_readKeyFile (k : KeyFile) (path : String) (wrap : FileFault → CommandError)
    (s : Session) : (readKeyFile k path wrap).run.run s = (seedAt s.files k path wrap, s) := by
  rw [readKeyFile, run_get_bind, run_lift_bind, seedAt]
  cases s.files.readText path with
  | error fault => rfl
  | ok content => exact run_lift ..

/-- The effect of a command. -/
inductive Plan where
  | answer (outcome : Except CommandError Report)
  | write (path content text : String)
  | look (report : Store → Except CommandError Report)
  | deposit (q : Query) (b : Block) (text : String)

namespace Plan

def carryOut : Plan → Step Report
  | answer outcome => lift id outcome
  | write path content text => do
    writeFile path content
    return .success text
  | look report => do lift id (report (← openStore))
  | deposit q b text => do
    putBlock q b
    return .success text

def ofExcept {α : Type} (plan : α → Plan) : Except CommandError α → Plan
  | .ok a => plan a
  | .error fault => .answer (.error fault)

theorem run_answer (outcome : Except CommandError Report) (s : Session) :
    (answer outcome).carryOut.run.run s = (outcome, s) := by
  rw [carryOut, run_lift]
  cases outcome <;> rfl

end Plan

variable (C : Curve) (m : Moment)

def keygenPlan (s : Session) (force : Bool) : Plan :=
  let path := s.config.keyFilePath
  let peer := (PeerSecret.mk m.seed).peerId C
  if s.files.has path && !force then
    .answer (.ok (.warning s!"Key file {path} already exists (use --force to overwrite)"))
  else .write path (KeyFile.peer.write peer.text m.seed) s!"Peer ID: {peer.text}"

def announcement (s : Session) (uris : List String) (ttl : Option UInt64) :
    Except CommandError (Option Hello) := do
  let path := s.config.keyFilePath
  let secret := PeerSecret.mk (← seedAt s.files .peer path (.noPeerKey path))
  let addresses ← parseUris (if uris.isEmpty then s.config.addresses else uris)
  if addresses.isEmpty then return none
  let span := Span.ofSeconds (ttl.getD s.config.helloTtl).toNat
  let h ← ((Hello.makeFor m.now (secret.peerId C) addresses span).sign C secret).mapError .block
  if Handler.hello.storable C m.now (.hello h) then return some h else throw .helloRefused

def helloPlan : Option Hello → Plan
  | none => .answer (.ok (.warning "No addresses to advertise"))
  | some h =>
    .deposit (.plain ⟨h.routingKey, .hello, .none⟩) (.hello h) s!"{h.url}\n{Hex.encode h.bytes}"

def description (url : String) (strict : Bool) : Except CommandError Report := do
  let h ← (Hello.parseUrl m.now strict url).mapError .block
  let valid ← (h.verify C).mapError .block
  let text := formatHello m.color h valid
  return if valid then .info text else .warning text

def zoneKeygenPlan (s : Session) (out : String) : Plan :=
  let zone := (ZoneSecret.mk m.seed).zone C
  if s.files.has out then .answer (.ok (.warning s!"{out} already exists"))
  else .write out (KeyFile.zone.write zone.text m.seed) s!"Zone: {zone.text}"

def publication (s : Session) (zoneFile label value : String) (ttl : UInt64) :
    Except CommandError (NameQuery × NameBlock) := do
  let secret := ZoneSecret.mk (← seedAt s.files .zone zoneFile (.noZoneKey zoneFile))
  let expiration := m.now.add (.ofSeconds ttl.toNat)
  let b ← (NameBlock.publishRecords C secret label ⟨[.txt value expiration]⟩).mapError .block
  if Handler.name.storable C m.now (.name b) then
    let q ← (NameQuery.make C (secret.zone C) label).mapError .block
    return (q, b)
  else throw .publicationRefused

def publicationPlan (label : String) (published : NameQuery × NameBlock) : Plan :=
  .deposit (.name published.1) (.name published.2)
    s!"Published 1 record(s) under '{label}' at key {published.1.key.text}"

def lookupQuery (zoneText label : String) : Except CommandError NameQuery := do
  let zone ← (ZoneKey.ofText zoneText).mapError .crypto
  (NameQuery.make C zone label).mapError .block

def lookupReport (label : String) (q : NameQuery) (store : Store) : Except CommandError Report :=
  match store.get m.now (.name q) with
  | .error .notFound => .ok (.warning s!"No records for '{label}'")
  | .error .expired => .ok (.warning s!"Records for '{label}' have expired")
  | .error fault => .error (.store fault)
  | .ok e => (entryRecords C q e).map fun records =>
      .info ("\n".intercalate (records.records.map (formatRecord m.color)))

def listReport (store : Store) : Except CommandError Report :=
  if store.keys.isEmpty then .ok (.info "Store is empty")
  else ((store.keys.mapM (listRow m store)).mapError .store).map fun rows =>
    .info (formatTable m.color ["Key", "Type", "Size", "Expires"] rows [24, 16, 10, 24])

/-- What a command comes to in a session. -/
def plan (s : Session) : Command → Plan
  | .keygen force => keygenPlan C m s force
  | .hello uris ttl => .ofExcept helloPlan (announcement C m s uris ttl)
  | .parseHello url strict => .answer (description C m url strict)
  | .zoneKeygen out => zoneKeygenPlan C m s out
  | .gnsPublish zoneFile label value ttl =>
    .ofExcept (publicationPlan label) (publication C m s zoneFile label value ttl)
  | .gnsLookup zoneText label =>
    .ofExcept (fun q => .look (lookupReport C m label q)) (lookupQuery C zoneText label)
  | .storeList => .look (listReport m)

variable (s : Session)

private theorem run_keygen (force : Bool) :
    (keygen C m force).run.run s = (keygenPlan C m s force).carryOut.run.run s := by
  rw [keygen, run_get_bind, keygenPlan]
  dsimp only
  split <;> rfl

private theorem run_hello (uris : List String) (ttl : Option UInt64) :
    (hello C m uris ttl).run.run s =
      (Plan.ofExcept helloPlan (announcement C m s uris ttl)).carryOut.run.run s := by
  rw [hello, run_get_bind, run_bind, run_readKeyFile, announcement]
  dsimp only
  cases seedAt s.files .peer s.config.keyFilePath (.noPeerKey s.config.keyFilePath) with
  | error fault => rfl
  | ok seed =>
    dsimp only
    rw [run_lift_bind, ok_bind]
    cases parseUris (if uris.isEmpty then s.config.addresses else uris) with
    | error fault => rfl
    | ok addresses =>
      rw [ok_bind]
      dsimp only
      split
      · rfl
      · rw [run_lift_bind]
        cases (Hello.makeFor m.now ((PeerSecret.mk seed).peerId C) addresses
            (Span.ofSeconds (ttl.getD s.config.helloTtl).toNat)).sign C ⟨seed⟩ with
        | error fault => rfl
        | ok h =>
          dsimp only [Except.mapError]
          rw [ok_bind]
          cases Handler.hello.storable C m.now (.hello h) <;> rfl

private theorem run_parseHello (url : String) (strict : Bool) :
    (parseHello C m url strict).run.run s = (description C m url strict, s) := by
  rw [parseHello, run_lift_bind, description]
  cases Hello.parseUrl m.now strict url with
  | error fault => rfl
  | ok h =>
    dsimp only [Except.mapError]
    rw [run_lift_bind, ok_bind]
    cases h.verify C with
    | error fault => rfl
    | ok valid => cases valid <;> rfl

private theorem run_zoneKeygen (out : String) :
    (zoneKeygen C m out).run.run s = (zoneKeygenPlan C m s out).carryOut.run.run s := by
  rw [zoneKeygen, run_get_bind, zoneKeygenPlan]
  dsimp only
  split <;> rfl

private theorem run_gnsPublish (zoneFile label value : String) (ttl : UInt64) :
    (gnsPublish C m zoneFile label value ttl).run.run s =
      (Plan.ofExcept (publicationPlan label)
        (publication C m s zoneFile label value ttl)).carryOut.run.run s := by
  rw [gnsPublish, run_bind, run_readKeyFile, publication]
  cases seedAt s.files .zone zoneFile (.noZoneKey zoneFile) with
  | error fault => rfl
  | ok seed =>
    dsimp only
    rw [run_lift_bind, ok_bind]
    cases NameBlock.publishRecords C ⟨seed⟩ label
        ⟨[.txt value (m.now.add (.ofSeconds ttl.toNat))]⟩ with
    | error fault => rfl
    | ok b =>
      dsimp only [Except.mapError]
      rw [ok_bind]
      cases Handler.name.storable C m.now (.name b) with
      | false => rfl
      | true =>
        rw [if_pos rfl, Bool.not_true, if_neg Bool.false_ne_true, run_lift_bind]
        cases NameQuery.make C (ZoneSecret.zone C ⟨seed⟩) label <;> rfl

private theorem run_gnsLookup (zoneText label : String) :
    (gnsLookup C m zoneText label).run.run s =
      (Plan.ofExcept (fun q => .look (lookupReport C m label q))
        (lookupQuery C zoneText label)).carryOut.run.run s := by
  rw [gnsLookup, run_lift_bind, lookupQuery]
  cases ZoneKey.ofText zoneText with
  | error fault => rfl
  | ok zone =>
    dsimp only [Except.mapError]
    rw [run_lift_bind, ok_bind]
    cases NameQuery.make C zone label with
    | error fault => rfl
    | ok q =>
      dsimp only [Plan.ofExcept, Plan.carryOut]
      rw [run_bind, run_bind]
      rcases openStore.run.run s with ⟨_ | store, s⟩
      · rfl
      · dsimp only
        rw [run_lift, lookupReport]
        cases store.get m.now (.name q) with
        | error fault => cases fault <;> rfl
        | ok e =>
          dsimp only
          rw [run_lift_bind]
          cases entryRecords C q e <;> rfl

private theorem run_storeList :
    (storeList m).run.run s = (Plan.look (listReport m)).carryOut.run.run s := by
  rw [storeList, Plan.carryOut, run_bind, run_bind]
  rcases openStore.run.run s with ⟨_ | store, s⟩
  · rfl
  · dsimp only
    rw [run_lift, listReport]
    split
    · rfl
    · rw [run_lift_bind]
      cases store.keys.mapM (listRow m store) <;> rfl

/-- A command does what its plan says. -/
theorem perform_eq (c : Command) : perform C m c s = (plan C m s c).carryOut.run.run s := by
  cases c with
  | keygen force => exact run_keygen C m s force
  | hello uris ttl => exact run_hello C m s uris ttl
  | parseHello url strict => exact (run_parseHello C m s url strict).trans (Plan.run_answer _ s).symm
  | zoneKeygen out => exact run_zoneKeygen C m s out
  | gnsPublish zoneFile label value ttl => exact run_gnsPublish C m s zoneFile label value ttl
  | gnsLookup zoneText label => exact run_gnsLookup C m s zoneText label
  | storeList => exact run_storeList m s

end Overlay.Cli.Session
