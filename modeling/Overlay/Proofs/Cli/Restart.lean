import Overlay.Proofs.Cli.Frame

/-! What a session has stored on disk is what the next one finds there, whatever else has been done
with files, as long as none is put in place of the log. -/
namespace Overlay.Cli

def Command.file? (config : Config) : Command → Option String
  | .keygen _ => some config.keyFilePath
  | .zoneKeygen out => some out
  | _ => none

namespace Session
variable {C : Curve} {m : Moment} {s : Session} {t : Files} {path : String}

/-- The log on disk, with what it has gained, is one of what is stored. -/
structure Recorded (s : Session) : Prop where
  disk : s.config.backend = .disk
  named : s.files.Named
  home : s.files.HasDirectory s.files.working
  unused : s.store = none → s.growth.bytes = [] ∧
    StoreDirectory.LogIs Log.IsWhole s.config.storePath s.files
  used : ∀ store, s.store = some store → ∃ tree old, store = .disk tree ∧
    s.files.read (StoreDirectory.logPath s.config.storePath) = .ok old ∧
    s.growth.Extends old tree

theorem recorded_start {config : Config} (disk : config.backend = .disk)
    (ready : StoreDirectory.Ready config.storePath t) : (start config t).Recorded where
  disk := disk
  named := ready.named
  home := ready.home
  unused _ := ⟨rfl, ready.whole⟩
  used := nofun

/-- A working directory without a store. -/
theorem recorded_zoneFiles : (start .standard zoneFiles).Recorded := by
  have home : zoneFiles.HasDirectory ["home"] :=
    ⟨.file "zone.json" (Text.utf8 (KeyFile.zone.write "" (.zero 32))) .empty, by decide +kernel⟩
  have absent : zoneFiles.node? (zoneFiles.destination
      (StoreDirectory.logPath Config.standard.storePath)) = none := by decide +kernel
  exact recorded_start rfl ⟨named_zoneFiles, home, .of_absent absent⟩

theorem length_encode_ofBlock_le (b : Block) :
    (Entry.ofBlock b).encode.length ≤ b.bytes.length + 91 := by
  rw [Entry.encode, Entry.ofBlock]
  cases b.filterKey with
  | none =>
    simp only [Option.map_none, Entry.encodeData, List.length_append, LittleEndian.length_encode,
      List.length_singleton]
    omega
  | some key =>
    simp only [Option.map_some, Entry.encodeData, List.length_append, LittleEndian.length_encode,
      List.length_cons, Octets.length_bytes]
    omega

theorem fits_pair {b : Block} (short : b.bytes.length < 1 <<< 63) (q : Query) :
    Log.Fits (DiskStore.pair q (.ofBlock b)).1 (DiskStore.pair q (.ofBlock b)).2 := by
  have value := length_encode_ofBlock_le b
  have key : q.key.bytes.length = 64 := q.key.octets.length_bytes
  have bounds : 1 <<< 63 + 200 < UInt64.size := by decide
  refine Log.fits_of_lt ?_
  dsimp only [DiskStore.pair]
  omega

/-- A plan that writes no file in place of the log, and stores no block that is too long for it. -/
def Plan.Recordable (s : Session) : Plan → Prop
  | .write path _ _ => s.files.destination path ≠ s.logPlace
  | .deposit _ b _ => b.bytes.length < 1 <<< 63
  | _ => True

theorem length_bytes_of_publication {zoneFile label value : String} {ttl : UInt64} {q : NameQuery}
    {b : NameBlock} (done : publication C m s zoneFile label value ttl = .ok (q, b)) :
    b.bytes.length < 1 <<< 63 := by
  obtain ⟨seed, plaintext, -, written, published, -, -⟩ := publication_eq_ok done
  have sized := published.sized (RecordSet.length_encode_txt written)
  have most : UInt32.size + 100 < 1 <<< 63 := by decide
  rw [NameBlock.bytes, List.length_append, ZoneSignature.length_bytes, NameBlock.length_signedData]
  omega

/-- What commands come to can be recorded, apart from key files in place of the log and
announcements that no memory has room for. -/
theorem recordable_plan {c : Command}
    (elsewhere : ∀ path, c.file? s.config = some path → s.files.destination path ≠ s.logPlace)
    (short : ∀ uris ttl h, c = .hello uris ttl →
      announcement C m s uris ttl = .ok (some h) → h.bytes.length < 1 <<< 63) :
    (plan C m s c).Recordable s := by
  cases c with
  | keygen force =>
    rw [plan, keygenPlan]
    split
    · trivial
    · exact elsewhere _ rfl
  | hello uris ttl =>
    rw [plan]
    cases done : announcement C m s uris ttl with
    | error fault => trivial
    | ok found =>
      cases found with
      | none => trivial
      | some h => exact short uris ttl h rfl done
  | parseHello url strict => trivial
  | zoneKeygen out =>
    rw [plan, zoneKeygenPlan]
    split
    · trivial
    · exact elsewhere _ rfl
  | gnsPublish zoneFile label value ttl =>
    rw [plan]
    cases done : publication C m s zoneFile label value ttl with
    | error fault => trivial
    | ok published => exact length_bytes_of_publication done
  | gnsLookup zoneText label =>
    rw [plan]
    cases lookupQuery C zoneText label <;> trivial
  | storeList => trivial

namespace Recorded

theorem ready (recorded : s.Recorded) (unused : s.store = none) :
    StoreDirectory.Ready s.config.storePath s.files :=
  ⟨recorded.named, recorded.home, (recorded.unused unused).2⟩

/-- Without a store, nothing but the files counts. -/
theorem of_ready (recorded : s.Recorded) (unused : s.store = none)
    (ready : StoreDirectory.Ready s.config.storePath t) : Recorded { s with files := t } where
  disk := recorded.disk
  named := ready.named
  home := ready.home
  unused _ := ⟨(recorded.unused unused).1, ready.whole⟩
  used _ held := absurd (unused.symm.trans held) nofun

theorem openStore (recorded : s.Recorded) : (openStore.run.run s).2.Recorded := by
  cases held : s.store with
  | some store => rwa [run_openStore_of_some held]
  | none =>
    have made := (recorded.ready held).of_staysWithin
      (recorded.named.makeDirectory s.config.dataDir)
      ((StoreDirectory.StaysWithin.refl _ s.files).after (.makeDirectory _ s.config.dataDir)
        fun _ _ => .makeDirectory s.files s.config.dataDir)
    rw [run_openStore_of_none held]
    rcases discover_cases s.config s.files with
      ⟨fault, done⟩ | ⟨memory, -⟩ | ⟨-, result, files, run, done⟩
    · rw [done]
      exact recorded.of_ready held made
    · exact absurd (memory.symm.trans recorded.disk) nofun
    · obtain ⟨ready, found⟩ := StoreDirectory.load_log made
      rw [run] at ready found
      rw [done]
      cases result with
      | error fault => exact recorded.of_ready held ready
      | ok result =>
        obtain ⟨content, whole, read, rfl⟩ := found _ rfl
        refine ⟨recorded.disk, ready.named, ready.home, nofun, fun store opened => ?_⟩
        cases opened
        exact ⟨_, content, rfl, read, Log.Growth.extends_resume whole⟩

theorem writeText (recorded : s.Recorded) (elsewhere : s.files.destination path ≠ s.logPlace)
    (text : String) : Recorded { s with files := (writeText s.files path text).2 } := by
  have keeps := keepsDirectories_writeText s.files path text
  have spares : Files.Spares s.logPlace s.files (Session.writeText s.files path text).2 :=
    spares_writeText_of_ne elsewhere
  refine ⟨recorded.disk, named_writeText recorded.named path text, keeps.home recorded.home,
    fun unused => ?_, fun store held => ?_⟩
  · obtain ⟨nothing, whole⟩ := recorded.unused unused
    exact ⟨nothing, whole.of_bringsNothing spares.toBringsNothing⟩
  · obtain ⟨tree, old, same, read, grown⟩ := recorded.used store held
    exact ⟨tree, old, same, Files.read_of_keepsDirectories keeps (spares.left old) read, grown⟩

theorem carryOut {plan : Plan} (recorded : s.Recorded) (recordable : plan.Recordable s) :
    (plan.carryOut.run.run s).2.Recorded := by
  cases plan with
  | answer outcome => rwa [Plan.run_answer]
  | write path content text =>
    rw [Plan.run_write]
    exact recorded.writeText recordable content
  | look report =>
    rw [Plan.run_look_snd]
    exact recorded.openStore
  | deposit q b text =>
    have after := recorded.openStore
    have opened := @store_of_openStore s
    rw [Plan.run_deposit]
    revert after opened
    rcases Session.openStore.run.run s with ⟨_ | store, s'⟩
    · exact fun after _ => after
    · intro after opened
      obtain ⟨tree, old, rfl, read, grown⟩ := after.used store (opened rfl)
      refine ⟨after.disk, after.named, after.home, nofun, fun other held => ?_⟩
      cases held
      exact ⟨_, old, rfl, read, grown.set (fits_pair recordable q)⟩

end Recorded

/-- Every command does what can be recorded, in the session that the ones before it lead to. -/
def AllRecordable (C : Curve) : Session → List (Moment × Command) → Prop
  | _, [] => True
  | s, turn :: turns => (plan C turn.1 s turn.2).Recordable s ∧
      AllRecordable C (perform C turn.1 turn.2 s).2 turns

theorem recorded_performAll {turns : List (Moment × Command)} (recorded : s.Recorded)
    (recordable : AllRecordable C s turns) : (performAll C s turns).Recorded := by
  induction turns generalizing s with
  | nil => exact recorded
  | cons turn turns ih =>
    have performed := recorded.carryOut recordable.1
    rw [← perform_eq] at performed
    exact ih performed recordable.2

/-- What a session has stored is in the log that it leaves behind. -/
theorem Recorded.close (recorded : s.Recorded) :
    s.close.Recorded ∧ s.close.contents = s.contents := by
  have named : s.close.files.Named :=
    StoreDirectory.named_save recorded.named s.config.storePath s.growth
  have home : s.close.files.HasDirectory s.close.files.working :=
    (StoreDirectory.keepsDirectories_save _ s.growth s.files).home recorded.home
  have contents : s.close.contents =
      .disk (StoreDirectory.tree s.config.storePath s.close.files) :=
    congrArg (Store.ofBackend _) recorded.disk
  cases held : s.store with
  | none =>
    have nothing := (recorded.unused held).1
    have same : s.close.files = s.files := StoreDirectory.save_of_nothing nothing
    refine ⟨recorded_start (t := s.close.files) recorded.disk ⟨named, home, ?_⟩, ?_⟩
    · rw [same]
      exact (recorded.unused held).2
    · rw [contents, same, Session.contents, held, recorded.disk]
      rfl
  | some store =>
    obtain ⟨tree, old, rfl, read, grown⟩ := recorded.used store held
    have saved := Files.node?_of_read (StoreDirectory.read_save recorded.home read grown.inside)
    refine ⟨recorded_start (t := s.close.files) recorded.disk
      ⟨named, home, fun content found => ?_⟩, ?_⟩
    · cases found.symm.trans saved
      exact grown.holds_patch.isWhole
    · rw [contents, Session.contents, held, Option.getD_some]
      exact congrArg Store.disk
        ((StoreDirectory.tree_of_node? saved).trans grown.holds_patch.tree_eq)

/-- A process that finds a store finds what the one before it has stored, in as many commands as
there were. The session that it starts with can be recorded in turn. -/
theorem restart_contents {turns : List (Moment × Command)} (recorded : s.Recorded)
    (recordable : AllRecordable C s turns) :
    let last := performAll C s turns
    last.close.Recorded ∧ last.close.contents = last.contents ∧
      ∀ store, (openStore.run.run last.close).1 = .ok store → store = last.contents := by
  intro last
  obtain ⟨next, same⟩ := (recorded_performAll recorded recordable).close
  refine ⟨next, same, fun store opened => ?_⟩
  rw [← same]
  exact (openStore_frame next.named).2.2 store opened

/-- What was published in one process is shown by lookups in the next one, as long as nothing else
has been put under its routing key. -/
theorem restart_gnsLookup (lawful : C.Lawful OnCurve) {zoneFile label value text : String}
    {ttl : UInt64} (recorded : s.Recorded)
    (done : (perform C m (.gnsPublish zoneFile label value ttl) s).1 = .ok (.success text)) :
    let expiration := m.now.add (.ofSeconds ttl.toNat)
    let published := (perform C m (.gnsPublish zoneFile label value ttl) s).2
    ∃ content seed derived, s.files.readText zoneFile = .ok content ∧
      KeyFile.zone.parse content = .ok seed ∧
      ((ZoneSecret.mk seed).zone C).derive C label "gns" = .ok derived ∧
      ∀ turns, Spares C ⟨Sha512.hash derived.bytes⟩ published turns →
        AllRecordable C published turns →
        let next := (performAll C published turns).close
        ∀ store, (openStore.run.run next).1 = .ok store →
          next.Shows C ((ZoneSecret.mk seed).zone C) label [.txt value expiration] expiration := by
  intro expiration published
  obtain ⟨content, seed, derived, e, found, parsed, made, stored, shows⟩ :=
    shows_of_gnsPublish lawful done
  refine ⟨content, seed, derived, found, parsed, made, fun turns spares recordable => ?_⟩
  intro next store opened
  have planned : (plan C m s (.gnsPublish zoneFile label value ttl)).Recordable s :=
    recordable_plan nofun nofun
  have went : published.Recorded := by
    rw [show published = _ from congrArg Prod.snd (perform_eq ..)]
    exact recorded.carryOut planned
  obtain ⟨-, -, same⟩ := restart_contents went recordable
  obtain ⟨left, held, has⟩ := stored.performAll spares
  refine shows next store opened ?_
  rw [same store opened, contents, held]
  exact has

end Session
end Overlay.Cli
