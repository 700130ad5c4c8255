import Overlay.Proofs.Cli.Stored
import Overlay.Proofs.Files.Detour
import Overlay.Proofs.Store.Residents

/-! What commands leave as it is. A command that does not succeed changes no file but those that
the store keeps for itself, and nothing that is stored. One that publishes changes the store under
one key. New key files are put in place of no others, as far as their paths can be followed. -/
namespace Overlay.Cli

namespace Command

/-- Whether a command stores a block when it succeeds. -/
def Publishes : Command → Prop
  | .hello .. | .gnsPublish .. => True
  | _ => False

/-- The path at which a command makes a key file that is not to replace another file. -/
def newFile? (config : Config) : Command → Option String
  | .keygen false => some config.keyFilePath
  | .zoneKeygen out => some out
  | _ => none

end Command

namespace Session
variable {C : Curve} {OnCurve : C.Point → Prop} {m : Moment} {s s' : Session} {t : Files}
  {config : Config} {path text : String} {place : Place} {content : Bytes}

theorem named_writeText (named : t.Named) (path text : String) :
    (writeText t path text).2.Named := by
  rcases writeText_cases t path text with ⟨fault, failed⟩ | ⟨t', written, done⟩
  · rw [failed]
    exact named.makeParent path
  · rw [done]
    exact (named.makeParent path).write written

theorem keepsDirectories_writeText (t : Files) (path text : String) :
    Files.KeepsDirectories t (writeText t path text).2 := by
  rcases writeText_cases t path text with ⟨fault, failed⟩ | ⟨t', written, done⟩
  · rw [failed]
    exact .makeParent t path
  · rw [done]
    exact (Files.KeepsDirectories.makeParent t path).trans (.write written)

theorem spares_writeText_of_ne (elsewhere : t.destination path ≠ place) :
    Files.Spares place t (writeText t path text).2 := by
  have made : Files.Spares place t (t.makeParent path).2 := .makeParent t path
  rcases writeText_cases t path text with ⟨fault, failed⟩ | ⟨t', written, done⟩
  · rw [failed]
    exact made
  · rw [done]
    rw [← Files.destination_congr made.working] at elsewhere
    exact made.trans (.write written elsewhere)

/-- A text that is not written leaves no more than new directories. -/
theorem spares_writeText {fault : CommandError} (failed : (writeText t path text).1 = .error fault)
    (place : Place) : Files.Spares place t (writeText t path text).2 := by
  rcases writeText_cases t path text with ⟨_, done⟩ | ⟨t', written, done⟩
  · rw [done]
    exact .makeParent t path
  · rw [done] at failed
    contradiction

/-- A text that is written where there seems to be nothing replaces a file only at the end of a
detour. -/
theorem writeText_new (absent : t.has path = false)
    (held : t.node? place = some (.file content)) :
    (writeText t path text).2.node? place = some (.file content) ∨
      place = t.destination path ∧ t.IsDetour path := by
  have made (place : Place) : Files.Spares place t (t.makeParent path).2 := .makeParent t path
  by_cases same : t.destination path = place
  · subst same
    rcases writeText_cases t path text with ⟨fault, failed⟩ | ⟨t', written, done⟩
    · rw [failed]
      exact .inl ((made _).left content held)
    · exact .inr ⟨rfl, Files.isDetour_of_write made written absent held⟩
  · exact .inl ((spares_writeText_of_ne same).left content held)

namespace Plan

/-- A plan that does not succeed leaves what is stored. -/
theorem frame_of_failure (named : s.files.Named) (plan : Plan)
    (failed : ∀ text, (plan.carryOut.run.run s).1 ≠ .ok (.success text)) :
    LeavesFiles s (plan.carryOut.run.run s).2 ∧
      (plan.carryOut.run.run s).2.contents = s.contents := by
  have opened := openStore_frame named
  cases plan with
  | answer outcome =>
    rw [run_answer]
    exact ⟨.refl named, rfl⟩
  | write path content text =>
    rw [run_write] at failed ⊢
    cases written : (writeText s.files path content).1 with
    | ok _ =>
      rw [written] at failed
      exact absurd rfl (failed text)
    | error fault =>
      have spares := spares_writeText written
      have within := (StoreDirectory.StaysWithin.refl s.config.storePath s.files).after
        (keepsDirectories_writeText s.files path content) fun place _ => spares place
      refine ⟨.of_spares rfl (named_writeText named path content) spares, ?_⟩
      rw [contents, contents]
      dsimp only
      rw [within.tree_eq]
  | look report =>
    rw [run_look_snd]
    exact ⟨opened.1, opened.2.1⟩
  | deposit q b text =>
    rw [run_deposit] at failed ⊢
    revert opened failed
    rcases openStore.run.run s with ⟨_ | store, s'⟩
    · exact fun opened _ => ⟨opened.1, opened.2.1⟩
    · exact fun _ failed => absurd rfl (failed text)

/-- A block that is put into the store is put there and nowhere else. -/
theorem frame_of_deposit (named : s.files.Named) {q : Query} {b : Block} {text said : String}
    (done : ((deposit q b text).carryOut.run.run s).1 = .ok (.success said)) :
    LeavesFiles s ((deposit q b text).carryOut.run.run s).2 ∧
      ((deposit q b text).carryOut.run.run s).2.store = some (s.contents.put q (.ofBlock b)) := by
  have opened := openStore_frame named
  rw [run_deposit] at done ⊢
  revert opened done
  rcases openStore.run.run s with ⟨_ | store, s'⟩
  · exact nofun
  · intro _ ⟨leaves, _, found⟩
    refine ⟨.intro leaves.config leaves.working leaves.named leaves.left leaves.fresh, ?_⟩
    rw [← found store rfl]

end Plan

theorem named_perform (named : s.files.Named) (c : Command) :
    (perform C m c s).2.files.Named := by
  have opened := (openStore_frame named).1.named
  rw [perform_eq]
  cases plan C m s c with
  | answer outcome => rwa [Plan.run_answer]
  | write path content text =>
    rw [Plan.run_write]
    exact named_writeText named path content
  | look report => rwa [Plan.run_look_snd]
  | deposit q b text => rwa [Plan.files_deposit]

theorem named_performAll (named : s.files.Named) (turns : List (Moment × Command)) :
    (performAll C s turns).files.Named :=
  performAll_keeps (I := fun s => s.files.Named) (fun _ c _ named => named_perform named c) turns
    named

/-- A command that publishes succeeds by putting a block into the store. -/
theorem plan_eq_deposit {c : Command} (publishes : c.Publishes)
    (done : (perform C m c s).1 = .ok (.success text)) :
    ∃ q b said, plan C m s c = .deposit q b said := by
  rw [perform_eq] at done
  revert done
  cases c with
  | hello uris ttl =>
    rw [plan]
    cases announcement C m s uris ttl with
    | error fault =>
      dsimp only [Plan.ofExcept]
      rw [Plan.run_answer]
      intro done
      cases done
    | ok found =>
      cases found with
      | none =>
        dsimp only [Plan.ofExcept, helloPlan]
        rw [Plan.run_answer]
        intro done
        cases done
      | some h => exact fun _ => ⟨_, _, _, rfl⟩
  | gnsPublish zoneFile label value ttl =>
    rw [plan]
    cases publication C m s zoneFile label value ttl with
    | error fault =>
      dsimp only [Plan.ofExcept]
      rw [Plan.run_answer]
      intro done
      cases done
    | ok published => exact fun _ => ⟨_, _, _, rfl⟩
  | _ => contradiction

/-- A command that makes a new file either says that there is one or writes one where there seems
to be none. -/
theorem plan_of_newFile? {c : Command} (new : c.newFile? s.config = some path) :
    (∃ outcome, plan C m s c = .answer outcome) ∨
      s.files.has path = false ∧ ∃ content text, plan C m s c = .write path content text := by
  cases c with
  | keygen force =>
    cases force with
    | true => contradiction
    | false =>
      obtain rfl := Option.some.inj new
      rw [plan, keygenPlan]
      cases has : s.files.has s.config.keyFilePath with
      | true => exact .inl ⟨_, rfl⟩
      | false => exact .inr ⟨rfl, _, _, rfl⟩
  | zoneKeygen out =>
    obtain rfl := Option.some.inj new
    rw [plan, zoneKeygenPlan]
    cases has : s.files.has out with
    | true => exact .inl ⟨_, rfl⟩
    | false => exact .inr ⟨rfl, _, _, rfl⟩
  | _ => contradiction

/-- A command that does not succeed leaves all files, apart from those of a store on disk that is
used for the first time, and all that is stored. One that publishes leaves all such files too; it
changes the store under one key, where the entry belongs. A command that makes a new key file
leaves every file, unless the path misses a directory and goes up again. -/
theorem perform_frame (lawful : C.Lawful OnCurve) (m : Moment) (s : Session)
    (named : s.files.Named) (c : Command) :
    ((∀ text, (perform C m c s).1 ≠ .ok (.success text)) →
      s.LeavesFiles (perform C m c s).2 ∧ (perform C m c s).2.contents = s.contents) ∧
      (∀ text, c.Publishes → (perform C m c s).1 = .ok (.success text) →
        s.LeavesFiles (perform C m c s).2 ∧ ∃ q b,
          (Entry.ofBlock b).BelongsUnder C .standard q.key b ∧
          (perform C m c s).2.contents = s.contents.put q (.ofBlock b) ∧
          ∀ key ≠ q.key, (perform C m c s).2.contents.under? key = s.contents.under? key) ∧
      (∀ path, c.newFile? s.config = some path → ∀ place content,
        s.files.node? place = some (.file content) →
          (perform C m c s).2.files.node? place = some (.file content) ∨
            place = s.files.destination path ∧ s.files.IsDetour path) := by
  refine ⟨?failed, ?published, ?new⟩
  case failed =>
    rw [perform_eq]
    exact Plan.frame_of_failure named _
  case published =>
    intro text publishes done
    obtain ⟨q, b, said, planned⟩ := plan_eq_deposit publishes done
    have sound := sound_plan lawful m s c
    rw [planned] at sound
    rw [perform_eq, planned] at done ⊢
    obtain ⟨leaves, store⟩ := Plan.frame_of_deposit named done
    have after : ((Plan.deposit q b said).carryOut.run.run s).2.contents =
        s.contents.put q (.ofBlock b) := by rw [contents, store, Option.getD_some]
    refine ⟨leaves, q, b, sound, after, fun key other => ?_⟩
    rw [after]
    exact s.contents.under?_put_other _ other
  case new =>
    intro path new place content held
    rw [perform_eq]
    rcases plan_of_newFile? (C := C) (m := m) new with ⟨outcome, planned⟩ | ⟨absent, _, _, planned⟩
    · rw [planned, Plan.run_answer]
      exact .inl held
    · rw [planned, Plan.run_write]
      exact writeText_new absent held

theorem named_zoneFiles : zoneFiles.Named := by
  have bare : (Files.bare ["home"]).Named := ⟨by decide, by decide, trivial, trivial⟩
  have key : Node.Named (.file (Text.utf8 (KeyFile.zone.write "" (.zero 32)))) := trivial
  exact bare.set key (by decide)

/-- An announcement without a key for it, a publication, and a secret for the peer, with the key
file of a zone in the working directory. -/
theorem perform_frame_zone :
    let key := Text.utf8 (KeyFile.zone.write "" (.zero 32))
    let files := (Files.bare ["home"]).set ["home", "zone.json"] (.file key)
    let s := start .standard files
    let m : Moment := ⟨.ofMicros 1000000, .zero 32, false⟩
    let publish := Command.gnsPublish "zone.json" "www" "hello" 60
    ed25519.Lawful Ed25519.Point.OnCurve ∧ files.Named ∧
      (∀ text, (perform ed25519 m (.hello [] none) s).1 ≠ .ok (.success text)) ∧
      (perform ed25519 m (.hello [] none) s).2.contents = s.contents ∧
      (∃ text, (perform ed25519 m publish s).1 = .ok (.success text)) ∧
      (∃ q b, (perform ed25519 m publish s).2.contents = s.contents.put q (.ofBlock b)) ∧
      (perform ed25519 m (.keygen false) s).2.files.node? ["home", "zone.json"] =
        some (.file key) := by
  intro key files s m publish
  have named : files.Named := named_zoneFiles
  have opened : (openStore.run.run s).1 = .ok (.disk .empty) := by decide +kernel
  have held : files.node? ["home", "zone.json"] = some (.file key) := by decide +kernel
  have refused : (perform ed25519 m (.hello [] none) s).1 =
      .error (.noPeerKey "data/peer.json" .notFound) := by decide +kernel
  have failed (text : String) : (perform ed25519 m (.hello [] none) s).1 ≠ .ok (.success text) := by
    rw [refused]
    nofun
  obtain ⟨left, -, -⟩ := perform_frame ed25519_lawful m s named (.hello [] none)
  obtain ⟨-, published, -⟩ := perform_frame ed25519_lawful m s named publish
  obtain ⟨-, -, new⟩ := perform_frame ed25519_lawful m s named (.keygen false)
  obtain ⟨text, said⟩ := gnsPublish_zoneFiles opened
  obtain ⟨-, q, b, -, stored, -⟩ := published text trivial said
  have straight : ¬ s.files.IsDetour s.config.keyFilePath := fun detour =>
    absurd detour.up (by decide +kernel)
  refine ⟨ed25519_lawful, named, failed, (left failed).2, ⟨text, said⟩, ⟨q, b, stored⟩, ?_⟩
  exact (new _ rfl _ _ held).resolve_right fun replaced => straight replaced.2

/-- Key files begin with a brace. -/
theorem head?_keyFile (k : KeyFile) (publicText : String) (seed : Octets 32) :
    (k.write publicText seed).toList.head? = some '\x7b' := by
  rw [KeyFile.write, Json.writeObject, Json.block]
  simp

/-- A file is replaced at the end of a path that goes around a missing directory. The path leads
nowhere until the directory of the new file is made, and to the file from then on. -/
theorem zoneKeygen_replaces_file :
    let files := (Files.bare ["home"]).set ["home", "zone.json"] (.file (Text.utf8 "old"))
    let m : Moment := ⟨.ofMicros 1000000, .zero 32, false⟩
    let after := perform ed25519 m (.zoneKeygen "missing/../zone.json") (start .standard files)
    (∃ text, after.1 = .ok (.success text)) ∧
      files.node? ["home", "zone.json"] = some (.file (Text.utf8 "old")) ∧
      after.2.files.node? ["home", "zone.json"] ≠ some (.file (Text.utf8 "old")) := by
  intro files m after
  let path := "missing/../zone.json"
  let made := files.set ["home", "missing"] (.directory .empty)
  have absent : files.has path = false := by decide +kernel
  have parent : files.makeParent path = (.ok (), made) := by decide +kernel
  have followed : made.place path = .ok ["home", "zone.json"] := by decide +kernel
  have held : made.node? ["home", "zone.json"] = some (.file (Text.utf8 "old")) := by
    decide +kernel
  have home : made.node? ["home"] = some (.directory (.file "zone.json" (Text.utf8 "old")
      (.directory "missing" .empty .empty))) := by decide +kernel
  have ended : Path.ending path = .name := by decide +kernel
  have written (content : Bytes) :
      made.write path content = .ok (made.set ["home", "zone.json"] (.file content)) := by
    rw [Files.write, ended]
    dsimp only
    rw [followed, ok_bind, held]
    rfl
  let zone := (ZoneSecret.mk m.seed).zone ed25519
  let content := KeyFile.zone.write zone.text m.seed
  have planned : plan ed25519 m (start .standard files) (.zoneKeygen path) =
      .write path content s!"Zone: {zone.text}" := by
    rw [plan, zoneKeygenPlan]
    exact if_neg (by rw [show (start .standard files).files = files from rfl, absent]; decide)
  have done : writeText files path content =
      (.ok (), made.set ["home", "zone.json"] (.file (Text.utf8 content))) := by
    rw [writeText, parent]
    dsimp only
    rw [written]
  have performed : after = (.ok (.success s!"Zone: {zone.text}"),
      start .standard (made.set ["home", "zone.json"] (.file (Text.utf8 content)))) := by
    rw [show after = _ from perform_eq .., planned, Plan.run_write,
      show (start .standard files).files = files from rfl, done]
    rfl
  have replaced : (made.set ["home", "zone.json"] (.file (Text.utf8 content))).node?
      ["home", "zone.json"] = some (.file (Text.utf8 content)) :=
    Listing.at?_put_same ⟨_, home⟩ _ "zone.json"
  rw [performed]
  refine ⟨⟨_, rfl⟩, by decide +kernel, ?_⟩
  rw [show (start .standard (made.set _ _)).files = made.set _ _ from rfl, replaced]
  intro same
  have first : content.toList.head? = some '\x7b' := head?_keyFile .zone zone.text m.seed
  rw [Text.utf8_injective (Node.file.inj (Option.some.inj same))] at first
  exact absurd first (by decide)

end Session
end Overlay.Cli
