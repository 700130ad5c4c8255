import Overlay.Cli.Program
import Overlay.Proofs.Files.ReadBack
import Overlay.Proofs.Json.Number
import Overlay.Proofs.Json.Record
import Overlay.Proofs.Stateful

/-! A configuration is loaded as it was saved, as long as announcements last for some time. -/
namespace Overlay

theorem Backend.reads_read (b : Backend) :
    Json.Reads Backend.read (Json.quote b.text).toList b := by
  intro blanks rest blank _
  have named : Backend.named b.text rest = .ok (b, rest) := by cases b <;> rfl
  have text := Json.text_quote_append b.text rest
  rw [Json.toList_quote_append] at text ⊢
  rw [Backend.read, Json.bind_of_eq_ok (Json.skipBlanks_append blank rfl)]
  change (Json.text >>= Backend.named) _ = _
  rw [Json.bind_of_eq_ok text]
  exact named

namespace Config
variable {c : Config}

theorem reads_save (c : Config) : Json.Reads (record.read standard) c.save.toList c := by
  refine Json.Record.reads_writeObject (by decide) ?_ 0
  exact .value (Json.reads_textFor _ c.dataDir) <| .value (Json.reads_textFor _ c.keyFile) <|
    .value (Json.reads_text c.logLevel) <| .value c.backend.reads_read <|
    .value (Json.reads_word64 c.helloTtl) <| .value (Json.reads_texts 1 c.addresses) .done

theorem validate_eq_ok_iff : c.validate = .ok () ↔ c.helloTtl ≠ 0 := by
  rw [validate]
  split <;> simp [*]

theorem parse_eq_ok_iff {s : String} :
    parse s = .ok c ↔ Json.Reader.run (record.read standard) s = .ok c ∧ c.helloTtl ≠ 0 := by
  rw [parse]
  constructor
  · intro parsed
    split at parsed
    · contradiction
    · next read =>
      obtain ⟨⟨⟩, valid, returned⟩ := bind_eq_ok_iff.1 parsed
      obtain rfl := Except.ok.inj returned
      exact ⟨read, validate_eq_ok_iff.1 valid⟩
  · rintro ⟨read, positive⟩
    rw [read]
    dsimp only
    rw [validate_eq_ok_iff.2 positive]
    rfl

theorem load_save (positive : c.helloTtl ≠ 0) : load (some (Text.utf8 c.save)) = .ok c := by
  have decoded := Text.ofUtf8?_utf8 c.save
  rw [load, decoded]
  exact parse_eq_ok_iff.2 ⟨(reads_save c).run, positive⟩

theorem helloTtl_ne_zero_of_load {content : Option Bytes} (loaded : load content = .ok c) :
    c.helloTtl ≠ 0 := by
  cases content with
  | none =>
    obtain rfl := Except.ok.inj loaded
    decide
  | some content =>
    rw [load] at loaded
    split at loaded
    · contradiction
    · exact (parse_eq_ok_iff.1 loaded).2

end Config

namespace Cli.Machine
variable {files saved : Files} {path : String} {c : Config}

theorem write_of_saveConfig (done : (saveConfig path c).run.run files = (.ok (), saved)) :
    (files.makeParent path).2.write path (Text.utf8 c.save) = .ok saved := by
  have parent : (FileChange.makeParent path).run.run files = files.makeParent path := rfl
  rw [saveConfig, run_bind, run_adapt, parent] at done
  generalize files.makeParent path = made at done ⊢
  rcases made with ⟨_ | ⟨⟩, made⟩
  · cases done
  · dsimp only [Except.mapError] at done
    rw [run_adapt, FileChange.write, FileChange.run_whole] at done
    cases wrote : made.write path (Text.utf8 c.save) with
    | error fault =>
      rw [wrote] at done
      cases done
    | ok changed =>
      rw [wrote] at done
      cases done
      rfl

theorem loadConfig_of_read {content : Bytes} (read : files.read path = .ok content) :
    loadConfig files path = Config.load (some content) := by
  obtain ⟨node, found, -⟩ := bind_eq_ok_iff.1 read
  have there : files.has path = true := by
    rw [Files.has, found]
    rfl
  rw [loadConfig, if_pos there, read]
  rfl

/-- What saving a configuration leaves in a machine whose working directory is there. -/
def IsSaved (c : Config) (path : String) (saved : Files) : Prop :=
  ∃ files : Files, files.HasDirectory files.working ∧
    (saveConfig path c).run.run files = (.ok (), saved)

theorem loadConfig_of_isSaved (done : IsSaved c path saved) :
    loadConfig saved path = Config.load (some (Text.utf8 c.save)) := by
  obtain ⟨files, home, done⟩ := done
  have kept := Files.KeepsDirectories.makeParent files path
  refine loadConfig_of_read (Files.read_of_write ?_ (write_of_saveConfig done))
  rw [kept.working]
  exact kept.kept _ home

/-- Loading what is saved gives the configuration back, from the text as from a file. -/
structure SurvivesSave (c : Config) : Prop where
  text : Config.load (some (Text.utf8 c.save)) = .ok c
  file : ∀ path saved, IsSaved c path saved → loadConfig saved path = .ok c

theorem survivesSave_iff_positive :
    (∀ c : Config, SurvivesSave c ↔ c.helloTtl ≠ 0) ∧
      ∀ (content : Option Bytes) (c : Config), Config.load content = .ok c →
        c.helloTtl ≠ 0 ∧ SurvivesSave c := by
  have survives (c : Config) (positive : c.helloTtl ≠ 0) : SurvivesSave c := by
    have text := Config.load_save positive
    exact ⟨text, fun path saved done => (loadConfig_of_isSaved done).trans text⟩
  constructor
  · intro c
    exact ⟨fun survived => Config.helloTtl_ne_zero_of_load survived.text, survives c⟩
  · intro content c loaded
    have positive := Config.helloTtl_ne_zero_of_load loaded
    exact ⟨positive, survives c positive⟩

def escapedConfig : Config :=
  ⟨"a\"b", "\\\n", "\x01\x7f", .memory, 18446744073709551615, ["", "\t/\x1f"]⟩

def partialFile : Bytes := Text.utf8 "\x7b \"new\": [null], \"store\": \"memory\" \x7d"

def partialConfig : Config := { Config.standard with backend := .memory }

theorem survivesSave_iff_positive_escaped :
    let saved (c : Config) := ((saveConfig "etc/node.json" c).run.run (.bare ["srv"])).2
    loadConfig (saved escapedConfig) "etc/node.json" = .ok escapedConfig ∧
      Config.load (some partialFile) = .ok partialConfig ∧
      loadConfig (saved partialConfig) "etc/node.json" = .ok partialConfig := by
  intro saved
  have home : (Files.bare ["srv"]).HasDirectory ["srv"] := ⟨.empty, by decide +kernel⟩
  have escaped : IsSaved escapedConfig "etc/node.json" (saved escapedConfig) :=
    ⟨.bare ["srv"], home, Prod.ext (by decide +kernel) rfl⟩
  have defaults : IsSaved partialConfig "etc/node.json" (saved partialConfig) :=
    ⟨.bare ["srv"], home, Prod.ext (by decide +kernel) rfl⟩
  have loaded : Config.load (some partialFile) = .ok partialConfig := by decide +kernel
  exact ⟨((survivesSave_iff_positive.1 _).2 (by decide)).file _ _ escaped, loaded,
    (survivesSave_iff_positive.2 _ _ loaded).2.file _ _ defaults⟩

end Cli.Machine
end Overlay
