import Overlay.Proofs.Cli.Effects
import Overlay.Proofs.Store.Saving

/-! What a session finds stored when it uses its store first, and which files that touches. -/
namespace Overlay.Cli.Session
variable {s s' : Session} {t : Files} {place : Place}

/-- What is stored. A store that has not been used yet is as its files have it. -/
def contents (s : Session) : Store :=
  s.store.getD (.ofBackend (StoreDirectory.tree s.config.storePath s.files) s.config.backend)

/-- The places of the files that a store keeps beside its log. They are in use from when the store
is used first. -/
def Owns (s : Session) (place : Place) : Prop :=
  s.store = none ∧ s.config.backend = .disk ∧
    StoreDirectory.Owns s.config.storePath s.files place

def logPlace (s : Session) : Place :=
  s.files.destination (StoreDirectory.logPath s.config.storePath)

theorem files_close (s : Session) : s.close.files =
    ((StoreDirectory.save s.config.storePath s.growth).run.run s.files).2 := rfl

theorem spares_close (s : Session) (elsewhere : s.logPlace ≠ place) :
    Files.Spares place s.files s.close.files := by
  rw [files_close]
  rcases StoreDirectory.save_cases s.config.storePath s.growth s.files with same | ⟨_, written⟩
  · rw [same]
    exact .refl place s.files
  · exact .write written elsewhere

/-- A session that has been left with the files that there were, apart from those of the store. A
log that is new is empty. Other files also stay when the store is put away. -/
structure LeavesFiles (s s' : Session) : Prop where
  config : s'.config = s.config
  working : s'.files.working = s.files.working
  named : s'.files.Named
  left : ∀ place content, ¬ s.Owns place → s.files.node? place = some (.file content) →
    s'.files.node? place = some (.file content)
  fresh : ∀ place content, ¬ s.Owns place → s'.files.node? place = some (.file content) →
    s.files.node? place = some (.file content) ∨ place = s.logPlace ∧ content = []
  closed : ∀ place content, ¬ s.Owns place → place ≠ s.logPlace →
    s.files.node? place = some (.file content) → s'.close.files.node? place = some (.file content)

namespace LeavesFiles

theorem intro (config : s'.config = s.config) (working : s'.files.working = s.files.working)
    (named : s'.files.Named)
    (left : ∀ place content, ¬ s.Owns place → s.files.node? place = some (.file content) →
      s'.files.node? place = some (.file content))
    (fresh : ∀ place content, ¬ s.Owns place → s'.files.node? place = some (.file content) →
      s.files.node? place = some (.file content) ∨ place = s.logPlace ∧ content = []) :
    LeavesFiles s s' := by
  refine ⟨config, working, named, left, fresh, fun place content other elsewhere held => ?_⟩
  have log : s'.logPlace = s.logPlace := by
    rw [logPlace, logPlace, config, Files.destination_congr working]
  rw [← log] at elsewhere
  exact (s'.spares_close elsewhere.symm).left content (left place content other held)

theorem of_spares (config : s'.config = s.config) (named : s'.files.Named)
    (spares : ∀ place, Files.Spares place s.files s'.files) : LeavesFiles s s' :=
  .intro config (spares s.logPlace).working named (fun place _ _ => (spares place).left _)
    fun place _ _ found => .inl ((spares place).kept _ found)

theorem of_staysWithin (config : s'.config = s.config) (named : s'.files.Named)
    (unused : s.store = none) (disk : s.config.backend = .disk)
    (within : StoreDirectory.StaysWithin s.config.storePath s.files s'.files) :
    LeavesFiles s s' :=
  .intro config within.working named
    (fun place _ other => within.left place _ fun owned => other ⟨unused, disk, owned⟩)
    fun place _ other => within.fresh place _ fun owned => other ⟨unused, disk, owned⟩

theorem refl (named : s.files.Named) : LeavesFiles s s :=
  .of_spares rfl named fun place => .refl place s.files

end LeavesFiles

/-- Looking for a store changes no files but those of a store on disk, and finds it as its files
have it. -/
theorem discover_frame (config : Config) (named : t.Named) :
    (discover config t).2.Named ∧
      (config.backend = .memory → ∀ place, Files.Spares place t (discover config t).2) ∧
      (config.backend = .disk →
        StoreDirectory.StaysWithin config.storePath t (discover config t).2) ∧
      ∀ found, (discover config t).1 = .ok found →
        found.1 = .ofBackend (StoreDirectory.tree config.storePath t) config.backend := by
  have made (place : Place) : Files.Spares place t (t.makeDirectory config.dataDir).2 :=
    .makeDirectory t config.dataDir
  have namedThen : (t.makeDirectory config.dataDir).2.Named := named.makeDirectory config.dataDir
  have within : StoreDirectory.StaysWithin config.storePath t (t.makeDirectory config.dataDir).2 :=
    (StoreDirectory.StaysWithin.refl _ t).after (.makeDirectory t config.dataDir) fun place _ =>
      made place
  rcases discover_cases config t with
    ⟨fault, done⟩ | ⟨memory, done⟩ | ⟨disk, result, files, run, done⟩
  · rw [done]
    exact ⟨namedThen, fun _ => made, fun _ => within, nofun⟩
  · rw [done, memory]
    refine ⟨namedThen, fun _ => made, nofun, fun found same => ?_⟩
    cases same
    rfl
  · have loaded := StoreDirectory.load_staysWithin namedThen within
    rw [run] at loaded
    rw [done, disk]
    refine ⟨loaded.1, nofun, fun _ => loaded.2.1, fun found same => ?_⟩
    cases result with
    | error fault => cases same
    | ok result =>
      cases same
      rw [Store.ofBackend, ← loaded.2.2 _ rfl]

/-- Using the store changes nothing that is stored, and no files but those of the store. -/
theorem openStore_frame (named : s.files.Named) :
    LeavesFiles s (openStore.run.run s).2 ∧ (openStore.run.run s).2.contents = s.contents ∧
      ∀ store, (openStore.run.run s).1 = .ok store → store = s.contents := by
  cases held : s.store with
  | some store =>
    have contents : s.contents = store := by rw [Session.contents, held, Option.getD_some]
    rw [run_openStore_of_some held]
    refine ⟨.refl named, rfl, fun other same => ?_⟩
    cases same
    exact contents.symm
  | none =>
    have contents : s.contents =
        .ofBackend (StoreDirectory.tree s.config.storePath s.files) s.config.backend := by
      rw [Session.contents, held, Option.getD_none]
    have discovered := discover_frame s.config named
    rw [run_openStore_of_none held]
    revert discovered
    rcases discover s.config s.files with ⟨result, files⟩
    intro ⟨named, memory, disk, found⟩
    have leaves (s' : Session) (config : s'.config = s.config) (same : s'.files = files) :
        LeavesFiles s s' := by
      subst same
      cases backend : s.config.backend with
      | memory => exact .of_spares config named (memory backend)
      | disk => exact .of_staysWithin config named held backend (disk backend)
    cases result with
    | ok opened =>
      have same := (found opened rfl).trans contents.symm
      refine ⟨leaves _ rfl rfl, same, fun store opened => ?_⟩
      cases opened
      exact same
    | error fault =>
      refine ⟨leaves _ rfl rfl, ?_, nofun⟩
      rw [contents, Session.contents]
      dsimp only
      rw [held, Option.getD_none]
      cases backend : s.config.backend with
      | memory => rw [Store.ofBackend, Store.ofBackend]
      | disk => rw [Store.ofBackend, Store.ofBackend, (disk backend).tree_eq]

end Overlay.Cli.Session
