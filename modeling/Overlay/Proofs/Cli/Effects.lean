import Overlay.Proofs.Cli.Plan
import Overlay.Proofs.Files

/-! What a session is after a plan has been carried out. A store is found when it is used first;
from then on it stays the session's own, whatever becomes of the files. -/
namespace Overlay.Cli.Session
variable {s : Session} {store : Store}

theorem run_changeFiles {ε α : Type} (wrap : ε → CommandError) (change : FileChange ε α)
    (s : Session) :
    (changeFiles wrap change).run.run s =
      ((change.run.run s.files).1.mapError wrap,
        { s with files := (change.run.run s.files).2 }) := by
  rw [changeFiles, run_get_bind]
  rcases change.run.run s.files with ⟨result, files⟩
  exact run_lift wrap result _

theorem run_openStore_of_some (held : s.store = some store) :
    openStore.run.run s = (.ok store, s) := by
  rw [openStore, run_get_bind, held]
  rfl

def discover (config : Config) (t : Files) : Except CommandError (Store × Log.Growth) × Files :=
  match t.makeDirectory config.dataDir with
  | (.error fault, t) => (.error (.dataDirectory fault), t)
  | (.ok (), t) =>
    match config.backend with
    | .memory => (.ok (.memory .empty, .nothing 0), t)
    | .disk =>
      match (StoreDirectory.load config.storePath).run.run t with
      | (.error fault, t) => (.error (.store fault), t)
      | (.ok (tree, growth), t) => (.ok (.disk tree, growth), t)

theorem discover_cases (config : Config) (t : Files) :
    let made := (t.makeDirectory config.dataDir).2
    (∃ fault, discover config t = (.error fault, made)) ∨
      (config.backend = .memory ∧ discover config t = (.ok (.memory .empty, .nothing 0), made)) ∨
      (config.backend = .disk ∧ ∃ result files,
        (StoreDirectory.load config.storePath).run.run made = (result, files) ∧
        discover config t =
          ((result.mapError .store).map fun found => (.disk found.1, found.2), files)) := by
  rw [discover]
  rcases t.makeDirectory config.dataDir with ⟨_ | _, t⟩
  · exact .inl ⟨_, rfl⟩
  · dsimp only
    cases config.backend with
    | memory => exact .inr (.inl ⟨rfl, rfl⟩)
    | disk =>
      refine .inr (.inr ⟨rfl, ?_⟩)
      rcases (StoreDirectory.load config.storePath).run.run t with ⟨_ | _, files⟩
      · exact ⟨_, _, rfl, rfl⟩
      · exact ⟨_, _, rfl, rfl⟩

theorem run_openStore_of_none (unused : s.store = none) :
    openStore.run.run s =
      match discover s.config s.files with
      | (.error fault, files) => (.error fault, { s with files })
      | (.ok (store, growth), files) => (.ok store, ⟨s.config, files, some store, growth⟩) := by
  obtain ⟨config, files, store, growth⟩ := s
  subst unused
  rw [openStore, run_get_bind]
  dsimp only
  rw [run_bind, run_changeFiles, discover]
  rw [show (FileChange.makeDirectory config.dataDir).run.run files =
    files.makeDirectory config.dataDir from rfl]
  rcases files.makeDirectory config.dataDir with ⟨_ | _, files⟩
  · rfl
  · dsimp only [Except.mapError]
    rw [run_bind, findStore]
    cases config.backend with
    | memory => rfl
    | disk =>
      dsimp only
      rw [run_bind, run_changeFiles]
      rcases (StoreDirectory.load config.storePath).run.run files with
        ⟨_ | ⟨tree, growth⟩, files⟩ <;> rfl

theorem store_of_openStore (opened : (openStore.run.run s).1 = .ok store) :
    (openStore.run.run s).2.store = some store := by
  cases held : s.store with
  | some other =>
    rw [run_openStore_of_some held] at opened ⊢
    cases opened
    exact held
  | none =>
    rw [run_openStore_of_none held] at opened ⊢
    revert opened
    rcases discover s.config s.files with ⟨_ | ⟨found, growth⟩, files⟩
    · exact nofun
    · intro opened
      cases opened
      rfl

def writeText (t : Files) (path content : String) : Except CommandError Unit × Files :=
  match t.makeParent path with
  | (.error fault, t) => (.error (.file fault), t)
  | (.ok (), t) =>
    match t.write path (Text.utf8 content) with
    | .error fault => (.error (.unwritable path fault), t)
    | .ok written => (.ok (), written)

/-- Either no more than a directory is made, or a file is written in it. -/
theorem writeText_cases (t : Files) (path content : String) :
    let made := (t.makeParent path).2
    (∃ fault, writeText t path content = (.error fault, made)) ∨
      ∃ written, made.write path (Text.utf8 content) = .ok written ∧
        writeText t path content = (.ok (), written) := by
  rw [writeText]
  rcases t.makeParent path with ⟨_ | _, t⟩
  · exact .inl ⟨_, rfl⟩
  · dsimp only
    cases t.write path (Text.utf8 content) with
    | error fault => exact .inl ⟨_, rfl⟩
    | ok written => exact .inr ⟨_, rfl, rfl⟩

namespace Plan
variable (s : Session)

theorem run_look (report : Store → Except CommandError Report) :
    (look report).carryOut.run.run s =
      match openStore.run.run s with
      | (.ok store, s) => (report store, s)
      | (.error fault, s) => (.error fault, s) := by
  rw [carryOut, run_bind]
  rcases openStore.run.run s with ⟨_ | store, s⟩
  · rfl
  · dsimp only
    rw [run_lift]
    cases report store <;> rfl

theorem run_deposit (q : Query) (b : Block) (text : String) :
    (deposit q b text).carryOut.run.run s =
      match openStore.run.run s with
      | (.ok store, s) =>
        (.ok (.success text),
          { s with
            store := some (store.put q (.ofBlock b))
            growth := growthBy store q (.ofBlock b) s.growth })
      | (.error fault, s) => (.error fault, s) := by
  rw [carryOut, run_bind, putBlock, run_bind]
  rcases openStore.run.run s with ⟨_ | store, s⟩ <;> rfl

theorem run_look_snd (report : Store → Except CommandError Report) :
    ((look report).carryOut.run.run s).2 = (openStore.run.run s).2 := by
  rw [run_look]
  rcases openStore.run.run s with ⟨_ | store, s⟩ <;> rfl

theorem files_deposit (q : Query) (b : Block) (text : String) :
    ((deposit q b text).carryOut.run.run s).2.files = (openStore.run.run s).2.files := by
  rw [run_deposit]
  rcases openStore.run.run s with ⟨_ | store, s⟩ <;> rfl

theorem run_write (path content text : String) :
    (write path content text).carryOut.run.run s =
      ((writeText s.files path content).1.map fun _ => .success text,
        { s with files := (writeText s.files path content).2 }) := by
  rw [carryOut, run_bind, writeFile, run_bind, run_changeFiles, writeText]
  rw [show (FileChange.makeParent path).run.run s.files = s.files.makeParent path from rfl]
  rcases s.files.makeParent path with ⟨_ | _, files⟩
  · rfl
  · dsimp only [Except.mapError]
    rw [run_changeFiles]
    dsimp only
    rw [FileChange.write, FileChange.run_whole]
    cases files.write path (Text.utf8 content) <;> rfl

def storeAfter (store : Store) : Plan → Store
  | deposit q b _ => store.put q (.ofBlock b)
  | _ => store

theorem store_carryOut (plan : Plan) (held : s.store = some store) :
    (plan.carryOut.run.run s).2.store = some (plan.storeAfter store) := by
  cases plan with
  | answer outcome => rwa [run_answer]
  | write path content text => rwa [run_write]
  | look report => rwa [run_look, run_openStore_of_some held]
  | deposit q b text =>
    rw [run_deposit, run_openStore_of_some held]
    rfl

end Plan

def performAll (C : Curve) (s : Session) (turns : List (Moment × Command)) : Session :=
  turns.foldl (fun s turn => (perform C turn.1 turn.2 s).2) s

theorem performAll_singleton (C : Curve) (m : Moment) (c : Command) (s : Session) :
    performAll C s [(m, c)] = (perform C m c s).2 := rfl

theorem performAll_keeps {C : Curve} {I : Session → Prop}
    (kept : ∀ m c s, I s → I (perform C m c s).2) (turns : List (Moment × Command)) (holds : I s) :
    I (performAll C s turns) := by
  apply List.foldlRecOn (motive := I) turns
  · exact holds
  · intro after before turn _
    exact kept turn.1 turn.2 after before

end Overlay.Cli.Session
