import Overlay.Proofs.Files.Named
import Overlay.Proofs.Files.Spared
import Overlay.Proofs.Store.Directory

/-! Which files loading a store changes: its settings, its checkpoints and its blobs. The log is
made if there is none, and otherwise left as it is, so that a store is found as it was. -/
namespace Overlay

theorem Files.node?_ne_of_read_notFound {t t' : Files} {path : String} {content : Bytes}
    (read : t.read path = .error .notFound) (written : t.write path content = .ok t')
    (other : Bytes) : t.node? (t.destination path) ≠ some (.file other) := by
  obtain ⟨ended, place, followed, -, -⟩ := cases_of_write written
  obtain rfl := eq_destination_of_place followed
  intro held
  rw [Files.read, lookup, followed, ok_bind, held] at read
  dsimp only at read
  rw [if_pos ended] at read
  contradiction

namespace Checkpoint

/-- The directory of a store by its absolute path. -/
theorem destination_directory {t : Files} (named : ∀ name ∈ t.working, Path.IsName name)
    (store : String) : t.destination (directory store t) = t.destination store := by
  have plain : ".." ∉ t.working := fun member => (named _ member).notAbove rfl
  rw [directory]
  cases absolute : Path.isAbsolute store with
  | true => rw [Path.join_of_isAbsolute absolute]
  | false =>
    have nonempty : Place.path t.working ≠ "" := fun empty =>
      absurd (String.append_eq_empty_iff.1 empty).1 (by decide)
    have root : Path.isAbsolute (Place.path t.working) = true := by
      rw [Place.path, Path.isAbsolute_append (by decide)]
      rfl
    rw [Files.destination, Files.start, Path.isAbsolute_join absolute nonempty, root, if_pos rfl,
      Path.names_join absolute, Path.names_path named, List.foldl_append,
      Files.foldl_next_eq plain, List.nil_append, Files.destination, Files.start, absolute]
    rfl

end Checkpoint

namespace StoreDirectory
variable {store : String} {t t' t₀ : Files} {place : Place} {content : Bytes}

/-- The places of the files that a store keeps beside its log. -/
inductive Owns (store : String) (t : Files) : Place → Prop where
  | settings : Owns store t (t.destination store ++ ["conf"])
  | checkpoint {name : String} (begins : Checkpoint.start.toList <+: name.toList) :
      Owns store t (t.destination store ++ [name])
  | blob {name : String} (numbered : (blobOffset? name).isSome) :
      Owns store t (t.destination store ++ ["blobs", name])

theorem Owns.of_working (same : t'.working = t.working) (owned : Owns store t' place) :
    Owns store t place := by
  have place_eq := Files.destination_congr same store
  cases owned with
  | settings =>
    rw [place_eq]
    exact .settings
  | checkpoint begins =>
    rw [place_eq]
    exact .checkpoint begins
  | blob numbered =>
    rw [place_eq]
    exact .blob numbered

theorem destination_join_blobsPath (t : Files) {name : String} (named : Path.IsName name) :
    t.destination (Path.join (blobsPath store) name) = t.destination store ++ ["blobs", name] := by
  have blobs : Path.IsName "blobs" := by decide
  rw [t.destination_join _ named, blobsPath, t.destination_join _ blobs, List.append_assoc]
  rfl

theorem destination_logPath (store : String) (t : Files) :
    t.destination (logPath store) = t.destination store ++ ["db"] :=
  t.destination_join store (by decide)

theorem owns_settingsPath (store : String) (t : Files) :
    Owns store t (t.destination (settingsPath store)) := by
  have conf : Path.IsName "conf" := by decide
  rw [settingsPath, t.destination_join store conf]
  exact .settings

theorem owns_checkpointPath (store : String) (t : Files) (length : Nat) :
    Owns store t (t.destination (Checkpoint.path store length)) := by
  rw [Checkpoint.path, t.destination_join store (Checkpoint.isName_name length)]
  refine .checkpoint ?_
  rw [Checkpoint.name, String.toList_append]
  exact List.prefix_append _ _

theorem owns_draftPath (store : String) (t : Files) (length : Nat) :
    Owns store t (t.destination (Checkpoint.draftPath store length)) := by
  rw [Checkpoint.draftPath, Checkpoint.path, (Checkpoint.isName_name length).join_append store
    (Checkpoint.isName_draft length), t.destination_join store (Checkpoint.isName_draft length)]
  refine .checkpoint ?_
  rw [Checkpoint.name, String.append_assoc, String.toList_append]
  exact List.prefix_append _ _

theorem not_owns_logPath (store : String) (t : Files) :
    ¬ Owns store t (t.destination (logPath store)) := by
  rw [destination_logPath]
  generalize place_eq : t.destination store ++ ["db"] = place
  rintro (_ | begins | _)
  · exact absurd (List.append_cancel_left place_eq) (by decide)
  · next name =>
    obtain rfl := List.singleton_inj.1 (List.append_cancel_left place_eq)
    exact absurd begins (by decide)
  · exact absurd (congrArg List.length (List.append_cancel_left place_eq)) nofun

def tree (store : String) (t : Files) : Tree :=
  match t.node? (t.destination (logPath store)) with
  | some (.file content) => Log.tree content
  | _ => .empty

theorem tree_of_node? (held : t.node? (t.destination (logPath store)) = some (.file content)) :
    tree store t = Log.tree content := by
  rw [tree, held]

theorem tree_of_absent
    (absent : ∀ content, t.node? (t.destination (logPath store)) ≠ some (.file content)) :
    tree store t = .empty := by
  rw [tree]
  split
  · next content held => exact absurd held (absent content)
  · rfl

/-- Files after a change that touches none but those of a store, and no directories. A log is made
only if there is none. -/
structure StaysWithin (store : String) (t t' : Files) : Prop
    extends Files.KeepsDirectories t t' where
  left : ∀ place content, ¬ Owns store t place → t.node? place = some (.file content) →
    t'.node? place = some (.file content)
  fresh : ∀ place content, ¬ Owns store t place → t'.node? place = some (.file content) →
    t.node? place = some (.file content) ∨
      place = t.destination (logPath store) ∧ content = []

namespace StaysWithin

theorem refl (store : String) (t : Files) : StaysWithin store t t :=
  ⟨.refl t, fun _ _ _ => id, fun _ _ _ => .inl⟩

theorem trans (first : StaysWithin store t₀ t) (second : StaysWithin store t t') :
    StaysWithin store t₀ t' where
  toKeepsDirectories := first.toKeepsDirectories.trans second.toKeepsDirectories
  left place content other held :=
    second.left _ _ (mt (.of_working first.working) other) (first.left _ _ other held)
  fresh place content other found := by
    rcases second.fresh _ _ (mt (.of_working first.working) other) found with before | ⟨log, blank⟩
    · exact first.fresh _ _ other before
    · exact .inr ⟨log.trans (Files.destination_congr first.working _), blank⟩

theorem after (within : StaysWithin store t₀ t) (keeps : Files.KeepsDirectories t t')
    (spares : ∀ place, ¬ Owns store t₀ place → Files.Spares place t t') :
    StaysWithin store t₀ t' where
  toKeepsDirectories := within.toKeepsDirectories.trans keeps
  left place _ other held := (spares place other).left _ (within.left _ _ other held)
  fresh place _ other found := within.fresh _ _ other ((spares place other).kept _ found)

/-- What is done to a file that is the store's own leaves others as they are. -/
theorem elsewhere (within : StaysWithin store t₀ t) {path : String}
    (owned : ∀ t, Owns store t (t.destination path)) (other : ¬ Owns store t₀ place) :
    t.destination path ≠ place := by
  rintro rfl
  rw [Files.destination_congr within.working] at other
  exact other (owned t₀)

theorem log (within : StaysWithin store t₀ t) (read : t.read (logPath store) = .error .notFound)
    (written : t.write (logPath store) [] = .ok t') : StaysWithin store t₀ t' := by
  have place_eq := Files.destination_congr within.working (logPath store)
  have absent := Files.node?_ne_of_read_notFound read written
  have changed := Files.eq_set_of_write written
  refine ⟨within.toKeepsDirectories.trans (.write written), fun place content other held => ?left,
    fun place content other found => ?fresh⟩
  case left =>
    have before := within.left place content other held
    have elsewhere : t.destination (logPath store) ≠ place := by
      rintro rfl
      exact absent content before
    exact (Files.Spares.write written elsewhere).left content before
  case fresh =>
    subst changed
    rcases Listing.at?_put (.file _) found with ⟨rfl, same⟩ | before
    · exact .inr ⟨place_eq, (Node.file.inj same).symm⟩
    · exact within.fresh place content other before

theorem tree_eq (within : StaysWithin store t₀ t) : tree store t = tree store t₀ := by
  have place_eq := Files.destination_congr within.working (logPath store)
  have free := not_owns_logPath store t₀
  by_cases held : ∃ content, t₀.node? (t₀.destination (logPath store)) = some (.file content)
  · obtain ⟨content, held⟩ := held
    have after := within.left _ content free held
    rw [← place_eq] at after
    rw [tree_of_node? held, tree_of_node? after]
  · have absent (content : Bytes) := not_exists.1 held content
    rw [tree_of_absent absent, tree]
    split
    · next content found =>
      rw [place_eq] at found
      rcases within.fresh _ content free found with before | ⟨-, rfl⟩
      · exact absurd before (absent content)
      · rfl
    · rfl

end StaysWithin

/-- What a change leaves of files in which every name can be one in a path. -/
theorem upkeep_staysWithin (store : String) (t₀ : Files) :
    Upkeep store Path.IsName fun t => t.Named ∧ StaysWithin store t₀ t where
  makeDirectory t path := fun ⟨named, within⟩ =>
    ⟨named.makeDirectory path, within.after (.makeDirectory t path) fun _ _ =>
      .makeDirectory t path⟩
  settings t t' := fun ⟨named, within⟩ written =>
    ⟨named.write written, within.after (.write written) fun _ other =>
      .write written (within.elsewhere (owns_settingsPath store) other)⟩
  log t t' := fun ⟨named, within⟩ read written => ⟨named.write written, within.log read written⟩
  draft t t' length := fun ⟨named, within⟩ written =>
    ⟨named.write written, within.after (.write written) fun _ other =>
      .write written (within.elsewhere (owns_draftPath store · length) other)⟩
  rename t t' length := fun ⟨named, within⟩ renamed =>
    ⟨named.rename renamed, within.after (.rename renamed) fun _ other =>
      .rename renamed (within.elsewhere (owns_checkpointPath store · length) other)
        (within.elsewhere (owns_draftPath store · length) other)⟩
  names t path names := fun ⟨named, _⟩ listed name member => named.isName_of_mem_names listed member
  checkpoint s t t' name := fun ⟨_, before⟩ ⟨named, within⟩ nameable begins removed => by
    have directory : Checkpoint.directory store s = Checkpoint.directory store t := by
      rw [Checkpoint.directory, Checkpoint.directory, before.working, within.working]
    have place_eq : t.destination (Path.join (Checkpoint.directory store s) name) =
        t₀.destination store ++ [name] := by
      rw [directory, t.destination_join _ nameable, Checkpoint.destination_directory named.working,
        Files.destination_congr within.working]
    have owned : Owns store t₀ (t₀.destination store ++ [name]) :=
      .checkpoint (List.isPrefixOf_iff_prefix.1 (Bool.and_eq_true_iff.1 begins).1)
    refine ⟨named.remove removed, within.after (.remove removed) fun place other =>
      .remove removed ?_⟩
    rw [place_eq]
    rintro rfl
    exact other owned
  blob t t' name := fun ⟨named, within⟩ nameable numbered removed => by
    refine ⟨named.remove removed, within.after (.remove removed) fun place other =>
      .remove removed ?_⟩
    refine within.elsewhere (fun t => ?_) other
    rw [destination_join_blobsPath t nameable]
    exact .blob numbered

/-- A store is loaded as its files have it, and other files stay as they are. -/
theorem load_staysWithin (named : t.Named) (before : StaysWithin store t₀ t) :
    ((load store).run.run t).2.Named ∧ StaysWithin store t₀ ((load store).run.run t).2 ∧
      ∀ found, ((load store).run.run t).1 = .ok found → found.1 = tree store t₀ := by
  have upkeep := upkeep_staysWithin store t₀
  have loaded := upkeep.keeps_load (Q := fun content => Log.tree content = tree store t₀)
    (fun t' content ⟨_, within⟩ read => ?held) (fun t' made ⟨_, within⟩ read written => ?blank)
  case held => rw [← within.tree_eq, tree_of_node? (Files.node?_of_read read)]
  case blank =>
    rw [← within.tree_eq, tree_of_absent (Files.node?_ne_of_read_notFound read written)]
    rfl
  obtain ⟨⟨named, within⟩, found⟩ := loaded t ⟨named, before⟩
  refine ⟨named, within, fun result same => ?_⟩
  obtain ⟨content, same, tree⟩ := found result same
  exact tree.trans same

end StoreDirectory
end Overlay
