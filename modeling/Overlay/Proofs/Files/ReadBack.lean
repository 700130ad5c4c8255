import Overlay.Proofs.Files

/-! A file is read as it was written, and directories stay where they are when others are made
or files are written. -/
namespace Overlay.Files
variable {t t' t'' : Files} {path : String} {place here : Place} {content : Bytes}

def HasDirectory (t : Files) (place : Place) : Prop := t.root.HasDirectory place

theorem hasDirectory_set {node : Node} (vacant : ¬ t.HasDirectory place)
    (held : t.HasDirectory here) : (t.set place node).HasDirectory here :=
  Listing.hasDirectory_put vacant held

/-- A change after which directories are where they were. -/
structure KeepsDirectories (t t' : Files) : Prop where
  working : t'.working = t.working
  kept : ∀ place, t.HasDirectory place → t'.HasDirectory place

namespace KeepsDirectories

theorem refl (t : Files) : KeepsDirectories t t := ⟨rfl, fun _ => id⟩

theorem trans (first : KeepsDirectories t t') (second : KeepsDirectories t' t'') :
    KeepsDirectories t t'' :=
  ⟨second.working.trans first.working, fun place held => second.kept place (first.kept place held)⟩

theorem set {node : Node} (vacant : ¬ t.HasDirectory place) :
    KeepsDirectories t (t.set place node) := ⟨rfl, fun _ => hasDirectory_set vacant⟩

theorem write (written : t.write path content = .ok t') : KeepsDirectories t t' := by
  obtain ⟨-, place, -, vacant, rfl⟩ := cases_of_write written
  exact set fun ⟨inner, held⟩ => vacant inner held

theorem remove (removed : t.remove path = .ok t') : KeepsDirectories t t' := by
  obtain ⟨single, rfl⟩ := cases_of_remove removed
  exact ⟨rfl, fun _ => Listing.hasDirectory_remove single⟩

theorem rename {target : String} (renamed : t.rename path target = .ok t') :
    KeepsDirectories t t' := by
  obtain ⟨content, -, renamed⟩ := bind_eq_ok_iff.1 renamed
  obtain ⟨written, wrote, removed⟩ := bind_eq_ok_iff.1 renamed
  exact (write wrote).trans (remove removed)

theorem keptByMaking : KeptByMaking (fun _ => True) KeepsDirectories where
  refl := refl
  trans := trans
  next _ _ := trivial
  set _ missing := set fun ⟨_, held⟩ => Option.some_ne_none _ (held.symm.trans missing)

theorem makeDirectory (t : Files) (path : String) : KeepsDirectories t (t.makeDirectory path).2 :=
  keptByMaking.makeDirectory t path trivial

theorem makeParent (t : Files) (path : String) : KeepsDirectories t (t.makeParent path).2 :=
  keptByMaking.makeParent t path fun _ => trivial

theorem home (keeps : KeepsDirectories t t') (held : t.HasDirectory t.working) :
    t'.HasDirectory t'.working := by
  rw [keeps.working]
  exact keeps.kept _ held

end KeepsDirectories

theorem hasDirectory_of_enter {names : List String} (held : t.HasDirectory here)
    (entered : t.enter here names = .ok place) : t.HasDirectory place := by
  induction names generalizing here with
  | nil =>
    obtain rfl := Except.ok.inj entered
    exact held
  | cons name names ih =>
    obtain ⟨below, -, entered⟩ := bind_eq_ok_iff.1 entered
    split at entered
    · contradiction
    · contradiction
    · next inner found => exact ih ⟨inner, found⟩ entered

theorem enter_of_keepsDirectories {names : List String} (keeps : KeepsDirectories t t')
    (entered : t.enter here names = .ok place) : t'.enter here names = .ok place := by
  induction names generalizing here with
  | nil => exact entered
  | cons name names ih =>
    obtain ⟨below, stepped, entered⟩ := bind_eq_ok_iff.1 entered
    split at entered
    · contradiction
    · contradiction
    · next inner found =>
      obtain ⟨inner', found'⟩ := keeps.kept below ⟨inner, found⟩
      have found' : t'.node? below = some (.directory inner') := found'
      rw [enter, stepped, ok_bind, found']
      exact ih entered

theorem place_of_keepsDirectories (keeps : KeepsDirectories t t')
    (followed : t.place path = .ok place) : t'.place path = .ok place := by
  obtain ⟨⟨⟩, allowed, followed⟩ := bind_eq_ok_iff.1 followed
  have started : t'.start path = t.start path := by rw [start, start, keeps.working]
  rw [Files.place, allowed, ok_bind, started]
  split at followed
  · exact followed
  · obtain ⟨above, entered, stepped⟩ := bind_eq_ok_iff.1 followed
    exact bind_eq_ok_iff.2 ⟨above, enter_of_keepsDirectories keeps entered, stepped⟩

/-- A file is read as before when it and the directories on the way to it are still there. -/
theorem read_of_keepsDirectories (keeps : KeepsDirectories t t')
    (left : t.node? (t.destination path) = some (.file content) →
      t'.node? (t.destination path) = some (.file content))
    (read : t.read path = .ok content) : t'.read path = .ok content := by
  obtain ⟨ended, place, followed, held⟩ := read_eq_ok_iff.1 read
  rw [← eq_destination_of_place followed] at left
  exact read_eq_ok_iff.2 ⟨ended, place, place_of_keepsDirectories keeps followed, left held⟩

theorem write_of_read {old : Bytes} (read : t.read path = .ok old) (content : Bytes) :
    t.write path content = .ok (t.set (t.destination path) (.file content)) := by
  obtain ⟨ended, place, followed, held⟩ := read_eq_ok_iff.1 read
  rw [← eq_destination_of_place followed, Files.write, ended]
  dsimp only
  rw [followed, ok_bind, held]
  rfl

theorem place_of_names {front : List String} {name : String}
    (named : Path.names path = front ++ [name]) :
    t.place path = (do usable path; step (← t.enter (t.start path) front) name) := by
  rw [Files.place, named, List.getLast?_concat, List.dropLast_concat]

theorem read_of_write (home : t.HasDirectory t.working)
    (written : t.write path content = .ok t') : t'.read path = .ok content := by
  obtain ⟨ended, place, followed, -, same⟩ := cases_of_write written
  have again := place_of_keepsDirectories (.write written) followed
  refine read_eq_ok_iff.2 ⟨ended, place, again, ?_⟩
  subst same
  obtain ⟨front, name, named, below⟩ := Path.names_of_ending ended
  rw [place_of_names named] at followed
  obtain ⟨⟨⟩, -, followed⟩ := bind_eq_ok_iff.1 followed
  obtain ⟨above, entered, stepped⟩ := bind_eq_ok_iff.1 followed
  -- Without names in front of the last one the file is put where the path starts.
  have parent : t.HasDirectory above := by
    refine hasDirectory_of_enter ?_ entered
    rw [start]
    split
    · exact Listing.hasDirectory_nil _
    · exact home
  rw [(next_of_step stepped).trans (if_neg below)]
  exact Listing.at?_put_same parent _ _

end Overlay.Files
