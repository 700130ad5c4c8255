import Overlay.Files
import Overlay.Proofs.Except
import Overlay.Proofs.Files.Listing
import Overlay.Proofs.Files.Path

/-! Where paths lead, and what changes of files leave as it was: making directories and removing
files brings no file about, and writing one brings about that one. -/
namespace Overlay

namespace Files
variable {t t' t'' : Files} {path : String} {place here : Place} {content : Bytes}

theorem next_of_step {name : String} (stepped : step here name = .ok place) :
    place = next here name := by
  rw [step] at stepped
  split at stepped
  · contradiction
  · exact (Except.ok.inj stepped).symm

theorem eq_of_enter {names : List String} (entered : t.enter here names = .ok place) :
    place = names.foldl next here := by
  induction names generalizing here with
  | nil => exact (Except.ok.inj entered).symm
  | cons name names ih =>
    obtain ⟨below, stepped, entered⟩ := bind_eq_ok_iff.1 entered
    obtain rfl := next_of_step stepped
    split at entered
    · contradiction
    · contradiction
    · exact ih entered

theorem foldl_next_eq {names : List String} (plain : ".." ∉ names) (here : Place) :
    names.foldl next here = here ++ names := by
  induction names generalizing here with
  | nil => exact (List.append_nil here).symm
  | cons name rest ih =>
    obtain ⟨down, others⟩ := List.ne_and_not_mem_of_not_mem_cons plain
    rw [List.foldl_cons, ih others, next, if_neg down.symm, List.append_assoc]
    rfl

/-- A path that can be followed leads where it would if there were all that it needs. -/
theorem eq_destination_of_place (found : t.place path = .ok place) :
    place = t.destination path := by
  obtain ⟨-, -, found⟩ := bind_eq_ok_iff.1 found
  rw [destination]
  split at found
  · next none =>
    rw [List.getLast?_eq_none_iff.1 none]
    exact (Except.ok.inj found).symm
  · next name last =>
    obtain ⟨above, entered, stepped⟩ := bind_eq_ok_iff.1 found
    obtain ⟨front, split⟩ := List.getLast?_eq_some_iff.1 last
    rw [split, List.dropLast_concat] at entered
    rw [split, List.foldl_append, ← eq_of_enter entered]
    exact next_of_step stepped

theorem destination_join (t : Files) (directory : String) {name : String}
    (named : Path.IsName name) :
    t.destination (Path.join directory name) = t.destination directory ++ [name] := by
  have below (here : Place) : next here name = here ++ [name] := if_neg named.notAbove
  have started : t.start (Path.join directory name) = t.start directory := by
    rw [start, start]
    by_cases empty : directory = ""
    · have joined : Path.join "" name = name := by
        rw [Path.join]
        exact if_pos (Bool.or_true _)
      rw [empty, joined, named.isAbsolute_eq]
      rfl
    · rw [named.isAbsolute_join empty]
  rw [destination, named.names_join, started, List.foldl_append, List.foldl_cons, List.foldl_nil,
    below]
  rfl

theorem destination_congr (same : t'.working = t.working) (path : String) :
    t'.destination path = t.destination path := by
  rw [destination, destination, start, start, same]

theorem read_eq_ok_iff :
    t.read path = .ok content ↔ Path.ending path = .name ∧
      ∃ place, t.place path = .ok place ∧ t.node? place = some (.file content) := by
  constructor
  · intro found
    obtain ⟨node, looked, found⟩ := bind_eq_ok_iff.1 found
    obtain ⟨place, followed, looked⟩ := bind_eq_ok_iff.1 looked
    split at found
    · contradiction
    · obtain rfl := Except.ok.inj found
      split at looked
      · contradiction
      · cases Except.ok.inj looked
      · next held =>
        split at looked
        · next ended =>
          obtain rfl := Node.file.inj (Except.ok.inj looked)
          exact ⟨ended, place, followed, held⟩
        · contradiction
  · rintro ⟨ended, place, followed, held⟩
    rw [Files.read, lookup, followed, ok_bind, held]
    dsimp only
    rw [if_pos ended]
    rfl

theorem node?_of_read (found : t.read path = .ok content) :
    t.node? (t.destination path) = some (.file content) := by
  obtain ⟨-, place, followed, held⟩ := read_eq_ok_iff.1 found
  rwa [← eq_destination_of_place followed]

/-- Nothing but a file at the end of a path that ends with a name is written. -/
theorem cases_of_write (written : t.write path content = .ok t') :
    Path.ending path = .name ∧ ∃ place, t.place path = .ok place ∧
      (∀ inner, t.node? place ≠ some (.directory inner)) ∧ t' = t.set place (.file content) := by
  rw [write] at written
  split at written
  · next ended =>
    obtain ⟨place, followed, written⟩ := bind_eq_ok_iff.1 written
    split at written
    · contradiction
    · next vacant => exact ⟨ended, place, followed, vacant, (Except.ok.inj written).symm⟩
  · obtain ⟨-, -, written⟩ := bind_eq_ok_iff.1 written
    obtain ⟨-, -, written⟩ := bind_eq_ok_iff.1 written
    contradiction
  · obtain ⟨-, -, written⟩ := bind_eq_ok_iff.1 written
    contradiction
  · obtain ⟨-, -, written⟩ := bind_eq_ok_iff.1 written
    contradiction

theorem eq_set_of_write (written : t.write path content = .ok t') :
    t' = t.set (t.destination path) (.file content) := by
  obtain ⟨-, place, followed, -, rfl⟩ := cases_of_write written
  rw [eq_destination_of_place followed]

/-- Nothing but a file is removed. -/
theorem cases_of_remove (removed : t.remove path = .ok t') :
    ¬ t.root.HasDirectory (t.destination path) ∧
      t' = { t with root := t.root.remove (t.destination path) } := by
  obtain ⟨node, looked, removed⟩ := bind_eq_ok_iff.1 removed
  obtain ⟨place, followed, looked⟩ := bind_eq_ok_iff.1 looked
  obtain rfl := eq_destination_of_place followed
  split at removed
  · contradiction
  · refine ⟨?_, (Except.ok.inj removed).symm⟩
    rintro ⟨inner, taken⟩
    have taken : t.node? (t.destination path) = some (.directory inner) := taken
    rw [taken] at looked
    cases Except.ok.inj looked

theorem eq_remove_of_remove (removed : t.remove path = .ok t') :
    t' = { t with root := t.root.remove (t.destination path) } := (cases_of_remove removed).2

/-- A relation of files to what becomes of them when empty directories are made at places where
there is nothing. The places are those that paths lead through. -/
structure KeptByMaking (P : Place → Prop) (R : Files → Files → Prop) : Prop where
  refl : ∀ t, R t t
  trans : ∀ {t t' t''}, R t t' → R t' t'' → R t t''
  next : ∀ {path here name}, name ∈ Path.names path → P here → P (next here name)
  set : ∀ {t here}, P here → t.node? here = none → R t (t.set here (.directory .empty))

namespace KeptByMaking
variable {P : Place → Prop} {R : Files → Files → Prop} (kept : KeptByMaking P R)
include kept

theorem makeBelow (t : Files) (path : String) {names : List String}
    (steps : names ⊆ Path.names path) (begins : P here) : R t (t.makeBelow here names).2 := by
  induction names generalizing t here with
  | nil => exact kept.refl t
  | cons name names ih =>
    obtain ⟨first, others⟩ := List.cons_subset.1 steps
    rw [Files.makeBelow]
    split
    · exact kept.refl t
    · next below stepped =>
      obtain rfl := next_of_step stepped
      have passes := kept.next first begins
      split
      · next missing => exact kept.trans (kept.set passes missing) (ih _ others passes)
      · exact ih t others passes
      · exact kept.refl t

theorem makeDirectory (t : Files) (path : String) (begins : P (t.start path)) :
    R t (t.makeDirectory path).2 := by
  rw [Files.makeDirectory]
  split
  · exact kept.refl t
  · split
    · exact kept.refl t
    · dsimp only
      split
      · exact kept.refl t
      · exact kept.refl t
      · refine kept.makeBelow t path ?_ begins
        split
        · exact List.dropLast_subset _
        · exact List.Subset.refl _
      · exact kept.refl t

theorem makeParent (t : Files) (path : String) (begins : ∀ path, P (t.start path)) :
    R t (t.makeParent path).2 := by
  rw [Files.makeParent]
  split
  · exact kept.refl t
  · exact kept.makeDirectory t _ (begins _)

end KeptByMaking

/-- A change after which a place has no file that it had not before. -/
structure BringsNothing (place : Place) (t t' : Files) : Prop where
  working : t'.working = t.working
  kept : ∀ content, t'.node? place = some (.file content) → t.node? place = some (.file content)

namespace BringsNothing

theorem refl (place : Place) (t : Files) : BringsNothing place t t := ⟨rfl, fun _ => id⟩

theorem trans (first : BringsNothing place t t') (second : BringsNothing place t' t'') :
    BringsNothing place t t'' :=
  ⟨second.working.trans first.working, fun content found =>
    first.kept content (second.kept content found)⟩

theorem set_directory (t : Files) (here : Place) :
    BringsNothing place t (t.set here (.directory .empty)) := by
  refine ⟨rfl, fun content found => ?_⟩
  rcases Listing.at?_put .directory found with ⟨-, written⟩ | before
  · contradiction
  · exact before

theorem set_file (t : Files) (elsewhere : here ≠ place) :
    BringsNothing place t (t.set here (.file content)) := by
  refine ⟨rfl, fun content found => ?_⟩
  rcases Listing.at?_put (.file _) found with ⟨same, -⟩ | before
  · exact absurd same.symm elsewhere
  · exact before

theorem remove (removed : t.remove path = .ok t') : BringsNothing place t t' := by
  obtain rfl := eq_remove_of_remove removed
  exact ⟨rfl, fun _ => Listing.at?_remove⟩

theorem write (written : t.write path content = .ok t') (elsewhere : t.destination path ≠ place) :
    BringsNothing place t t' := by
  obtain rfl := eq_set_of_write written
  exact set_file t elsewhere

theorem rename {target : String} (renamed : t.rename path target = .ok t')
    (elsewhere : t.destination target ≠ place) : BringsNothing place t t' := by
  obtain ⟨content, -, renamed⟩ := bind_eq_ok_iff.1 renamed
  obtain ⟨written, wrote, removed⟩ := bind_eq_ok_iff.1 renamed
  exact (write wrote elsewhere).trans (remove removed)

theorem keptByMaking (place : Place) : KeptByMaking (fun _ => True) (BringsNothing place) where
  refl := refl place
  trans := trans
  next _ _ := trivial
  set _ _ := set_directory _ _

theorem makeDirectory (t : Files) (path : String) :
    BringsNothing place t (t.makeDirectory path).2 :=
  (keptByMaking place).makeDirectory t path trivial

theorem makeParent (t : Files) (path : String) : BringsNothing place t (t.makeParent path).2 :=
  (keptByMaking place).makeParent t path fun _ => trivial

end BringsNothing
end Files

theorem FileChange.run_whole (change : Files → Except FileFault Files) (t : Files) :
    (whole change).run.run t =
      match change t with
      | .ok changed => (.ok (), changed)
      | .error fault => (.error fault, t) := rfl

end Overlay
