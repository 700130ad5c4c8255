import Overlay.Proofs.Files

/-! Trees of directories in which every name can be one in a path, as in any that a file system
keeps. Whatever is changed by paths, this stays so. -/
namespace Overlay
variable {path name : String} {place here : Place} {content : Bytes}

/-- The path of a place has the names that lead there. -/
theorem Path.names_path {place : Place} (named : ∀ name ∈ place, IsName name) :
    names place.path = place := by
  have root : pieces place.path = "" :: pieces ("/".intercalate place) := by
    rw [Place.path, pieces, String.toList_append]
    rfl
  have kept : place.filter (fun name => name ≠ "" ∧ name ≠ ".") = place :=
    List.filter_eq_self.2 fun name member =>
      decide_eq_true ⟨(named name member).nonempty, (named name member).notHere⟩
  rw [names, root, pieces, String.toList_intercalate]
  cases place with
  | nil => rfl
  | cons first rest =>
    have free : ∀ piece ∈ (first :: rest).map String.toList, '/' ∉ piece :=
      List.forall_mem_map.2 fun name member => (named name member).noSlash
    have nonempty : (first :: rest).map String.toList ≠ [] := List.cons_ne_nil _ _
    have texts : ((first :: rest).map String.toList).map String.ofList = first :: rest := by
      simp only [List.map_map, Function.comp_def, String.ofList_toList, List.map_id']
    rw [show ("/" : String).toList = ['/'] from rfl, Text.splitAll_intercalate nonempty free, texts]
    exact kept

namespace Listing

def Named : Listing → Prop
  | empty => True
  | file name _ rest => Path.IsName name ∧ rest.Named
  | directory name inner rest => Path.IsName name ∧ inner.Named ∧ rest.Named

end Listing

def Node.Named : Node → Prop
  | .file _ => True
  | .directory inner => inner.Named

namespace Listing.Named
variable {l inner : Listing} {node : Node}

theorem find? (named : l.Named) (found : l.find? name = some node) : node.Named := by
  induction l with
  | empty => contradiction
  | file other content rest ih =>
    rw [Listing.find?] at found
    split at found
    · obtain rfl := Option.some.inj found
      trivial
    · exact ih named.2 found
  | directory other inner rest _ ih =>
    rw [Listing.find?] at found
    split at found
    · obtain rfl := Option.some.inj found
      exact named.2.1
    · exact ih named.2.2 found

theorem at? (named : l.Named) (found : l.at? place = some node) : node.Named := by
  induction place generalizing l with
  | nil =>
    rw [Listing.at?] at found
    obtain rfl := Option.some.inj found
    exact named
  | cons name rest ih =>
    rw [at?_cons] at found
    obtain ⟨child, held, below⟩ := Option.bind_eq_some_iff.1 found
    cases child with
    | directory inner =>
      exact ih (named.find? held) ((below?_directory inner rest).symm.trans below)
    | file content =>
      cases rest with
      | nil =>
        obtain rfl := Option.some.inj below
        trivial
      | cons => contradiction

theorem entry (nameable : Path.IsName name) (inside : node.Named) (named : l.Named) :
    (l.entry name node).Named := by
  cases node with
  | file content => exact ⟨nameable, named⟩
  | directory inner => exact ⟨nameable, inside, named⟩

theorem replace (named : l.Named) (nameable : Path.IsName name) (inside : node.Named) :
    (l.replace name node).Named := by
  induction l with
  | empty => exact entry nameable inside named
  | file other content rest ih =>
    rw [Listing.replace]
    split
    · exact entry nameable inside named.2
    · exact ⟨named.1, ih named.2⟩
  | directory other inner rest _ ih =>
    rw [Listing.replace]
    split
    · exact entry nameable inside named.2.2
    · exact ⟨named.1, named.2.1, ih named.2.2⟩

theorem erase (named : l.Named) (name : String) : (l.erase name).Named := by
  induction l with
  | empty => trivial
  | file other content rest ih =>
    rw [Listing.erase]
    split
    · exact ih named.2
    · exact ⟨named.1, ih named.2⟩
  | directory other inner rest _ ih =>
    rw [Listing.erase]
    split
    · exact ih named.2.2
    · exact ⟨named.1, named.2.1, ih named.2.2⟩

theorem put (named : l.Named) (inside : node.Named) (nameable : ∀ name ∈ place, Path.IsName name) :
    (l.put node place).Named := by
  induction l, place using Listing.put.induct with
  | case1 l => exact named
  | case2 l name => exact named.replace (List.forall_mem_singleton.1 nameable) inside
  | case3 l name rest deeper inner found ih =>
    obtain ⟨first, others⟩ := List.forall_mem_cons.1 nameable
    rw [Listing.put, found]
    · exact named.replace first (ih (named.find? found) others)
    · exact deeper
  | case4 l name rest deeper absent =>
    rw [Listing.put]
    · split
      · next inner held => exact absurd held (absent inner)
      · exact named
    · exact deeper

theorem remove (named : l.Named) (nameable : ∀ name ∈ place, Path.IsName name) :
    (l.remove place).Named := by
  induction l, place using Listing.remove.induct with
  | case1 l => exact named
  | case2 l name => exact named.erase name
  | case3 l name rest deeper inner found ih =>
    obtain ⟨first, others⟩ := List.forall_mem_cons.1 nameable
    rw [Listing.remove, found]
    · exact named.replace first (ih (named.find? found) others)
    · exact deeper
  | case4 l name rest deeper absent =>
    rw [Listing.remove]
    · split
      · next inner held => exact absurd held (absent inner)
      · exact named
    · exact deeper

theorem isName_of_mem_names (named : l.Named) (member : name ∈ l.names) : Path.IsName name := by
  induction l with
  | empty => contradiction
  | file other content rest ih =>
    rcases List.mem_cons.1 member with rfl | inRest
    · exact named.1
    · exact ih named.2 inRest
  | directory other inner rest _ ih =>
    rcases List.mem_cons.1 member with rfl | inRest
    · exact named.1
    · exact ih named.2.2 inRest

end Listing.Named

namespace Files
variable {t t' : Files}

/-- All names of files and directories, and those that lead to the working directory, can be names
in paths. -/
structure Named (t : Files) : Prop where
  working : ∀ name ∈ t.working, Path.IsName name
  root : t.root.Named

namespace Named

theorem next (nameable : ∀ name ∈ here, Path.IsName name)
    (step : name ≠ ".." → Path.IsName name) : ∀ other ∈ next here name, Path.IsName other := by
  intro other member
  rw [Files.next] at member
  split at member
  · exact nameable other (List.dropLast_subset here member)
  · next notAbove =>
    rcases List.mem_append.1 member with above | last
    · exact nameable other above
    · obtain rfl := List.mem_singleton.1 last
      exact step notAbove

theorem foldl_next {names : List String} (nameable : ∀ name ∈ here, Path.IsName name)
    (steps : ∀ name ∈ names, name ≠ ".." → Path.IsName name) :
    ∀ other ∈ names.foldl Files.next here, Path.IsName other := by
  induction names generalizing here with
  | nil => exact nameable
  | cons name names ih =>
    obtain ⟨first, others⟩ := List.forall_mem_cons.1 steps
    exact ih (next nameable first) others

theorem start (named : t.Named) (path : String) : ∀ name ∈ t.start path, Path.IsName name := by
  rw [Files.start]
  split
  · exact List.forall_mem_nil _
  · exact named.working

theorem destination (named : t.Named) (path : String) :
    ∀ name ∈ t.destination path, Path.IsName name :=
  foldl_next (named.start path) fun _ => Path.isName_of_mem_names

theorem set {node : Node} (named : t.Named) (inside : node.Named)
    (nameable : ∀ name ∈ place, Path.IsName name) : (t.set place node).Named :=
  ⟨named.working, named.root.put inside nameable⟩

theorem write (named : t.Named) (written : t.write path content = .ok t') : t'.Named := by
  obtain rfl := eq_set_of_write written
  exact named.set trivial (named.destination path)

theorem remove (named : t.Named) (removed : t.remove path = .ok t') : t'.Named := by
  obtain rfl := eq_remove_of_remove removed
  exact ⟨named.working, named.root.remove (named.destination path)⟩

theorem rename {target : String} (named : t.Named) (renamed : t.rename path target = .ok t') :
    t'.Named := by
  obtain ⟨content, -, renamed⟩ := bind_eq_ok_iff.1 renamed
  obtain ⟨written, wrote, removed⟩ := bind_eq_ok_iff.1 renamed
  exact (named.write wrote).remove removed

theorem keptByMaking :
    KeptByMaking (fun here => ∀ name ∈ here, Path.IsName name) fun t t' => t.Named → t'.Named where
  refl _ := id
  trans first second := second ∘ first
  next member nameable := next nameable (Path.isName_of_mem_names member)
  set nameable _ named := named.set trivial nameable

theorem makeDirectory (named : t.Named) (path : String) : (t.makeDirectory path).2.Named :=
  keptByMaking.makeDirectory t path (named.start path) named

theorem makeParent (named : t.Named) (path : String) : (t.makeParent path).2.Named :=
  keptByMaking.makeParent t path named.start named

theorem isName_of_mem_names (named : t.Named) {names : List String}
    (listed : t.names path = .ok names) (member : name ∈ names) : Path.IsName name := by
  obtain ⟨node, looked, listed⟩ := bind_eq_ok_iff.1 listed
  split at listed
  · next inner =>
    obtain rfl := Except.ok.inj listed
    obtain ⟨place, -, looked⟩ := bind_eq_ok_iff.1 looked
    split at looked
    · contradiction
    · next held =>
      cases Except.ok.inj looked
      exact Listing.Named.isName_of_mem_names (named.root.at? held) member
    · split at looked
      · cases Except.ok.inj looked
      · contradiction
  · contradiction

end Named
end Files
end Overlay
