import Overlay.Files.Path
import Overlay.Proofs.Text.Split

/-! The names in a path that is joined to a directory. -/
namespace Overlay.Path

/-- A text that is a name in paths, other than the one for the directory above. -/
structure IsName (name : String) : Prop where
  noSlash : '/' ∉ name.toList
  nonempty : name ≠ ""
  notHere : name ≠ "."
  notAbove : name ≠ ".."

variable {name : String}

theorem isName_iff :
    IsName name ↔ '/' ∉ name.toList ∧ name ≠ "" ∧ name ≠ "." ∧ name ≠ ".." :=
  ⟨fun named => ⟨named.noSlash, named.nonempty, named.notHere, named.notAbove⟩,
    fun ⟨noSlash, nonempty, notHere, notAbove⟩ => ⟨noSlash, nonempty, notHere, notAbove⟩⟩

instance : Decidable (IsName name) := decidable_of_iff _ isName_iff.symm

theorem pieces_append_slash (directory path : String) :
    pieces (directory ++ "/" ++ path) = pieces directory ++ pieces path := by
  have slash : ("/" : String).toList = ['/'] := rfl
  rw [pieces, String.toList_append, String.toList_append, slash, List.append_assoc,
    List.singleton_append, Text.splitAll_append_cons, List.map_append]
  rfl

theorem names_append_slash (directory path : String) :
    names (directory ++ "/" ++ path) = names directory ++ names path := by
  rw [names, pieces_append_slash, List.filter_append]
  rfl

theorem IsName.names_eq (named : IsName name) : names name = [name] := by
  rw [names, pieces, Text.splitAll_of_not_mem named.noSlash, List.map_singleton,
    String.ofList_toList]
  simp [named.nonempty, named.notHere]

theorem isName_of_mem_names {path : String} (member : name ∈ names path) (notAbove : name ≠ "..") :
    IsName name := by
  obtain ⟨member, leads⟩ := List.mem_filter.1 member
  obtain ⟨piece, split, rfl⟩ := List.mem_map.1 member
  obtain ⟨nonempty, notHere⟩ := of_decide_eq_true leads
  have noSlash := Text.not_mem_of_mem_splitAll split
  exact ⟨by rwa [String.toList_ofList], nonempty, notHere, notAbove⟩

theorem IsName.isAbsolute_eq (named : IsName name) : isAbsolute name = false := by
  rw [isAbsolute, beq_eq_false_iff_ne]
  intro first
  exact named.noSlash (List.mem_of_mem_head? first)

theorem isAbsolute_append {directory : String} (nonempty : directory ≠ "") (path : String) :
    isAbsolute (directory ++ path) = isAbsolute directory := by
  have spelled : directory.toList ≠ [] := mt String.toList_eq_nil_iff.1 nonempty
  obtain ⟨c, rest, spelled⟩ := List.exists_cons_of_ne_nil spelled
  rw [isAbsolute, isAbsolute, String.toList_append, spelled]
  rfl

/-- What is joined to a directory comes after the names that lead there. -/
theorem names_join {path : String} (relative : isAbsolute path = false) (directory : String) :
    names (join directory path) = names directory ++ names path := by
  rw [join, relative, Bool.false_or]
  by_cases empty : directory = ""
  · rw [empty]
    rfl
  · rw [if_neg (by simpa using empty)]
    split
    · next slash =>
      obtain ⟨front, split⟩ := List.getLast?_eq_some_iff.1 slash
      have cut : directory = String.ofList front ++ "/" := String.toList_injective (by simp [split])
      have alone : names (String.ofList front ++ "/") = names (String.ofList front) := by
        have after := names_append_slash (String.ofList front) ""
        rwa [String.append_empty, show names "" = [] from rfl, List.append_nil] at after
      rw [cut, names_append_slash, alone]
    · exact names_append_slash directory path

theorem isAbsolute_join {path : String} (relative : isAbsolute path = false) {directory : String}
    (nonempty : directory ≠ "") : isAbsolute (join directory path) = isAbsolute directory := by
  rw [join, relative, Bool.false_or, if_neg (by simpa using nonempty)]
  split
  · exact isAbsolute_append nonempty _
  · rw [String.append_assoc]
    exact isAbsolute_append nonempty _

theorem join_of_isAbsolute {path : String} (absolute : isAbsolute path = true)
    (directory : String) : join directory path = path := by
  rw [join, absolute]
  rfl

theorem IsName.names_join (named : IsName name) (directory : String) :
    names (join directory name) = names directory ++ [name] := by
  rw [Path.names_join named.isAbsolute_eq, named.names_eq]

theorem IsName.isAbsolute_join (named : IsName name) {directory : String}
    (nonempty : directory ≠ "") : isAbsolute (join directory name) = isAbsolute directory :=
  Path.isAbsolute_join named.isAbsolute_eq nonempty

theorem IsName.join_append (named : IsName name) (directory : String) {rest : String}
    (longer : IsName (name ++ rest)) :
    join directory name ++ rest = join directory (name ++ rest) := by
  rw [join, join, named.isAbsolute_eq, longer.isAbsolute_eq]
  split
  · rfl
  · split <;> simp only [String.append_assoc]

theorem names_of_ending {path : String} (ended : ending path = .name) :
    ∃ front name, names path = front ++ [name] ∧ name ≠ ".." := by
  rw [ending] at ended
  split at ended
  · contradiction
  · next piece last =>
    obtain ⟨front, split⟩ := List.getLast?_eq_some_iff.1 last
    split at ended
    · contradiction
    · next notHere =>
      split at ended
      · contradiction
      · next notAbove =>
        refine ⟨front.filter (· ≠ "."), piece, ?_, notAbove⟩
        have kept : names path = ((pieces path).filter (· ≠ "")).filter (· ≠ ".") := by
          simp [names, List.filter_filter, Bool.and_comm]
        have last : [piece].filter (· ≠ ".") = [piece] := by simp [notHere]
        rw [kept, split, List.filter_append, last]

end Overlay.Path
