import Overlay.Proofs.Files.Spared

/-! Paths that lead to a file only once directories were made. Without a way up in it, a path that
misses a directory leads to nothing. With one it can lead around the missing directory, to a file
that was there all along. -/
namespace Overlay
variable {content : Bytes}

theorem Listing.at?_append_eq_none {l : Listing} {place : Place} (missing : l.at? place = none)
    (rest : Place) : l.at? (place ++ rest) = none := by
  induction place generalizing l with
  | nil =>
    rw [at?] at missing
    contradiction
  | cons name place ih =>
    rw [at?_cons] at missing
    rw [List.cons_append, at?_cons]
    cases found : l.find? name with
    | none => rfl
    | some child =>
      rw [found, Option.bind_some] at missing
      cases child with
      | directory inner =>
        rw [below?_directory] at missing
        rw [Option.bind_some, below?_directory]
        exact ih missing
      | file other =>
        cases place with
        | nil => contradiction
        | cons => rfl

namespace Files
variable {t t' : Files} {path : String} {place here : Place}

/-- A path that misses a directory, and goes up again. -/
structure IsDetour (t : Files) (path : String) : Prop where
  missing : t.place path = .error .notFound
  up : ".." ∈ Path.names path

/-- There is nothing below a directory that is missing. -/
theorem node?_eq_none_of_enter {names : List String} (plain : ".." ∉ names)
    (missing : t.enter here names = .error .notFound) (rest : Place) :
    t.node? (here ++ names ++ rest) = none := by
  induction names generalizing here with
  | nil => contradiction
  | cons name names ih =>
    obtain ⟨down, others⟩ := List.ne_and_not_mem_of_not_mem_cons plain
    rcases bind_eq_error_iff.1 missing with unnamed | ⟨below, stepped, missing⟩
    · rw [step] at unnamed
      split at unnamed <;> contradiction
    · obtain rfl := next_of_step stepped
      rw [next, if_neg down.symm] at missing
      have regrouped : here ++ name :: names ++ rest = here ++ [name] ++ names ++ rest := by simp
      rw [regrouped]
      split at missing
      · next absent =>
        rw [List.append_assoc (here ++ [name])]
        exact Listing.at?_append_eq_none absent _
      · contradiction
      · exact ih others missing

/-- Where more directories make a way passable, directories were missing before. -/
theorem eq_notFound_of_enter {names : List String} {fault : FileFault}
    (spares : ∀ place, Spares place t t') (stopped : t.enter here names = .error fault)
    (entered : t'.enter here names = .ok place) : fault = .notFound := by
  induction names generalizing here with
  | nil => contradiction
  | cons name names ih =>
    obtain ⟨below, stepped, entered⟩ := bind_eq_ok_iff.1 entered
    rw [enter, stepped, ok_bind] at stopped
    split at stopped
    · exact (Except.error.inj stopped).symm
    · next content held =>
      rw [(spares below).left content held] at entered
      contradiction
    · split at entered
      · contradiction
      · contradiction
      · exact ih stopped entered

/-- A file that can be written once directories were made was not there before, unless the path is
a detour or there was something at the path. -/
theorem isDetour_of_write {t'' : Files} {new : Bytes} (spares : ∀ place, Spares place t t')
    (written : t'.write path new = .ok t'') (absent : t.has path = false)
    (held : t.node? (t.destination path) = some (.file content)) : t.IsDetour path := by
  obtain ⟨ended, place, followed, -, -⟩ := cases_of_write written
  obtain ⟨front, name, named, below⟩ := Path.names_of_ending ended
  have started : t'.start path = t.start path := by
    rw [start, start, (spares (t.destination path)).working]
  rw [place_of_names named, started] at followed
  obtain ⟨⟨⟩, allowed, followed⟩ := bind_eq_ok_iff.1 followed
  obtain ⟨above, entered, stepped⟩ := bind_eq_ok_iff.1 followed
  have place_eq : t.place path = (do step (← t.enter (t.start path) front) name) := by
    rw [place_of_names named, allowed, ok_bind]
  cases stopped : t.enter (t.start path) front with
  | ok other =>
    -- Then the path leads to the file, which counts as something at the path.
    obtain rfl : other = above := (eq_of_enter stopped).trans (eq_of_enter entered).symm
    rw [stopped, ok_bind, stepped] at place_eq
    rw [← eq_destination_of_place place_eq] at held
    rw [has, lookup, place_eq, ok_bind, held] at absent
    dsimp only at absent
    rw [if_pos ended] at absent
    contradiction
  | error fault =>
    obtain rfl := eq_notFound_of_enter spares stopped entered
    refine ⟨by rw [place_eq, stopped]; rfl, ?_⟩
    by_contra plain
    rw [named, List.mem_append, not_or] at plain
    have missing := node?_eq_none_of_enter plain.1 stopped [name]
    have destination_eq : t.destination path = t.start path ++ front ++ [name] := by
      rw [destination, named, List.foldl_append, foldl_next_eq plain.1, foldl_next_eq plain.2]
    rw [destination_eq, missing] at held
    contradiction

end Files
end Overlay
