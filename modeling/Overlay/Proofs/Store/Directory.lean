import Overlay.Proofs.Store.Upkeep
import Overlay.Proofs.Text.Utf8

/-! The directory of a store in which nothing has been stored stays one, whatever files are
written by other means than the store itself, and a store that is found there is empty. -/
namespace Overlay

namespace Log

/-- Whatever a log is that bytes can be read as, nothing is set in it. -/
def SetsNothing (b : Bytes) : Prop := ∀ t length, read? b = some (t, length) → t = .empty

theorem setsNothing_of_not_mem {b : Bytes} (unmarked : 0xff ∉ b) : SetsNothing b := by
  intro t length found
  obtain ⟨_, tail, rfl, -, ⟨records, rfl, -⟩, -⟩ := read?_eq_some_iff.1 found
  have marked : 0xff ∈ opening := List.mem_replicate.2 ⟨by decide, rfl⟩
  exact absurd (List.mem_append_left _ (List.mem_append_left _ marked)) unmarked

theorem SetsNothing.tree_eq {b : Bytes} (nothing : SetsNothing b) : tree b = .empty := by
  rw [tree]
  split
  · next t length found => exact nothing t length found
  · rfl

theorem setsNothing_nil : SetsNothing [] := setsNothing_of_not_mem List.not_mem_nil

end Log

namespace Checkpoint

theorem exists_digitChar_of_mem_toDigits {n : Nat} {c : Char} (member : c ∈ Nat.toDigits 16 n) :
    ∃ digit, c = Nat.digitChar digit := by
  induction n using Nat.strongRecOn with
  | ind n ih =>
    rw [Nat.toDigits_eq_if (by decide)] at member
    split at member
    · exact ⟨n, List.mem_singleton.1 member⟩
    · next large =>
      rcases List.mem_append.1 member with front | last
      · exact ih (n / 16) (by omega) front
      · exact ⟨_, List.mem_singleton.1 last⟩

theorem toUpper_digitChar_ne_slash (digit : Nat) : (Nat.digitChar digit).toUpper ≠ '/' := by
  have hexadecimal : ∀ digit < 16, (Nat.digitChar digit).toUpper ≠ '/' := by decide
  by_cases small : digit < 16
  · exact hexadecimal digit small
  · rw [Nat.digitChar_eq_star.2 (Nat.not_lt.1 small)]
    decide

theorem slash_not_mem_name (length : Nat) : '/' ∉ (name length).toList := by
  rw [name, String.toList_append, String.toList_ofList]
  simp only [List.mem_append, not_or]
  refine ⟨by decide, fun zero => ?_, fun digit => ?_⟩
  · exact absurd (List.eq_of_mem_replicate zero) (by decide)
  · obtain ⟨c, member, same⟩ := List.mem_map.1 digit
    obtain ⟨digit, rfl⟩ := exists_digitChar_of_mem_toDigits member
    exact toUpper_digitChar_ne_slash digit same

/-- Other texts begin differently. -/
theorem name_append_ne {other : String} (different : other.toList.head? ≠ some 's') (length : Nat)
    (rest : String) : name length ++ rest ≠ other := by
  rintro rfl
  refine different ?_
  rw [name, String.append_assoc, String.toList_append]
  rfl

theorem name_ne {other : String} (different : other.toList.head? ≠ some 's') (length : Nat) :
    name length ≠ other := by
  have longer := name_append_ne different length ""
  rwa [String.append_empty] at longer

theorem isName_name (length : Nat) : Path.IsName (name length) where
  noSlash := slash_not_mem_name length
  nonempty := name_ne (by decide) length
  notHere := name_ne (by decide) length
  notAbove := name_ne (by decide) length

theorem isName_draft (length : Nat) : Path.IsName (name length ++ draft) where
  noSlash := by
    rw [String.toList_append, List.mem_append, not_or]
    exact ⟨slash_not_mem_name length, by decide⟩
  nonempty := name_append_ne (by decide) length draft
  notHere := name_append_ne (by decide) length draft
  notAbove := name_append_ne (by decide) length draft

end Checkpoint

namespace StoreDirectory
variable {store : String} {t t' : Files}

/-- If a store has a log, its content is of some kind. -/
def LogIs (P : Bytes → Prop) (store : String) (t : Files) : Prop :=
  ∀ content, t.node? (t.destination (logPath store)) = some (.file content) → P content

/-- There is no log of a store with anything in it. -/
def IsVacant (store : String) (t : Files) : Prop := LogIs Log.SetsNothing store t

namespace LogIs
variable {P : Bytes → Prop}

theorem of_absent (absent : t.node? (t.destination (logPath store)) = none) : LogIs P store t :=
  fun _ found => nomatch absent.symm.trans found

theorem of_bringsNothing (holds : LogIs P store t)
    (change : t.BringsNothing (t.destination (logPath store)) t') : LogIs P store t' := by
  intro content found
  rw [Files.destination_congr change.working] at found
  exact holds content (change.kept content found)

theorem write {path : String} {content : Bytes} (holds : LogIs P store t) (kind : P content)
    (written : t.write path content = .ok t') : LogIs P store t' := by
  obtain rfl := Files.eq_set_of_write written
  intro other found
  rcases Listing.at?_put (.file _) found with ⟨-, same⟩ | before
  · cases same
    exact kind
  · exact holds other before

end LogIs

theorem logPath_elsewhere {name : String} (named : Path.IsName name) (differ : name ≠ "db")
    (t : Files) : t.destination (Path.join store name) ≠ t.destination (logPath store) := by
  have log : Path.IsName "db" := by decide
  rw [logPath, t.destination_join store named, t.destination_join store log]
  intro same
  exact differ (List.singleton_inj.1 (List.append_cancel_left same))

theorem upkeep_logIs {P : Bytes → Prop} (blank : P []) :
    Upkeep store (fun _ => True) (LogIs P store) where
  makeDirectory t path holds := holds.of_bringsNothing (.makeDirectory t path)
  settings t _ holds written := holds.of_bringsNothing <|
    .write written (logPath_elsewhere (by decide) (by decide) t)
  log _ _ holds _ written := holds.write blank written
  draft t _ length holds written := by
    have named := Checkpoint.isName_draft length
    rw [Checkpoint.draftPath, Checkpoint.path,
      (Checkpoint.isName_name length).join_append store named] at written
    have differ : Checkpoint.name length ++ Checkpoint.draft ≠ "db" :=
      Checkpoint.name_append_ne (by decide) length _
    exact holds.of_bringsNothing (.write written (logPath_elsewhere named differ t))
  rename t _ length holds renamed := by
    -- The file that is renamed may have anything in it by then, so it must not become the log.
    have elsewhere : t.destination (Checkpoint.path store length) ≠
        t.destination (logPath store) :=
      logPath_elsewhere (Checkpoint.isName_name length) (Checkpoint.name_ne (by decide) length) t
    exact holds.of_bringsNothing (.rename renamed elsewhere)
  names _ _ _ _ _ _ _ := trivial
  checkpoint _ _ _ _ _ holds _ _ removed := holds.of_bringsNothing (.remove removed)
  blob _ _ _ holds _ _ removed := holds.of_bringsNothing (.remove removed)

/-- What is found in the directory of a store in which nothing was stored is an empty store. -/
theorem keeps_load : Keeps (IsVacant store) (load store) fun found => found.1 = .empty := by
  have silent (t : Files) (content : Bytes) (vacant : IsVacant store t)
      (read : t.read (logPath store) = .ok content) : Log.SetsNothing content :=
    vacant content (Files.node?_of_read read)
  have loaded := (upkeep_logIs Log.setsNothing_nil).keeps_load silent
    fun _ _ _ _ _ => Log.setsNothing_nil
  refine fun t vacant => ⟨(loaded t vacant).1, fun found same => ?_⟩
  obtain ⟨content, nothing, tree⟩ := (loaded t vacant).2 found same
  rw [tree, nothing.tree_eq]

end StoreDirectory
end Overlay
