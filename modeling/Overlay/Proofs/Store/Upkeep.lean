import Overlay.Proofs.Files
import Overlay.Proofs.Stateful
import Overlay.Proofs.Store.Log
import Overlay.Store.Directory

/-! What loading a store does to files: it makes directories, and writes, renames and removes files
at some paths. What all of these leave as it was, loading leaves as it was, also when it fails. -/
namespace Overlay

namespace Checkpoint

def path (store : String) (length : Nat) : String := Path.join store (name length)

def draftPath (store : String) (length : Nat) : String := path store length ++ draft

end Checkpoint

namespace StoreDirectory
variable {store : String} {I : Files → Prop} {listed : String → Prop} {Q : Bytes → Prop}

/-- A property of files that the changes made by loading a store leave as it is. The names in a
directory, some of which are those of files that are removed, are known to have another one. -/
structure Upkeep (store : String) (listed : String → Prop) (I : Files → Prop) : Prop where
  makeDirectory : ∀ t path, I t → I (t.makeDirectory path).2
  settings : ∀ t t', I t → t.write (settingsPath store) Settings.file = .ok t' → I t'
  log : ∀ t t', I t → t.read (logPath store) = .error .notFound →
    t.write (logPath store) [] = .ok t' → I t'
  draft : ∀ t t' length, I t →
    t.write (Checkpoint.draftPath store length) (Checkpoint.encode length) = .ok t' → I t'
  rename : ∀ t t' length, I t →
    t.rename (Checkpoint.draftPath store length) (Checkpoint.path store length) = .ok t' → I t'
  names : ∀ t path names, I t → t.names path = .ok names → ∀ name ∈ names, listed name
  checkpoint : ∀ s t t' name, I s → I t → listed name → Checkpoint.isName name →
    t.remove (Path.join (Checkpoint.directory store s) name) = .ok t' → I t'
  blob : ∀ t t' name, I t → listed name → (blobOffset? name).isSome →
    t.remove (Path.join (blobsPath store) name) = .ok t' → I t'

theorem keeps_whole {change : Files → Except FileFault Files}
    (kept : ∀ t t', I t → change t = .ok t' → I t') :
    Keeps I (FileChange.whole change) fun _ => True := by
  intro t holds
  refine ⟨?_, fun _ _ => trivial⟩
  rw [FileChange.run_whole]
  split
  · next t' done => exact kept t t' holds done
  · exact holds

theorem keeps_ask {α : Type} {question : Files → Except FileFault α} {R : α → Prop}
    (answer : ∀ t a, I t → question t = .ok a → R a) : Keeps I (FileChange.ask question) R :=
  fun t holds => ⟨holds, fun a asked => answer t a holds asked⟩

theorem keeps_tryRemove {ε : Type} {path : String}
    (kept : ∀ t t', I t → t.remove path = .ok t' → I t') :
    Keeps I (FileChange.tryRemove path : FileChange ε Unit) fun _ => True := by
  intro t holds
  refine ⟨?_, fun _ _ => trivial⟩
  have run : ((FileChange.tryRemove path : FileChange ε Unit).run.run t).2 =
      (t.remove path).toOption.getD t := rfl
  rw [run]
  cases removed : t.remove path with
  | error fault => exact holds
  | ok t' => exact kept t t' holds removed

namespace Upkeep
variable (upkeep : Upkeep store listed I)
include upkeep

theorem keeps_makeDirectory (path : String) :
    Keeps I (FileChange.makeDirectory path) fun _ => True :=
  fun t holds => ⟨upkeep.makeDirectory t path holds, fun _ _ => trivial⟩

theorem keeps_names (path : String) :
    Keeps I (FileChange.names path) fun names => ∀ name ∈ names, listed name :=
  keeps_ask fun t names => upkeep.names t path names

theorem keeps_checkpointNames :
    Keeps I (Checkpoint.names store) fun names =>
      ∀ name ∈ names, listed name ∧ Checkpoint.isName name := by
  rw [Checkpoint.names]
  refine .get_bind fun t _ => .bind (.adapt _ (upkeep.keeps_makeDirectory _)) fun _ _ => ?_
  refine .bind (.adapt _ (upkeep.keeps_names _)) fun names named => .pure fun name member => ?_
  obtain ⟨member, begins⟩ := List.mem_filter.1 member
  exact ⟨named name member, begins⟩

theorem keeps_checkpointRead : Keeps I (Checkpoint.read store) fun _ => True := by
  rw [Checkpoint.read]
  refine .bind upkeep.keeps_checkpointNames fun names _ => ?_
  split
  · exact .pure trivial
  · refine .get_bind fun t _ => .bind (.adapt _ (keeps_ask fun _ _ _ _ => trivial)) ?_
    intro content _
    split
    · exact .pure trivial
    · exact .throw _

theorem keeps_checkpointWrite (length : Nat) :
    Keeps I (Checkpoint.write store length) fun _ => True := by
  rw [Checkpoint.write]
  refine .bind (.adapt _ (keeps_whole fun t t' => upkeep.draft t t' length)) fun _ _ => ?_
  refine .bind (.adapt _ (keeps_whole fun t t' => upkeep.rename t t' length)) fun _ _ => ?_
  refine .bind upkeep.keeps_checkpointNames fun names named => .get_bind fun s holds => ?_
  refine .forM fun other member => keeps_tryRemove fun t t' held => ?_
  obtain ⟨known, begins⟩ := named other (List.mem_filter.1 member).1
  exact upkeep.checkpoint s t t' other holds held known begins

theorem keeps_checkSettings : Keeps I (checkSettings store) fun _ => True := by
  rw [checkSettings]
  refine .get_bind fun t _ => ?_
  extract_lets settle
  have settled (content : Bytes) (_ : True) : Keeps I (settle content) fun _ => True := by
    dsimp only [settle]
    split
    · exact .adapt _ (keeps_whole upkeep.settings)
    · exact .ofExcept fun _ _ => trivial
  split
  · exact .bind (.pure trivial) settled
  · exact .bind (.pure trivial) settled
  · exact .bind (.throw _) settled

theorem leads_readLog {P : Bytes → Files → Prop}
    (held : ∀ t content, I t → t.read (logPath store) = .ok content → P content t)
    (blank : ∀ t t', I t → t.read (logPath store) = .error .notFound →
      t.write (logPath store) [] = .ok t' → P [] t') :
    Leads I (readLog store) P := by
  intro t holds
  rw [readLog, run_get_bind]
  cases read : t.read (logPath store) with
  | ok content =>
    refine ⟨holds, fun other same => ?_⟩
    cases same
    exact held t content holds read
  | error fault =>
    cases fault with
    | notFound =>
      dsimp only
      rw [run_bind, run_adapt, FileChange.write, FileChange.run_whole]
      cases written : t.write (logPath store) [] with
      | error fault => exact ⟨holds, nofun⟩
      | ok t' =>
        refine ⟨upkeep.log t t' holds read written, fun other same => ?_⟩
        cases same
        exact blank t t' holds read written
    | _ => exact ⟨holds, nofun⟩

theorem keeps_removeBlobs (length : Nat) :
    Keeps I (removeBlobs store length) fun _ => True := by
  rw [removeBlobs]
  refine .bind (.adapt _ (upkeep.keeps_names _)) fun names named => ?_
  refine .forM fun name member => .adapt _ (keeps_whole fun t t' held => ?_)
  obtain ⟨member, outside⟩ := List.mem_filter.1 member
  have numbered : (blobOffset? name).isSome := by
    obtain ⟨offset, found, -⟩ := (Option.any_eq_true _ _).1 outside
    exact Option.isSome_of_mem found
  exact upkeep.blob t t' name held (named name member) numbered

theorem keeps_takeUp (content : Bytes) :
    Keeps I (takeUp store content) fun found => found = Log.resume content := by
  rw [takeUp]
  refine .bind upkeep.keeps_checkpointRead fun checkpoint _ => ?_
  cases read : Log.read? content with
  | none =>
    cases checkpoint with
    | none => exact .pure (by rw [Log.resume, read])
    | some length => exact .bind (upkeep.keeps_removeBlobs _) fun _ _ => .throw _
  | some log =>
    obtain ⟨tree, length⟩ := log
    -- The blobs are removed whether a checkpoint is written first or not.
    dsimp -zeta only
    extract_lets finish
    have finished : Keeps I (finish ()) fun found => found = Log.resume content :=
      .bind (upkeep.keeps_removeBlobs _) fun _ _ => .pure (by rw [Log.resume, read])
    split
    · exact .bind (upkeep.keeps_checkpointWrite length) fun _ _ => finished
    · exact finished

/-- What is loaded is what the log is taken up with that is found, or an empty one. From when the
log has been read there may be another invariant. -/
theorem leads_load {P : Bytes → Files → Prop} {J : Files → Files → Prop}
    (held : ∀ t content, I t → t.read (logPath store) = .ok content → P content t)
    (blank : ∀ t t', I t → t.read (logPath store) = .error .notFound →
      t.write (logPath store) [] = .ok t' → P [] t')
    (after : ∀ content t, P content t →
      J t t ∧ (∀ t', J t t' → I t') ∧ Upkeep store listed (J t)) :
    Leads I (load store) fun found t' =>
      ∃ content t, P content t ∧ J t t' ∧ found = Log.resume content := by
  rw [load]
  intro t holds
  rw [run_get_bind]
  extract_lets search
  have found : Leads I (search ()) fun found t' =>
      ∃ content t, P content t ∧ J t t' ∧ found = Log.resume content := by
    refine .after_keeps upkeep.keeps_checkSettings fun _ _ => ?_
    refine .bind_keeps (upkeep.leads_readLog held blank) fun content t read => ?_
    obtain ⟨begins, weaken, upkeep⟩ := after content t read
    exact ⟨begins, weaken, upkeep.keeps_takeUp content⟩
  split
  · exact Leads.after_keeps (.adapt _ (upkeep.keeps_makeDirectory _)) (fun _ _ => found) t holds
  · exact found t holds

/-- The tree that is loaded is that of the log that is found, or of an empty one. -/
theorem keeps_load (held : ∀ t content, I t → t.read (logPath store) = .ok content → Q content)
    (blank : ∀ t t', I t → t.read (logPath store) = .error .notFound →
      t.write (logPath store) [] = .ok t' → Q []) :
    Keeps I (load store) fun found => ∃ content, Q content ∧ found.1 = Log.tree content := by
  have leads := upkeep.leads_load (P := fun content t => Q content ∧ I t)
    (J := fun _ => I) (fun t content holds read => ⟨held t content holds read, holds⟩)
    (fun t t' holds read written =>
      ⟨blank t t' holds read written, upkeep.log t t' holds read written⟩)
    fun _ _ ⟨_, holds⟩ => ⟨holds, fun _ => id, upkeep⟩
  refine fun t holds => ⟨(leads t holds).1, fun found same => ?_⟩
  obtain ⟨content, _, ⟨has, _⟩, _, rfl⟩ := (leads t holds).2 found same
  exact ⟨content, has, Log.resume_fst content⟩

end Upkeep
end StoreDirectory
end Overlay
