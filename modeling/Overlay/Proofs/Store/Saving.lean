import Overlay.Proofs.Store.Footprint

/-! A store is taken up from the log that is in its directory, and what the log has gained is
written there. -/
namespace Overlay.StoreDirectory
variable {store : String} {t t' t₀ : Files} {content old : Bytes} {g : Log.Growth}

/-- Files among which a store can be kept. The log, if there is one, ends with its last record. -/
structure Ready (store : String) (t : Files) : Prop where
  named : t.Named
  home : t.HasDirectory t.working
  whole : LogIs Log.IsWhole store t

theorem Ready.of_staysWithin (ready : Ready store t₀) (named : t.Named)
    (within : StaysWithin store t₀ t) : Ready store t where
  named := named
  home := within.home ready.home
  whole content found := by
    rw [Files.destination_congr within.working] at found
    rcases within.fresh _ content (not_owns_logPath store t₀) found with before | ⟨-, rfl⟩
    · exact ready.whole content before
    · exact Log.isWhole_nil

theorem read_of_staysWithin (within : StaysWithin store t t')
    (read : t.read (logPath store) = .ok content) : t'.read (logPath store) = .ok content :=
  Files.read_of_keepsDirectories within.toKeepsDirectories
    (within.left _ content (not_owns_logPath store t)) read

/-- A store that is loaded is taken up from a log that is there to be written on. -/
theorem load_log (ready : Ready store t) :
    Ready store ((load store).run.run t).2 ∧
      ∀ found, ((load store).run.run t).1 = .ok found → ∃ content, Log.IsWhole content ∧
        ((load store).run.run t).2.read (logPath store) = .ok content ∧
        found = Log.resume content := by
  -- From when the log has been read, what is done spares it.
  have leads := (upkeep_staysWithin store t).leads_load
    (P := fun content t' => (t'.Named ∧ StaysWithin store t t') ∧
      t'.read (logPath store) = .ok content)
    (J := fun t₁ t' => t'.Named ∧ StaysWithin store t₁ t')
    (fun t' content holds read => ⟨holds, read⟩)
    (fun t' made ⟨named, within⟩ read written => ⟨⟨named.write written, within.log read written⟩,
      Files.read_of_write (within.home ready.home) written⟩)
    (fun content t₁ ⟨⟨named, within⟩, _⟩ => ⟨⟨named, .refl store t₁⟩,
      fun t' ⟨named, later⟩ => ⟨named, within.trans later⟩, upkeep_staysWithin store t₁⟩)
  obtain ⟨⟨named, within⟩, found⟩ := leads t ⟨ready.named, .refl store t⟩
  refine ⟨ready.of_staysWithin named within, fun result same => ?_⟩
  obtain ⟨content, t₁, ⟨⟨named, before⟩, read⟩, ⟨-, later⟩, taken⟩ := found result same
  have ready₁ := ready.of_staysWithin named before
  exact ⟨content, ready₁.whole content (Files.node?_of_read read),
    read_of_staysWithin later read, taken⟩

/-- At most the log is written. -/
theorem save_cases (store : String) (g : Log.Growth) (t : Files) :
    ((save store g).run.run t).2 = t ∨
      ∃ content, t.write (logPath store) content = .ok ((save store g).run.run t).2 := by
  rw [save]
  split
  · rw [FileChange.overwrite, FileChange.run_whole]
    cases written : t.overwrite (logPath store) g.offset g.bytes with
    | error fault => exact .inl rfl
    | ok t' => exact .inr ⟨_, written⟩
  · exact .inl rfl

theorem keepsDirectories_save (store : String) (g : Log.Growth) (t : Files) :
    Files.KeepsDirectories t ((save store g).run.run t).2 := by
  rcases save_cases store g t with same | ⟨_, written⟩
  · rw [same]
    exact .refl t
  · exact .write written

theorem named_save (named : t.Named) (store : String) (g : Log.Growth) :
    ((save store g).run.run t).2.Named := by
  rcases save_cases store g t with same | ⟨_, written⟩
  · rwa [same]
  · exact named.write written

theorem save_of_nothing (nothing : g.bytes = []) : ((save store g).run.run t).2 = t := by
  rw [save, if_neg (not_not.2 nothing)]
  rfl

theorem patch_nil {offset : Nat} (inside : offset ≤ old.length) :
    Files.patch old offset [] = old := by
  have gap : offset - old.length = 0 := Nat.sub_eq_zero_of_le inside
  rw [Files.patch, gap, List.replicate_zero, List.append_nil, List.append_nil, List.length_nil,
    Nat.add_zero, List.take_append_drop]

/-- A log that has been saved is read with what it has gained. -/
theorem read_save (home : t.HasDirectory t.working) (read : t.read (logPath store) = .ok old)
    (inside : g.offset ≤ old.length) :
    ((save store g).run.run t).2.read (logPath store) =
      .ok (Files.patch old g.offset g.bytes) := by
  rw [save]
  split
  · have written := Files.write_of_read read (Files.patch old g.offset g.bytes)
    have known : (t.read (logPath store)).toOption.getD [] = old := by
      rw [read]
      rfl
    rw [FileChange.overwrite, FileChange.run_whole, Files.overwrite, known, written]
    exact Files.read_of_write home written
  · next unchanged =>
    rw [not_not.1 unchanged, patch_nil inside]
    exact read

end Overlay.StoreDirectory
