import Overlay.Proofs.Filter.Changes

/-! Merging is the join of filters: what comes of it has the bits of both and no others, in
whatever order filters are merged and however often. It is refused exactly if the two place
entries differently. -/
namespace Overlay

namespace Bloom

def Alike (f g : Bloom) : Prop := f.size = g.size ∧ f.mutator = g.mutator

instance (f g : Bloom) : Decidable (f.Alike g) := inferInstanceAs (Decidable (_ ∧ _))

def union (f g : Bloom) : Bloom := { f with bits := List.zipWith (· ||| ·) f.bits g.bits }

variable {f g h : Bloom}

theorem Alike.symm (alike : f.Alike g) : g.Alike f := ⟨alike.1.symm, alike.2.symm⟩

theorem Alike.trans (first : f.Alike g) (second : g.Alike h) : f.Alike h :=
  ⟨first.1.trans second.1, first.2.trans second.2⟩

theorem compatible_iff : f.compatible g ↔ f.Alike g := by
  rw [compatible, Bool.and_eq_true, beq_iff_eq, beq_iff_eq, Alike]

theorem merge?_of_alike (alike : f.Alike g) : f.merge? g = some (f.union g) :=
  if_pos (compatible_iff.2 alike)

theorem merge?_eq_none_iff : f.merge? g = none ↔ ¬ f.Alike g := by
  rw [merge?, ite_eq_right_iff, ← compatible_iff]
  simp

theorem size_union (alike : f.Alike g) : (f.union g).size = f.size :=
  (List.length_zipWith ..).trans (Nat.min_eq_left (Nat.le_of_eq alike.1))

theorem alike_union (alike : f.Alike g) : f.Alike (f.union g) := ⟨(size_union alike).symm, rfl⟩

theorem testBit_union (alike : f.Alike g) (position : Nat) :
    testBit (f.union g).bits position = (testBit f.bits position || testBit g.bits position) :=
  testBit_zipWith_or alike.1 position

theorem within_union (alike : f.Alike g) : f.Within (f.union g) :=
  within_merge (merge?_of_alike alike)

theorem Sound.union (sound : f.Sound) (alike : f.Alike g) : (f.union g).Sound :=
  sound.of_within (within_union alike)

theorem union_self (sound : f.Sound) : f.union f = f := by
  have alike : f.Alike f := ⟨rfl, rfl⟩
  apply (sound.union alike).eq_of_testBit sound (size_union alike) rfl
  intro position
  rw [testBit_union alike, Bool.or_self]

theorem union_comm (sound : f.Sound) (otherSound : g.Sound) (alike : f.Alike g) :
    f.union g = g.union f := by
  apply (sound.union alike).eq_of_testBit (otherSound.union alike.symm)
  · rw [size_union alike, size_union alike.symm, alike.1]
  · exact alike.2
  · intro position
    rw [testBit_union alike, testBit_union alike.symm, Bool.or_comm]

theorem union_assoc (sound : f.Sound) (first : f.Alike g) (second : g.Alike h) :
    (f.union g).union h = f.union (g.union h) := by
  have left : (f.union g).Alike h := (alike_union first).symm.trans (first.trans second)
  have right : f.Alike (g.union h) := first.trans (alike_union second)
  apply ((sound.union first).union left).eq_of_testBit (sound.union right)
  · rw [size_union left, size_union first, size_union right]
  · rfl
  · intro position
    rw [testBit_union left, testBit_union first, testBit_union right, testBit_union second,
      Bool.or_assoc]

/-- Nothing smaller than the union knows what both filters know. -/
theorem union_within {k : Bloom} (first : f.Within k) (second : g.Within k) :
    (f.union g).Within k := by
  have alike : f.Alike g :=
    ⟨first.size_eq.symm.trans second.size_eq, first.mutator_eq.symm.trans second.mutator_eq⟩
  refine ⟨first.size_eq.trans (size_union alike).symm, first.mutator_eq, first.mutatorDigest_eq,
    fun position set => ?_⟩
  rw [testBit_union alike, Bool.or_eq_true] at set
  exact set.elim (first.testBit_of_testBit position) (second.testBit_of_testBit position)

theorem merge?_self (sound : f.Sound) : f.merge? f = some f := by
  rw [merge?_of_alike ⟨rfl, rfl⟩, union_self sound]

theorem merge?_comm (sound : f.Sound) (otherSound : g.Sound) : f.merge? g = g.merge? f := by
  by_cases alike : f.Alike g
  · rw [merge?_of_alike alike, merge?_of_alike alike.symm, union_comm sound otherSound alike]
  · rw [merge?_eq_none_iff.2 alike, merge?_eq_none_iff.2 fun other => alike other.symm]

theorem merge?_assoc (sound : f.Sound) :
    (f.merge? g).bind (·.merge? h) = (g.merge? h).bind f.merge? := by
  -- a union is like both its parts, so that either side is refused for the same filters
  by_cases first : f.Alike g
  · have left : (f.union g).Alike h ↔ g.Alike h :=
      ⟨(first.symm.trans (alike_union first)).trans,
        ((alike_union first).symm.trans first).trans⟩
    rw [merge?_of_alike first, Option.bind_some]
    by_cases second : g.Alike h
    · rw [merge?_of_alike (left.2 second), merge?_of_alike second, Option.bind_some,
        merge?_of_alike (first.trans (alike_union second)), union_assoc sound first second]
    · rw [merge?_eq_none_iff.2 (mt left.1 second), merge?_eq_none_iff.2 second, Option.bind_none]
  · rw [merge?_eq_none_iff.2 first, Option.bind_none]
    by_cases second : g.Alike h
    · have apart : ¬ f.Alike (g.union h) := fun other =>
        first (other.trans (alike_union second).symm)
      rw [merge?_of_alike second, Option.bind_some, merge?_eq_none_iff.2 apart]
    · rw [merge?_eq_none_iff.2 second, Option.bind_none]

theorem compare_eq (f g : Bloom) :
    f.compare g =
      if f.Alike g then if f.bits = g.bits then .same else .mergeable else .different := by
  rw [compare]
  by_cases alike : f.Alike g
  · simp [alike, compatible_iff.2 alike]
  · simp [alike, mt compatible_iff.1 alike]

theorem compare_ne_different_iff : f.compare g ≠ .different ↔ f.Alike g := by
  rw [compare_eq]
  by_cases alike : f.Alike g
  · by_cases same : f.bits = g.bits <;> simp [alike, same]
  · simp [alike]

theorem compare_comm (f g : Bloom) : f.compare g = g.compare f := by
  have alike_iff : f.Alike g ↔ g.Alike f := ⟨Alike.symm, Alike.symm⟩
  simp only [compare_eq, alike_iff, eq_comm (a := f.bits)]

theorem compare_eq_same_iff (sound : f.Sound) (otherSound : g.Sound) :
    f.compare g = .same ↔ f = g := by
  have alike (mutators : f.mutator = g.mutator) (bits : f.bits = g.bits) : f.Alike g :=
    ⟨congrArg List.length bits, mutators⟩
  rw [sound.eq_iff otherSound, compare_eq]
  constructor
  · intro same
    split at same
    · next alike =>
      split at same
      · next bits => exact ⟨alike.2, bits⟩
      · contradiction
    · contradiction
  · rintro ⟨mutators, bits⟩
    rw [if_pos (alike mutators bits), if_pos bits]

theorem merge?_filled {size : Nat} (pos : 0 < size) (mutator : Option (Octets 4))
    (entries others : List Bytes) :
    (filled size mutator entries).merge? (filled size mutator others) =
      some (filled size mutator (entries ++ others)) := by
  have alike : (filled size mutator entries).Alike (filled size mutator others) := by
    simp only [Alike, size_filled, mutator_filled, and_self]
  rw [merge?_of_alike alike]
  apply congrArg some
  apply ((sound_filled mutator entries pos).union alike).eq_of_testBit (sound_filled mutator _ pos)
  · rw [size_union alike, size_filled, size_filled]
  · exact (mutator_filled mutator entries).trans (mutator_filled mutator _).symm
  · intro position
    rw [testBit_union alike, Bool.eq_iff_iff, Bool.or_eq_true]
    simp only [testBit_filled mutator _ pos, List.mem_append, or_and_right, exists_or]

/-- A filter is told by its bytes, if it is known to have a mutator or to have none. -/
theorem Sound.bytes_inj (sound : f.Sound) (otherSound : g.Sound)
    (mutated : f.mutator.isSome = g.mutator.isSome) : f.bytes = g.bytes ↔ f = g := by
  constructor
  · intro same
    have read := decode_bytes sound
    rw [mutated, same, decode_bytes otherSound] at read
    exact (Except.ok.inj read).symm
  · exact congrArg bytes

end Bloom

namespace ResultFilter

/-- What has become of the filters that lookups start with, when blocks are added to them and
other filters are merged into them. -/
inductive Reached : ResultFilter → Prop
  | initial {f : ResultFilter} (initial : f.Initial) : Reached f
  | add {f : ResultFilter} (reached : f.Reached) (b : Block) : Reached (f.add b)
  | merge {f : ResultFilter} (reached : f.Reached) (other : ResultFilter) :
      Reached ((f.merge? other).getD f)

theorem Reached.exists_reachable {f : ResultFilter} (reached : f.Reached) :
    ∃ bloom : Bloom, f = .seen bloom ∧ bloom.Reachable ∧ bloom.mutator.isSome := by
  induction reached with
  | initial initial =>
    obtain ⟨bloom, rfl, usable⟩ := initial.exists_usable
    exact ⟨bloom, rfl, (Bloom.Made.results initial).reachable, usable.mutated⟩
  | add _ b ih =>
    obtain ⟨bloom, rfl, reached, mutated⟩ := ih
    obtain ⟨-, same⟩ | ⟨key, -, added⟩ := add_seen_cases bloom b
    · exact ⟨bloom, same, reached, mutated⟩
    · exact ⟨bloom.add key.bytes, added, reached.change (.add key.bytes), mutated⟩
  | merge _ other ih =>
    obtain ⟨bloom, rfl, reached, mutated⟩ := ih
    cases other with
    | pass => exact ⟨bloom, rfl, reached, mutated⟩
    | seen other =>
      refine ⟨_, Option.getD_map .., reached.change (.merge other), ?_⟩
      rwa [(Bloom.within_getD_merge bloom other).mutator_eq]

/-- Filters of results compare as the filters inside them do, and are the same if and only if
their bytes are. -/
theorem Reached.compare {f g : ResultFilter} (reached : f.Reached) (otherReached : g.Reached) :
    ∃ a b : Bloom, f = .seen a ∧ g = .seen b ∧ a.Reachable ∧ b.Reachable ∧
      f.merge? g = (a.merge? b).map .seen ∧ f.compare g = a.compare b ∧
      (f.compare g = .same ↔ f.bytes = g.bytes) := by
  obtain ⟨a, rfl, first, mutated⟩ := reached.exists_reachable
  obtain ⟨b, rfl, second, otherMutated⟩ := otherReached.exists_reachable
  refine ⟨a, b, rfl, rfl, first, second, rfl, rfl, ?_⟩
  exact (Bloom.compare_eq_same_iff first.sound second.sound).trans
    (first.sound.bytes_inj second.sound (mutated.trans otherMutated.symm)).symm

end ResultFilter

namespace Bloom

/-- Filters can be merged if and only if they have one size and one mutator, and otherwise stay
what they are. Merging is a join: the outcome has the bits that one or the other has, and is the
least filter that knows all that both know; it does not depend on the order, and merging a filter
into itself changes nothing. So filters of some entries and of some others become the filter of
all of them. Filters compare as the same if and only if they are equal; those of results, if and
only if their bytes are. -/
theorem merge_join {f g : Bloom} (first : f.Reachable) (second : g.Reachable) :
    ((f.merge? g).isSome ↔ f.compare g ≠ .different) ∧
      (f.compare g ≠ .different ↔ f.size = g.size ∧ f.mutator = g.mutator) ∧
      (f.merge? g = none → f.change (.merge g) = f) ∧
      (∀ k, f.merge? g = some k →
        f.change (.merge g) = k ∧ k.size = f.size ∧ k.mutator = f.mutator ∧
        (∀ p, testBit k.bits p = (testBit f.bits p || testBit g.bits p)) ∧
        (∀ e, f.contains e ∨ g.contains e → k.contains e) ∧
        ∀ u, f.Within u → g.Within u → k.Within u) ∧
      f.merge? g = g.merge? f ∧
      (∀ h : Bloom, (f.merge? g).bind (fun k => k.merge? h) =
        (g.merge? h).bind (fun k => f.merge? k)) ∧
      f.merge? f = some f ∧
      (∀ size mutator entries others, 0 < size →
        (filled size mutator entries).merge? (filled size mutator others) =
          some (filled size mutator (entries ++ others))) ∧
      f.compare g = g.compare f ∧ (f.compare g = .same ↔ f = g) ∧
      ∀ F G : ResultFilter, F.Reached → G.Reached →
        ∃ a b : Bloom, F = .seen a ∧ G = .seen b ∧ a.Reachable ∧ b.Reachable ∧
          F.merge? G = (a.merge? b).map .seen ∧ F.compare G = a.compare b ∧
          (F.compare G = .same ↔ F.bytes = G.bytes) := by
  refine ⟨?some, compare_ne_different_iff, ?refused, ?merged,
    merge?_comm first.sound second.sound, fun _ => merge?_assoc first.sound,
    merge?_self first.sound,
    fun _ mutator entries others pos => merge?_filled pos mutator entries others,
    compare_comm f g, compare_eq_same_iff first.sound second.sound,
    fun _ _ => ResultFilter.Reached.compare⟩
  case some =>
    rw [compare_ne_different_iff, Option.isSome_iff_ne_none, ne_eq, merge?_eq_none_iff, not_not]
  case refused =>
    intro refused
    rw [change, refused]
    rfl
  case merged =>
    intro k merged
    obtain ⟨sized, mutators, same⟩ := merge?_eq_some_iff.1 merged
    have alike : f.Alike g := ⟨sized, mutators⟩
    obtain rfl : k = f.union g := same
    refine ⟨congrArg (Option.getD · f) merged, size_union alike, rfl, testBit_union alike,
      fun e known => ?_, fun _ => union_within⟩
    rcases known with known | known
    · exact (within_union alike).contains known
    · rw [union_comm first.sound second.sound alike]
      exact (within_union alike.symm).contains known

theorem merge_join_disjoint :
    let m := some (mutatorOf 42)
    let f := filled 3 m [[1]]
    let g := filled 3 m [[2], [3]]
    let F := (ResultFilter.sized 4 7).add (.test [1])
    let G := ResultFilter.sized 4 7
    f.Reachable ∧ g.Reachable ∧ F.Reached ∧ G.Reached ∧ f.merge? g = g.merge? f ∧
      g.merge? f = some (filled 3 m [[2], [3], [1]]) ∧
      (F.compare G = .same ↔ F.bytes = G.bytes) := by
  intro m f g F G
  have first : f.Reachable := reachable_filled (by decide) 42 [[1]]
  have second : g.Reachable := reachable_filled (by decide) 42 [[2], [3]]
  have initial : G.Reached := .initial (.sized 4 7)
  have added : F.Reached := .add initial (.test [1])
  obtain ⟨-, -, -, -, comm, -, -, joined, -, -, results⟩ := merge_join first second
  obtain ⟨a, b, -, -, -, -, -, -, same⟩ := results F G added initial
  exact ⟨first, second, added, initial, comm, joined 3 m [[2], [3]] [[1]] (by decide), same⟩

end Bloom
end Overlay
