import Overlay.Filter.Peer
import Overlay.Proofs.Filter.Delivery

/-! Filters by how they come about and what is done to them after that. Whatever it is, a filter
keeps its size, and beside its mutator the digest of that mutator, so that it is read back from
what it is written as. Bytes are no filter only if they leave no bits for one. -/
namespace Overlay

namespace PeerFilter

theorem decode_eq_ok_iff {b : Bytes} {f : PeerFilter} :
    decode b = .ok f ↔ b.length = size ∧ Bloom.decode false b = .ok f.bloom := by
  rw [decode]
  split
  · next whole =>
    rw [map_eq_ok_iff]
    constructor
    · rintro ⟨bloom, read, rfl⟩
      exact ⟨whole, read⟩
    · exact fun read => ⟨f.bloom, read.2, rfl⟩
  · next other => simp [other]

/-- Filters of peers are of one size, and nothing else is asked of their bytes. -/
theorem exists_decode_iff {b : Bytes} : (∃ f, decode b = .ok f) ↔ b.length = 128 := by
  constructor
  · rintro ⟨f, read⟩
    exact (decode_eq_ok_iff.1 read).1
  · intro whole
    cases read : Bloom.decode false b with
    | ok bloom => exact ⟨⟨bloom⟩, decode_eq_ok_iff.2 ⟨whole, read⟩⟩
    | error fault =>
      have short := Bloom.exists_decode_error_iff.1 ⟨fault, read⟩
      simp [whole] at short

end PeerFilter

namespace Bloom

/-- The filters that there are at first: new ones with or without a mutator, those that are read,
and those inside filters of peers and of results. -/
inductive Made : Bloom → Prop
  | plain {size : Nat} {f : Bloom} (made : make size none = .ok f) : Made f
  | mutated {size : Nat} {number : UInt32} {f : Bloom}
      (made : make size (some (mutatorOf number)) = .ok f) : Made f
  | decoded {hasMutator : Bool} {b : Bytes} {f : Bloom} (read : decode hasMutator b = .ok f) :
      Made f
  | peers : Made PeerFilter.empty.bloom
  | peersDecoded {b : Bytes} {f : PeerFilter} (read : PeerFilter.decode b = .ok f) : Made f.bloom
  | results {f : Bloom} (initial : (ResultFilter.seen f).Initial) : Made f

theorem made_empty {size : Nat} (pos : 0 < size) (number : UInt32) :
    (empty size (some (mutatorOf number))).Made :=
  .mutated (make_eq_ok_iff.2 ⟨pos, rfl⟩)

theorem sound_of_make {size : Nat} {mutator : Option (Octets 4)} {f : Bloom}
    (made : make size mutator = .ok f) : f.Sound := by
  obtain ⟨pos, rfl⟩ := make_eq_ok_iff.1 made
  exact sound_empty pos mutator

theorem sound_of_decode {hasMutator : Bool} {b : Bytes} {f : Bloom}
    (read : decode hasMutator b = .ok f) : f.Sound :=
  (eq_bytes_of_decode read).2.2

theorem Made.sound {f : Bloom} (made : f.Made) : f.Sound := by
  cases made with
  | plain made => exact sound_of_make made
  | mutated made => exact sound_of_make made
  | decoded read => exact sound_of_decode read
  | peers => exact sound_empty (by decide) none
  | peersDecoded read => exact sound_of_decode (PeerFilter.decode_eq_ok_iff.1 read).2
  | results initial =>
    obtain ⟨bloom, same, usable⟩ := initial.exists_usable
    obtain rfl := ResultFilter.seen.inj same
    exact usable.toSound

/-- What is done to a filter. Any other filter may be merged into it, whether or not that
changes anything. -/
inductive Change where
  | add (entry : Bytes)
  | merge (other : Bloom)
  | setMutator (mutator : Option (Octets 4))
  | setNumber (number : UInt32)

def change (f : Bloom) : Change → Bloom
  | .add entry => f.add entry
  | .merge other => (f.merge? other).getD f
  | .setMutator mutator => f.withMutator mutator
  | .setNumber number => f.withMutator (some (mutatorOf number))

def changeAll (f : Bloom) (changes : List Change) : Bloom := changes.foldl change f

theorem size_change (f : Bloom) (c : Change) : (f.change c).size = f.size := by
  cases c with
  | add entry => exact size_add f entry
  | merge other => exact (within_getD_merge f other).size_eq
  | setMutator mutator => exact size_withMutator f mutator
  | setNumber number => exact size_withMutator f _

theorem Sound.change {f : Bloom} (sound : f.Sound) (c : Change) : (f.change c).Sound := by
  cases c with
  | add entry => exact sound.add entry
  | merge other => exact sound.of_within (within_getD_merge f other)
  | setMutator mutator => exact sound_withMutator sound.pos mutator
  | setNumber number => exact sound_withMutator sound.pos _

theorem size_changeAll (f : Bloom) (changes : List Change) :
    (f.changeAll changes).size = f.size := by
  induction changes generalizing f with
  | nil => rfl
  | cons c changes ih => exact (ih (f.change c)).trans (size_change f c)

theorem Sound.changeAll {f : Bloom} (sound : f.Sound) (changes : List Change) :
    (f.changeAll changes).Sound := by
  induction changes generalizing f with
  | nil => exact sound
  | cons c changes ih => exact ih (sound.change c)

/-- What has become of the filters that there are at first. -/
def Reachable (f : Bloom) : Prop :=
  ∃ (start : Bloom) (changes : List Change), start.Made ∧ start.changeAll changes = f

theorem Made.reachable {f : Bloom} (made : f.Made) : f.Reachable := ⟨f, [], made, rfl⟩

theorem Reachable.sound {f : Bloom} (reached : f.Reachable) : f.Sound := by
  obtain ⟨start, changes, made, rfl⟩ := reached
  exact made.sound.changeAll changes

theorem Reachable.change {f : Bloom} (reached : f.Reachable) (c : Change) :
    (f.change c).Reachable := by
  obtain ⟨start, changes, made, rfl⟩ := reached
  exact ⟨start, changes ++ [c], made, List.foldl_concat ..⟩

theorem reachable_filled {size : Nat} (pos : 0 < size) (number : UInt32) (entries : List Bytes) :
    (filled size (some (mutatorOf number)) entries).Reachable :=
  ⟨empty size _, entries.map .add, made_empty pos number, List.foldl_map⟩

/-- Whatever is done to a filter, it keeps the size that it began with, which is not zero, and the
digest that it keeps is the one of its mutator, if it has one. So it is read back from what it is
written as, and answers as before. What is read as a filter is the one way to write it, and bytes
are refused only if they leave no bits; those of a filter of peers have one length. -/
theorem changeAll_read_back {start : Bloom} (made : start.Made) (changes : List Change) :
    let f := start.changeAll changes
    0 < f.size ∧ f.size = start.size ∧
      f.mutatorDigest = f.mutator.map (fun m => ⟨Sha512.hash m.bytes⟩) ∧
      (∃ g, decode f.mutator.isSome f.bytes = .ok g ∧ g = f ∧
        ∀ entry, g.contains entry = f.contains entry) ∧
      (∀ hasMutator b g, decode hasMutator b = .ok g →
        g.bytes = b ∧ g.mutator.isSome = hasMutator) ∧
      (∀ hasMutator b, (∃ fault, decode hasMutator b = .error fault) ↔
        b.length ≤ if hasMutator then 4 else 0) ∧
      ∀ b, (∃ g, PeerFilter.decode b = .ok g) ↔ b.length = 128 := by
  intro f
  have sound : f.Sound := made.sound.changeAll changes
  refine ⟨sound.pos, size_changeAll start changes, sound.mutatorDigest_eq,
    ⟨f, decode_bytes sound, rfl, fun _ => rfl⟩, ?read, fun _ _ => exists_decode_error_iff,
    fun _ => PeerFilter.exists_decode_iff⟩
  case read =>
    intro hasMutator b g read
    obtain ⟨whole, flagged, -⟩ := eq_bytes_of_decode read
    exact ⟨whole.symm, flagged⟩

/-- Another size does not get in, and a mutator that is set at the end is written. -/
theorem changeAll_read_back_mutated :
    let start := empty 3 (some (mutatorOf 7))
    let f := start.changeAll [.add [1], .setMutator none, .merge (empty 3 none),
      .merge (empty 4 none), .add [2], .setNumber 9]
    start.Made ∧ f.size = 3 ∧ f.mutatorDigest = some (.of [0, 0, 0, 9]) ∧
      decode true f.bytes = .ok f := by
  intro start f
  have made : start.Made := made_empty (by decide) 7
  obtain ⟨-, sized, digest, ⟨g, read, same, -⟩, -⟩ := changeAll_read_back made
    [.add [1], .setMutator none, .merge (empty 3 none), .merge (empty 4 none), .add [2],
      .setNumber 9]
  exact ⟨made, sized, digest, read.trans (congrArg Except.ok same)⟩

end Bloom
end Overlay
