import Mathlib.Data.Finset.Card
import Mathlib.Data.Finset.Union
import Mathlib.Data.Fintype.Basic
import Mathlib.Data.Nat.Bitwise
import Overlay.Filter.Bloom
import Overlay.Proofs.Except
import Overlay.Proofs.Octets.Slice

/-! Bloom filters as sets of positions. The bits of a filter are the positions of what was
added to it, and nothing else of an order or a number of additions is left in them. -/
namespace Overlay.Bloom

theorem toNat_mask (position : Nat) : (mask position).toNat = 2 ^ (position % 8) := by
  have each : ∀ r < 8, ((1 : UInt8) <<< UInt8.ofNat r).toNat = 2 ^ r := by decide
  exact each (position % 8) (Nat.mod_lt _ (by decide))

/-- Positions count the bits of a byte from the least significant one. -/
theorem testBit_eq (bits : Bytes) (position : Nat) :
    testBit bits position = (bits.getD (position / 8) 0).toNat.testBit (position % 8) := by
  have zero_iff (x : UInt8) : x = 0 ↔ x.toNat = 0 := UInt8.toNat_inj.symm
  rw [Bool.eq_iff_iff, testBit, bne_iff_ne, ne_eq, zero_iff, UInt8.toNat_and, toNat_mask,
    Nat.and_two_pow]
  cases (bits.getD (position / 8) 0).toNat.testBit (position % 8) <;> simp

@[simp] theorem length_setBit (bits : Bytes) (position : Nat) :
    (setBit bits position).length = bits.length := by
  simp [setBit]

theorem testBit_setBit {bits : Bytes} {position : Nat} (inside : position < 8 * bits.length)
    (other : Nat) :
    testBit (setBit bits position) other = (testBit bits other || decide (other = position)) := by
  have byte : position / 8 < bits.length := by omega
  rw [testBit_eq, testBit_eq, setBit, List.getD_eq_getElem?_getD, List.getD_eq_getElem?_getD,
    List.getElem?_modify]
  by_cases same : position / 8 = other / 8
  · rw [same] at byte
    have bit : decide (position % 8 = other % 8) = decide (other = position) := by
      congr 1
      rw [eq_iff_iff]
      omega
    simp only [same, if_true, List.getElem?_eq_getElem byte, Option.map_eq_map, Option.map_some,
      Option.getD_some, UInt8.toNat_or, toNat_mask, Nat.testBit_or, Nat.testBit_two_pow, bit]
  · have apart : other ≠ position := by
      rintro rfl
      exact same rfl
    simp [same, apart]

@[simp] theorem length_foldl_setBit (positions : List Nat) (bits : Bytes) :
    (positions.foldl setBit bits).length = bits.length := by
  induction positions generalizing bits with
  | nil => rfl
  | cons position positions ih => rw [List.foldl_cons, ih, length_setBit]

theorem testBit_foldl_setBit {positions : List Nat} {bits : Bytes}
    (inside : ∀ position ∈ positions, position < 8 * bits.length) (other : Nat) :
    testBit (positions.foldl setBit bits) other ↔ testBit bits other ∨ other ∈ positions := by
  induction positions generalizing bits with
  | nil => simp
  | cons position positions ih =>
    obtain ⟨first, rest⟩ := List.forall_mem_cons.1 inside
    rw [List.foldl_cons, ih (by simpa using rest), testBit_setBit first]
    simp [or_assoc]

private theorem bits_eq_of_testBit {bits others : Bytes} (sized : bits.length = others.length)
    (same : ∀ position, testBit bits position = testBit others position) : bits = others := by
  apply List.ext_getElem sized
  intro k inside otherInside
  apply UInt8.toNat_inj.1
  apply Nat.eq_of_testBit_eq
  intro i
  by_cases low : i < 8
  · have atPosition := same (8 * k + i)
    have quotient : (8 * k + i) / 8 = k := by omega
    have remainder : (8 * k + i) % 8 = i := by omega
    simpa [testBit_eq, quotient, remainder, inside, otherInside] using atPosition
  · have high (x : UInt8) : x.toNat.testBit i = false := by
      apply Nat.testBit_lt_two_pow
      exact Nat.lt_of_lt_of_le x.toNat_lt (Nat.pow_le_pow_right (by decide) (by omega))
    rw [high, high]

theorem testBit_zipWith_or {bits others : Bytes} (sized : bits.length = others.length)
    (position : Nat) :
    testBit (List.zipWith (· ||| ·) bits others) position =
      (testBit bits position || testBit others position) := by
  have byte : (List.zipWith (· ||| ·) bits others).getD (position / 8) 0 =
      bits.getD (position / 8) 0 ||| others.getD (position / 8) 0 := by
    simp only [List.getD_eq_getElem?_getD, List.getElem?_zipWith]
    by_cases inside : position / 8 < bits.length
    · simp [inside, sized ▸ inside]
    · simp [not_lt.1 inside, sized ▸ not_lt.1 inside]
  rw [testBit_eq, byte, UInt8.toNat_or, Nat.testBit_or, ← testBit_eq, ← testBit_eq]

/-- There are bits in a filter, and the digest that it keeps is that of its mutator. -/
structure Sound (f : Bloom) : Prop where
  pos : 0 < f.size
  mutatorDigest_eq : f.mutatorDigest = f.mutator.map fun m => Digest.of m.bytes

theorem Sound.eq_iff {f g : Bloom} (sound : f.Sound) (otherSound : g.Sound) :
    f = g ↔ f.mutator = g.mutator ∧ f.bits = g.bits := by
  constructor
  · rintro rfl
    exact ⟨rfl, rfl⟩
  · rintro ⟨mutators, bits⟩
    refine Bloom.ext bits mutators ?_
    rw [sound.mutatorDigest_eq, otherSound.mutatorDigest_eq, mutators]

/-- Filters of one size and mutator are told apart by their positions. -/
theorem Sound.eq_of_testBit {f g : Bloom} (sound : f.Sound) (otherSound : g.Sound)
    (sized : f.size = g.size) (mutators : f.mutator = g.mutator)
    (same : ∀ position, testBit f.bits position = testBit g.bits position) : f = g :=
  (sound.eq_iff otherSound).2 ⟨mutators, bits_eq_of_testBit sized same⟩

/-- The ones of bytes are counted position by position. -/
theorem sum_onesOf (bits : Bytes) :
    (bits.map onesOf).sum = (List.range (8 * bits.length)).countP (testBit bits) := by
  induction bits with
  | nil => rfl
  | cons b bits ih =>
    have front : (List.range 8).countP (testBit (b :: bits)) = onesOf b := by
      rw [onesOf, ← List.countP_eq_length_filter]
      apply List.countP_congr
      intro p inside
      have low : p < 8 := List.mem_range.1 inside
      simp [testBit_eq, Nat.div_eq_of_lt low, Nat.mod_eq_of_lt low]
    have back : testBit (b :: bits) ∘ (8 + ·) = testBit bits := by
      funext p
      simp [testBit_eq, Nat.add_comm 8 p, Nat.add_div_right]
    have length : 8 * (b :: bits).length = 8 + 8 * bits.length := by
      rw [List.length_cons]
      omega
    rw [List.map_cons, List.sum_cons, length, List.range_add, List.countP_append,
      List.countP_map, front, back, ih]

theorem countOnes_eq_countP (f : Bloom) :
    f.countOnes = (List.range (8 * f.size)).countP (testBit f.bits) := by
  rw [size, ← sum_onesOf, List.sum_eq_foldl, List.foldl_map]
  rfl

theorem quads_eq (b : Bytes) :
    quads b = (List.range (b.length / 4)).map fun i =>
      BigEndian.decode ((b.drop (4 * i)).take 4) := by
  fun_induction quads b with
  | case1 w x y z rest ih =>
    have longer : (w :: x :: y :: z :: rest).length / 4 = rest.length / 4 + 1 := by
      simp only [List.length_cons]
      omega
    rw [longer, List.range_succ_eq_map, List.map_cons, List.map_map, ih]
    rfl
  | case2 b short =>
    have none : b.length / 4 = 0 := by
      rcases b with _ | ⟨w, _ | ⟨x, _ | ⟨y, _ | ⟨z, rest⟩⟩⟩⟩
      case cons.cons.cons.cons => exact absurd rfl (short w x y z rest)
      all_goals simp
    rw [none]
    rfl

/-- The positions that an entry has in filters of a size and a mutator: the sixteen words of
its digest, with that of the mutator laid over it, as far as the filter goes. -/
def indices (size : Nat) (mutator : Option (Octets 4)) (entry : Bytes) : Finset Nat :=
  let digest := mutator.elim (Sha512.hash entry) fun m =>
    (Sha512.hash entry).xor (Sha512.hash m.bytes)
  (Finset.range 16).image fun i =>
    BigEndian.decode ((digest.bytes.drop (4 * i)).take 4) % (8 * size)

theorem lt_of_mem_indices {size : Nat} {mutator : Option (Octets 4)} {entry : Bytes}
    {position : Nat} (pos : 0 < size) (found : position ∈ indices size mutator entry) :
    position < 8 * size := by
  obtain ⟨i, -, rfl⟩ := Finset.mem_image.1 found
  exact Nat.mod_lt _ (by omega)

theorem Sound.mem_positions_iff {f : Bloom} (sound : f.Sound) {entry : Bytes} {position : Nat} :
    position ∈ f.positions entry ↔ position ∈ indices f.size f.mutator entry := by
  have seen : f.entryDigest entry = f.mutator.elim (Sha512.hash entry) fun m =>
      (Sha512.hash entry).xor (Sha512.hash m.bytes) := by
    rw [entryDigest, sound.mutatorDigest_eq]
    cases f.mutator <;> rfl
  rw [positions, quads_eq, Octets.length_bytes, List.map_map, seen, indices, Finset.mem_image,
    List.mem_map]
  simp only [List.mem_range, Finset.mem_range]
  rfl

theorem lt_of_mem_positions {f : Bloom} (pos : 0 < f.size) {entry : Bytes} {position : Nat}
    (found : position ∈ f.positions entry) : position < 8 * f.size := by
  obtain ⟨word, -, rfl⟩ := List.mem_map.1 found
  exact Nat.mod_lt _ (by omega)

/-- Where an entry is placed depends on the size and the digest that is kept. -/
theorem positions_congr {f g : Bloom} (sized : g.size = f.size)
    (digests : g.mutatorDigest = f.mutatorDigest) (entry : Bytes) :
    g.positions entry = f.positions entry := by
  rw [positions, positions, entryDigest, entryDigest, sized, digests]

@[simp] theorem size_withMutator (f : Bloom) (mutator : Option (Octets 4)) :
    (f.withMutator mutator).size = f.size := rfl

theorem sound_withMutator {f : Bloom} (pos : 0 < f.size) (mutator : Option (Octets 4)) :
    (f.withMutator mutator).Sound :=
  ⟨pos, rfl⟩

@[simp] theorem size_empty (size : Nat) (mutator : Option (Octets 4)) :
    (empty size mutator).size = size :=
  List.length_replicate

theorem sound_empty {size : Nat} (pos : 0 < size) (mutator : Option (Octets 4)) :
    (empty size mutator).Sound :=
  ⟨by rwa [size_empty], rfl⟩

theorem testBit_empty (size : Nat) (mutator : Option (Octets 4)) (position : Nat) :
    testBit (empty size mutator).bits position = false := by
  have zero : (List.replicate size (0 : UInt8)).getD (position / 8) 0 = 0 := by
    rw [List.getD_eq_getElem?_getD, List.getElem?_replicate]
    split <;> rfl
  rw [testBit_eq, empty, withMutator, zero]
  exact Nat.zero_testBit _

@[simp] theorem size_add (f : Bloom) (entry : Bytes) : (f.add entry).size = f.size :=
  length_foldl_setBit ..

@[simp] theorem mutator_add (f : Bloom) (entry : Bytes) : (f.add entry).mutator = f.mutator := rfl

theorem Sound.add {f : Bloom} (sound : f.Sound) (entry : Bytes) : (f.add entry).Sound :=
  ⟨by simpa using sound.pos, sound.mutatorDigest_eq⟩

theorem testBit_add {f : Bloom} (pos : 0 < f.size) (entry : Bytes) (position : Nat) :
    testBit (f.add entry).bits position ↔
      testBit f.bits position ∨ position ∈ f.positions entry :=
  testBit_foldl_setBit (fun _ found => lt_of_mem_positions pos found) position

theorem contains_iff {f : Bloom} {entry : Bytes} :
    f.contains entry ↔ ∀ p ∈ f.positions entry, testBit f.bits p := by
  rw [contains, List.all_eq_true]

/-- A filter that knows all that another one knows, and places every entry as that does. -/
structure Within (f g : Bloom) : Prop where
  size_eq : g.size = f.size
  mutator_eq : g.mutator = f.mutator
  mutatorDigest_eq : g.mutatorDigest = f.mutatorDigest
  testBit_of_testBit : ∀ position, testBit f.bits position → testBit g.bits position

theorem Within.refl (f : Bloom) : f.Within f := ⟨rfl, rfl, rfl, fun _ => id⟩

theorem Within.trans {f g h : Bloom} (first : f.Within g) (second : g.Within h) : f.Within h :=
  ⟨second.size_eq.trans first.size_eq, second.mutator_eq.trans first.mutator_eq,
    second.mutatorDigest_eq.trans first.mutatorDigest_eq,
    fun position => second.testBit_of_testBit position ∘ first.testBit_of_testBit position⟩

theorem Within.contains {f g : Bloom} (within : f.Within g) {entry : Bytes}
    (known : f.contains entry) : g.contains entry := by
  rw [contains_iff] at known ⊢
  rw [positions_congr within.size_eq within.mutatorDigest_eq]
  exact fun p found => within.testBit_of_testBit p (known p found)

theorem Sound.of_within {f g : Bloom} (sound : f.Sound) (within : f.Within g) : g.Sound where
  pos := within.size_eq ▸ sound.pos
  mutatorDigest_eq := by
    rw [within.mutatorDigest_eq, within.mutator_eq]
    exact sound.mutatorDigest_eq

theorem within_add {f : Bloom} (pos : 0 < f.size) (entry : Bytes) : f.Within (f.add entry) :=
  ⟨size_add f entry, mutator_add f entry, rfl, fun p set => (testBit_add pos entry p).2 (.inl set)⟩

theorem contains_add {f : Bloom} (pos : 0 < f.size) (entry : Bytes) :
    (f.add entry).contains entry := by
  rw [contains_iff, positions_congr (size_add f entry) rfl]
  exact fun p found => (testBit_add pos entry p).2 (.inr found)

theorem merge?_eq_some_iff {f g h : Bloom} :
    f.merge? g = some h ↔ f.size = g.size ∧ f.mutator = g.mutator ∧
      h = { f with bits := List.zipWith (· ||| ·) f.bits g.bits } := by
  rw [merge?, Option.ite_none_right_eq_some, compatible, Bool.and_eq_true, beq_iff_eq, beq_iff_eq,
    Option.some_inj, and_assoc, eq_comm (a := h)]

theorem within_merge {f g h : Bloom} (merged : f.merge? g = some h) : f.Within h := by
  obtain ⟨sized, -, rfl⟩ := merge?_eq_some_iff.1 merged
  refine ⟨?size, rfl, rfl, fun p set => ?_⟩
  case size => exact (List.length_zipWith ..).trans (Nat.min_eq_left (Nat.le_of_eq sized))
  rw [testBit_zipWith_or sized, set, Bool.true_or]

theorem within_getD_merge (f g : Bloom) : f.Within ((f.merge? g).getD f) := by
  cases merged : f.merge? g with
  | none => exact .refl f
  | some h => exact within_merge merged

theorem make_eq_ok_iff {size : Nat} {mutator : Option (Octets 4)} {f : Bloom} :
    make size mutator = .ok f ↔ 0 < size ∧ f = empty size mutator := by
  unfold make
  split <;> simp [Nat.pos_iff_ne_zero, eq_comm, *]

theorem make_eq_error_iff {size : Nat} {mutator : Option (Octets 4)} {fault : FilterError} :
    make size mutator = .error fault ↔ size = 0 ∧ fault = .invalidSize 0 := by
  unfold make
  split
  · next none =>
    subst none
    simp [eq_comm]
  · next some => simp [some]

private theorem make_with_bits_eq_ok_iff {bits : Bytes} {mutator : Option (Octets 4)} {f : Bloom} :
    (do let g ← make bits.length none; return { g with bits }.withMutator mutator :
        Except FilterError Bloom) = .ok f ↔
      f.Sound ∧ f.mutator = mutator ∧ f.bits = bits := by
  rw [bind_eq_ok_iff]
  simp only [make_eq_ok_iff]
  constructor
  · rintro ⟨g, ⟨nonempty, rfl⟩, whole⟩
    obtain rfl := Except.ok.inj whole
    exact ⟨⟨nonempty, rfl⟩, rfl, rfl⟩
  · rintro ⟨sound, rfl, rfl⟩
    refine ⟨empty f.bits.length none, ⟨sound.pos, rfl⟩, congrArg Except.ok ?_⟩
    exact (Sound.eq_iff (sound_withMutator sound.pos f.mutator) sound).2 ⟨rfl, rfl⟩

private theorem make_with_bits_eq_error_iff {bits : Bytes} {mutator : Option (Octets 4)}
    {fault : FilterError} :
    (do let g ← make bits.length none; return { g with bits }.withMutator mutator :
        Except FilterError Bloom) = .error fault ↔
      bits.length = 0 ∧ fault = .invalidSize 0 := by
  simp [bind_eq_error_iff, make_eq_error_iff, pure, Except.pure]

/-- A filter is read back from what it is written as. -/
theorem decode_bytes {f : Bloom} (sound : f.Sound) : decode f.mutator.isSome f.bytes = .ok f := by
  cases mutator : f.mutator with
  | none =>
    rw [bytes, mutator]
    exact make_with_bits_eq_ok_iff.2 ⟨sound, mutator, rfl⟩
  | some m =>
    have long : 4 ≤ (m.bytes ++ f.bits).length := by simp
    have front : Octets.slice (m.bytes ++ f.bits) 0 4 long = m :=
      Octets.slice_eq_of_take_drop (by simp)
    have back : (m.bytes ++ f.bits).drop 4 = f.bits := List.drop_left' m.length_bytes
    simp only [decode, bytes, mutator, Option.isSome_some, if_true, Option.map_some,
      Option.getD_some, dif_pos long, front, back]
    exact make_with_bits_eq_ok_iff.2 ⟨sound, mutator, rfl⟩

/-- Whatever a filter is read from is what it is written as, and the filter is sound. -/
theorem eq_bytes_of_decode {hasMutator : Bool} {b : Bytes} {f : Bloom}
    (read : decode hasMutator b = .ok f) :
    b = f.bytes ∧ f.mutator.isSome = hasMutator ∧ f.Sound := by
  unfold decode at read
  dsimp only at read
  split at read
  · next flagged =>
    split at read
    · next long =>
      obtain ⟨sound, mutator, bits⟩ := make_with_bits_eq_ok_iff.1 read
      refine ⟨?_, by rw [mutator, flagged]; rfl, sound⟩
      rw [bytes, mutator, bits]
      exact (List.take_append_drop 4 b).symm
    · contradiction
  · next unflagged =>
    obtain ⟨sound, mutator, bits⟩ := make_with_bits_eq_ok_iff.1 read
    refine ⟨?_, by rw [mutator, Bool.eq_false_of_not_eq_true unflagged]; rfl, sound⟩
    rw [bytes, mutator, bits]
    rfl

/-- Bytes are no filter if they are too few for a mutator, or if they leave no bits. -/
theorem decode_eq_error_iff {hasMutator : Bool} {b : Bytes} {fault : FilterError} :
    decode hasMutator b = .error fault ↔
      (hasMutator ∧ b.length < 4 ∧ fault = .tooShort b.length) ∨
        b.length = (if hasMutator then 4 else 0) ∧ fault = .invalidSize 0 := by
  unfold decode
  dsimp only
  split
  · next flagged =>
    split
    · next long =>
      have left : (b.drop 4).length = 0 ↔ b.length = 4 := by
        rw [List.length_drop]
        omega
      refine make_with_bits_eq_error_iff.trans ?_
      rw [left]
      simp [flagged, Nat.not_lt.2 long]
    · next short =>
      have other : b.length ≠ 4 := by omega
      change (.error (.tooShort b.length) : Except FilterError Bloom) = .error fault ↔ _
      simp [flagged, other, Nat.not_le.1 short, eq_comm]
  · next unflagged =>
    refine make_with_bits_eq_error_iff.trans ?_
    simp [unflagged]

theorem exists_decode_error_iff {hasMutator : Bool} {b : Bytes} :
    (∃ fault, decode hasMutator b = .error fault) ↔ b.length ≤ if hasMutator then 4 else 0 := by
  simp only [decode_eq_error_iff, exists_or, ← and_assoc, exists_and_left, exists_eq, and_true]
  cases hasMutator with
  | false => simp
  | true =>
    simp only [true_and, if_true]
    omega

@[simp] theorem size_foldl_add (entries : List Bytes) (f : Bloom) :
    (entries.foldl add f).size = f.size := by
  induction entries generalizing f with
  | nil => rfl
  | cons e entries ih => rw [List.foldl_cons, ih, size_add]

@[simp] theorem mutator_foldl_add (entries : List Bytes) (f : Bloom) :
    (entries.foldl add f).mutator = f.mutator := by
  induction entries generalizing f with
  | nil => rfl
  | cons e entries ih => rw [List.foldl_cons, ih, mutator_add]

theorem Sound.foldl_add {f : Bloom} (sound : f.Sound) (entries : List Bytes) :
    (entries.foldl Bloom.add f).Sound := by
  induction entries generalizing f with
  | nil => exact sound
  | cons e entries ih => exact ih (sound.add e)

theorem testBit_foldl_add {f : Bloom} (sound : f.Sound) (entries : List Bytes)
    (position : Nat) :
    testBit (entries.foldl add f).bits position ↔
      testBit f.bits position ∨ ∃ e ∈ entries, position ∈ indices f.size f.mutator e := by
  induction entries generalizing f with
  | nil => simp
  | cons e entries ih =>
    rw [List.foldl_cons, ih (sound.add e), testBit_add sound.pos, sound.mem_positions_iff]
    simp [or_assoc]

def filled (size : Nat) (mutator : Option (Octets 4)) (entries : List Bytes) : Bloom :=
  entries.foldl add (empty size mutator)

section Filled
variable {size : Nat} (mutator : Option (Octets 4)) (entries : List Bytes)

theorem size_filled : (filled size mutator entries).size = size := by simp [filled]

theorem mutator_filled : (filled size mutator entries).mutator = mutator := by
  simp [filled, empty, withMutator]

variable (pos : 0 < size)
include pos

theorem sound_filled : (filled size mutator entries).Sound :=
  (sound_empty pos mutator).foldl_add entries

theorem testBit_filled (position : Nat) :
    testBit (filled size mutator entries).bits position ↔
      ∃ e ∈ entries, position ∈ indices size mutator e := by
  rw [filled, testBit_foldl_add (sound_empty pos mutator), testBit_empty, size_empty]
  simp [empty, withMutator]

theorem contains_filled (entry : Bytes) :
    (filled size mutator entries).contains entry ↔
      ∀ p ∈ indices size mutator entry, ∃ e ∈ entries, p ∈ indices size mutator e := by
  simp only [contains_iff, (sound_filled mutator entries pos).mem_positions_iff, size_filled,
    mutator_filled, testBit_filled mutator entries pos]

/-- A filter is left the same by every list of the same entries. -/
theorem filled_eq_of_mem_iff {others : List Bytes} (same : ∀ e, e ∈ others ↔ e ∈ entries) :
    filled size mutator others = filled size mutator entries := by
  apply (sound_filled mutator others pos).eq_of_testBit (sound_filled mutator entries pos)
  · rw [size_filled, size_filled]
  · rw [mutator_filled, mutator_filled]
  · intro position
    rw [Bool.eq_iff_iff, testBit_filled mutator others pos, testBit_filled mutator entries pos]
    simp only [same]

theorem countOnes_filled :
    (filled size mutator entries).countOnes =
      (entries.toFinset.biUnion (indices size mutator)).card := by
  have ones : ((List.range (8 * size)).filter
      (testBit (filled size mutator entries).bits)).toFinset =
        entries.toFinset.biUnion (indices size mutator) := by
    ext position
    simp only [List.mem_toFinset, List.mem_filter, List.mem_range, Finset.mem_biUnion,
      testBit_filled mutator entries pos]
    refine and_iff_right_of_imp ?_
    rintro ⟨e, -, found⟩
    exact lt_of_mem_indices pos found
  rw [countOnes_eq_countP, size_filled, List.countP_eq_length_filter, ← ones,
    List.toFinset_card_of_nodup (List.nodup_range.filter _)]

end Filled

/-- Every bit of a filter is accounted for by what was added to it: it is set if and only if
it is at a position of one of the entries. So an entry is taken for present if and only if each
of its positions is one of those, in particular if it was added; order and repetitions of the
additions leave no trace, and the ones are as many as there are different positions. -/
theorem filled_exact {size : Nat} (pos : 0 < size) (mutator : Option (Octets 4))
    (entries : List Bytes) :
    make size mutator = .ok (empty size mutator) ∧
      (∀ j, (filled size mutator entries).bits.getD (j / 8) 0 &&& 1 <<< UInt8.ofNat (j % 8) ≠ 0 ↔
        ∃ e ∈ entries, j ∈ indices size mutator e) ∧
      (∀ x, (filled size mutator entries).contains x ↔
        ∀ j ∈ indices size mutator x, ∃ e ∈ entries, j ∈ indices size mutator e) ∧
      (∀ x ∈ entries, (filled size mutator entries).contains x) ∧
      (∀ others, (∀ e, e ∈ others ↔ e ∈ entries) →
        filled size mutator others = filled size mutator entries) ∧
      (filled size mutator entries).countOnes =
        (entries.toFinset.biUnion (indices size mutator)).card ∧
      (filled size mutator entries).size = size ∧
      ∀ x, ∀ j ∈ indices size mutator x, j < 8 * size := by
  refine ⟨if_neg pos.ne', ?bits, contains_filled mutator entries pos, ?added,
    fun _ => filled_eq_of_mem_iff mutator entries pos, countOnes_filled mutator entries pos,
    size_filled mutator entries, fun _ _ => lt_of_mem_indices pos⟩
  case bits =>
    intro j
    rw [← testBit_filled mutator entries pos j, testBit, bne_iff_ne, mask]
  case added =>
    intro x member
    exact (contains_filled mutator entries pos x).2 fun j found => ⟨x, member, found⟩

theorem filled_exact_repeated :
    let m : Octets 4 := ⟨[0, 0, 0, 42], rfl⟩
    0 < 3 ∧ (filled 3 (some m) [[1], [2], [1]]).contains [2] = true ∧
      filled 3 (some m) [[2], [1]] = filled 3 (some m) [[1], [2], [1]] ∧
      (filled 3 (some m) [[1], [2], [1]]).countOnes =
        (indices 3 (some m) [1] ∪ indices 3 (some m) [2]).card := by
  intro m
  obtain ⟨-, -, -, added, same, ones, -⟩ :=
    filled_exact (by decide : 0 < 3) (some m) [[1], [2], [1]]
  refine ⟨by decide, added [2] (by decide), same _ (by simp [or_comm]), ?_⟩
  have union : ([[1], [2], [1]] : List Bytes).toFinset.biUnion (indices 3 (some m)) =
      indices 3 (some m) [1] ∪ indices 3 (some m) [2] := by
    ext j
    simp [or_comm]
  rw [ones, union]

end Overlay.Bloom
