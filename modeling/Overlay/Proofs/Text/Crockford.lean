import Mathlib.Data.List.GetD
import Overlay.Proofs.Except
import Overlay.Proofs.Text.Bits
import Overlay.Text.Crockford

/-! Base 32 spells every byte string in a way that it is read from, and every text that is
read stands for that spelling character by character. -/
namespace Overlay.Text.Crockford

theorem idxOf_symbol : ∀ digit < 32, alphabet.idxOf (symbol digit) = digit := by
  decide

theorem symbol_mem_alphabet : ∀ digit < 32, symbol digit ∈ alphabet := by
  decide

theorem length_bits (data : Bytes) :
    (data.flatMap fun b => Bits.ofNat 8 b.toNat).length = 8 * data.length := by
  simp [List.length_flatMap, List.map_const', Nat.mul_comm]

theorem length_digitBits (cs : List Char) :
    (cs.flatMap fun c => Bits.ofNat 5 (alphabet.idxOf c)).length = 5 * cs.length := by
  simp [List.length_flatMap, List.map_const', Nat.mul_comm]

theorem encodeChars_eq (data : Bytes) :
    ∃ digits : List Nat, (∀ digit ∈ digits, digit < 32) ∧ encodeChars data = digits.map symbol ∧
      digits.length = (8 * data.length + 4) / 5 ∧
      digits.flatMap (Bits.ofNat 5) =
        (data.flatMap fun b => Bits.ofNat 8 b.toNat) ++ Bits.filling (8 * data.length) := by
  refine ⟨Bits.fives (data.flatMap fun b => Bits.ofNat 8 b.toNat),
    fun digit member => Bits.lt_of_mem_fives member, ?spelled, ?length, ?bits⟩
  case spelled => rw [encodeChars]
  case length => rw [Bits.length_fives, length_bits]
  case bits => rw [Bits.flatMap_fives, length_bits]

theorem length_encodeChars (data : Bytes) :
    (encodeChars data).length = (8 * data.length + 4) / 5 := by
  obtain ⟨digits, -, spelled, length, -⟩ := encodeChars_eq data
  rw [spelled, List.length_map, length]

theorem mem_alphabet_of_mem_encodeChars {data : Bytes} {c : Char} (member : c ∈ encodeChars data) :
    c ∈ alphabet := by
  obtain ⟨digits, small, spelled, -⟩ := encodeChars_eq data
  rw [spelled] at member
  obtain ⟨digit, digitMember, rfl⟩ := List.mem_map.1 member
  exact symbol_mem_alphabet digit (small digit digitMember)

theorem flatMap_idxOf_map_symbol {digits : List Nat} (small : ∀ digit ∈ digits, digit < 32) :
    ((digits.map symbol).flatMap fun c => Bits.ofNat 5 (alphabet.idxOf c)) =
      digits.flatMap (Bits.ofNat 5) := by
  rw [List.flatMap_map]
  apply List.flatMap_congr
  intro digit member
  rw [idxOf_symbol digit (small digit member)]

theorem decodeNormal_encodeChars (data : Bytes) : decodeNormal (encodeChars data) = .ok data := by
  obtain ⟨digits, small, spelled, length, bits⟩ := encodeChars_eq data
  have short : (Bits.filling (8 * data.length)).length < 8 := by
    rw [Bits.filling, List.length_replicate]
    omega
  have whole : ¬ digits.length % 8 ∈ [1, 3, 6] := by
    simp only [List.mem_cons, List.not_mem_nil, or_false, length]
    omega
  have zeros : (Bits.filling (8 * data.length)).any id = false := by
    simp [Bits.filling]
  rw [spelled]
  simp only [decodeNormal, flatMap_idxOf_map_symbol small, bits,
    Bits.bytes_flatMap data short, List.length_map, if_neg whole, zeros, Bool.false_eq_true,
    if_false]

theorem symbol_idxOf {c : Char} (member : c ∈ alphabet) : symbol (alphabet.idxOf c) = c := by
  have inside : alphabet.idxOf c < alphabet.length := List.idxOf_lt_length_of_mem member
  rw [symbol, List.getD_eq_getElem _ _ inside, List.getElem_idxOf]

/-- The unused bits are those that writing fills up with zeros: a text that leaves five bits
or more over has a character too many. -/
theorem eq_filling {size : Nat} {left : List Bool} {characters : Nat}
    (total : 5 * characters = 8 * size + left.length) (short : left.length < 8)
    (whole : characters % 8 ∉ [1, 3, 6]) (zeros : left.any id = false) :
    left = Bits.filling (8 * size) := by
  have few : left.length < 5 := by
    simp only [List.mem_cons, List.not_mem_nil, or_false] at whole
    have last : characters % 8 = 0 ∨ characters % 8 = 2 ∨ characters % 8 = 4 ∨
        characters % 8 = 5 ∨ characters % 8 = 7 := by omega
    rcases last with none | two | four | five | seven <;> omega
  have sized : left.length = (5 - 8 * size % 5) % 5 := by omega
  rw [Bits.filling, ← sized]
  apply List.eq_replicate_of_mem
  intro bit member
  simpa using List.any_eq_false.1 zeros bit member

/-- A text whose digits hold the bits of the data and zeros after them is what the data is
written as, since digits are told apart by their bits. -/
theorem eq_encodeChars_of_bits {cs : List Char} {data : Bytes}
    (inAlphabet : ∀ c ∈ cs, c ∈ alphabet)
    (bits : (cs.flatMap fun c => Bits.ofNat 5 (alphabet.idxOf c)) =
      (data.flatMap fun b => Bits.ofNat 8 b.toNat) ++ Bits.filling (8 * data.length)) :
    cs = encodeChars data := by
  have small : ∀ digit ∈ cs.map alphabet.idxOf, digit < 32 := by
    intro digit member
    obtain ⟨c, inText, rfl⟩ := List.mem_map.1 member
    exact List.idxOf_lt_length_of_mem (inAlphabet c inText)
  have same : (cs.map alphabet.idxOf).flatMap (Bits.ofNat 5) =
      (Bits.fives (data.flatMap fun b => Bits.ofNat 8 b.toNat)).flatMap (Bits.ofNat 5) := by
    rw [List.flatMap_map, bits, Bits.flatMap_fives, length_bits]
  have digits : cs.map alphabet.idxOf =
      Bits.fives (data.flatMap fun b => Bits.ofNat 8 b.toNat) := by
    rw [← Bits.fives_flatMap small, same, Bits.fives_flatMap fun _ => Bits.lt_of_mem_fives]
  have spelled : (cs.map alphabet.idxOf).map symbol = cs := by
    rw [List.map_map]
    exact (List.map_congr_left fun c inText => symbol_idxOf (inAlphabet c inText)).trans
      (List.map_id cs)
  rw [encodeChars, ← digits, spelled]

theorem eq_encodeChars_of_decodeNormal {cs : List Char} {data : Bytes}
    (inAlphabet : ∀ c ∈ cs, c ∈ alphabet) (read : decodeNormal cs = .ok data) :
    cs = encodeChars data := by
  cases cut : Bits.bytes (cs.flatMap fun c => Bits.ofNat 5 (alphabet.idxOf c)) with
  | mk front left =>
    simp only [decodeNormal, cut] at read
    split at read
    · contradiction
    · next whole =>
      split at read
      · contradiction
      · next zeros =>
        obtain rfl := Except.ok.inj read
        obtain ⟨bits, short⟩ := Bits.eq_flatMap_append_of_bytes cut
        have total : 5 * cs.length = 8 * front.length + left.length := by
          rw [← length_digitBits, bits, List.length_append, length_bits]
        have filled := eq_filling total short whole (eq_false_of_ne_true zeros)
        exact eq_encodeChars_of_bits inAlphabet (by rw [bits, filled])

theorem decodeNormal_eq_ok_iff {cs : List Char} {data : Bytes}
    (inAlphabet : ∀ c ∈ cs, c ∈ alphabet) : decodeNormal cs = .ok data ↔ cs = encodeChars data := by
  refine ⟨eq_encodeChars_of_decodeNormal inAlphabet, ?_⟩
  rintro rfl
  exact decodeNormal_encodeChars data

/-- The character that a character stands for: upper case for lower case, and the symbol that
a look-alike is taken for. -/
def canonical (c : Char) : Char :=
  match c.toUpper with
  | 'O' => '0'
  | 'I' | 'L' => '1'
  | 'U' => 'V'
  | other => other

theorem normalise?_eq (c : Char) :
    normalise? c = if canonical c ∈ alphabet then some (canonical c) else none :=
  rfl

theorem normaliseAll_eq_ok_iff {cs normal : List Char} :
    normaliseAll cs = .ok normal ↔ normal = cs.map canonical ∧ ∀ c ∈ normal, c ∈ alphabet := by
  induction cs generalizing normal with
  | nil =>
    constructor
    · intro read
      obtain rfl := Except.ok.inj read
      exact ⟨rfl, List.forall_mem_nil _⟩
    · rintro ⟨rfl, -⟩
      rfl
  | cons c cs ih =>
    -- The equations that `rw` would take for this are slow to derive.
    unfold normaliseAll
    simp only [normalise?_eq, List.map_cons]
    by_cases known : canonical c ∈ alphabet
    · simp only [if_pos known]
      constructor
      · intro read
        obtain ⟨others, rest, whole⟩ := bind_eq_ok_iff.1 read
        obtain rfl := Except.ok.inj whole
        obtain ⟨rfl, othersKnown⟩ := ih.1 rest
        exact ⟨rfl, List.forall_mem_cons.2 ⟨known, othersKnown⟩⟩
      · rintro ⟨rfl, allKnown⟩
        rw [ih.2 ⟨rfl, (List.forall_mem_cons.1 allKnown).2⟩]
        rfl
    · simp only [if_neg known, reduceCtorEq, false_iff]
      rintro ⟨rfl, allKnown⟩
      exact known (List.forall_mem_cons.1 allKnown).1

/-- A text is read as data exactly if its characters stand for those that the data is written
with. -/
theorem decode_eq_ok_iff {s : String} {data : Bytes} :
    decode s = .ok data ↔ s.toList.map canonical = encodeChars data := by
  rw [decode, bind_eq_ok_iff]
  constructor
  · rintro ⟨normal, normalised, read⟩
    obtain ⟨rfl, inAlphabet⟩ := normaliseAll_eq_ok_iff.1 normalised
    exact eq_encodeChars_of_decodeNormal inAlphabet read
  · intro spelled
    have inAlphabet : ∀ c ∈ s.toList.map canonical, c ∈ alphabet := by
      intro c member
      exact mem_alphabet_of_mem_encodeChars (spelled ▸ member)
    refine ⟨_, normaliseAll_eq_ok_iff.2 ⟨rfl, inAlphabet⟩, ?_⟩
    rw [spelled, decodeNormal_encodeChars]

theorem decodeExact_eq_ok_iff {n : Nat} {s : String} {data : Octets n} :
    decodeExact s n = .ok data ↔ s.toList.map canonical = encodeChars data.bytes := by
  rw [← decode_eq_ok_iff, decodeExact, bind_eq_ok_iff]
  constructor
  · rintro ⟨b, read, sized⟩
    split at sized
    · next octets found =>
      obtain rfl := Except.ok.inj sized
      rw [read, Octets.ofBytes?_eq_some_iff.1 found]
    · contradiction
  · intro read
    refine ⟨data.bytes, read, ?_⟩
    rw [Octets.ofBytes?_bytes]
    rfl

theorem canonical_of_mem {c : Char} (member : c ∈ alphabet) : canonical c = c := by
  -- A Boolean test of the list, so that not all characters are gone through.
  have each : alphabet.all fun symbol => canonical symbol == symbol := by decide
  exact eq_of_beq (List.all_eq_true.1 each c member)

theorem map_canonical_encodeChars (data : Bytes) :
    (encodeChars data).map canonical = encodeChars data := by
  have same : (encodeChars data).map canonical = (encodeChars data).map id :=
    List.map_congr_left fun _ member => canonical_of_mem (mem_alphabet_of_mem_encodeChars member)
  rw [same, List.map_id]

theorem decode_encode (data : Bytes) : decode (encode data) = .ok data := by
  rw [decode_eq_ok_iff, encode, String.toList_ofList, map_canonical_encodeChars]

theorem not_mem_of_map_canonical {cs : List Char} {data : Bytes} {c : Char}
    (spelled : cs.map canonical = encodeChars data) (outside : canonical c ∉ alphabet) :
    c ∉ cs := by
  intro member
  have image : canonical c ∈ encodeChars data := spelled ▸ List.mem_map_of_mem member
  exact outside (mem_alphabet_of_mem_encodeChars image)

end Overlay.Text.Crockford
