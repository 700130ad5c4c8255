import Mathlib.Tactic.IntervalCases
import Overlay.Proofs.Text.Crockford

/-! Why a text spells no bytes: a character that is none of the alphabet, a length that no bytes are
written with, or unused bits that are not zero. Reading a text means to write the whole bytes in it
again: it is accepted if that gives the text, and the length of what it gives tells the last two
faults apart. -/
namespace Overlay.Text.Crockford
variable {cs : List Char}

def wholeBytes (cs : List Char) : Bytes :=
  (Bits.bytes (cs.flatMap fun c => Bits.ofNat 5 (alphabet.idxOf c))).1

def unusedBits (cs : List Char) : List Bool :=
  (Bits.bytes (cs.flatMap fun c => Bits.ofNat 5 (alphabet.idxOf c))).2

theorem length_wholeBytes (cs : List Char) : (wholeBytes cs).length = 5 * cs.length / 8 := by
  cases cut : Bits.bytes (cs.flatMap fun c => Bits.ofNat 5 (alphabet.idxOf c)) with
  | mk data left =>
    obtain ⟨bits, short⟩ := Bits.eq_flatMap_append_of_bytes cut
    have sized := length_digitBits cs
    rw [bits, List.length_append, length_bits] at sized
    have whole : data.length = 5 * cs.length / 8 := by omega
    rw [wholeBytes, cut, whole]

theorem length_encodeChars_wholeBytes (cs : List Char) :
    (encodeChars (wholeBytes cs)).length = cs.length ↔ cs.length % 8 ∉ [1, 3, 6] := by
  rw [length_encodeChars, length_wholeBytes]
  have whole : 8 * (cs.length / 8) + cs.length % 8 = cs.length := Nat.div_add_mod ..
  have last : cs.length % 8 < 8 := Nat.mod_lt _ (by decide)
  simp only [List.mem_cons, List.not_mem_nil, or_false]
  generalize cs.length / 8 = groups at whole
  generalize cs.length % 8 = left at whole last ⊢
  rw [← whole]
  interval_cases left <;> omega

/-- Writes the whole bytes again, and compares. -/
def decodeRewritten (cs : List Char) : Except Error Bytes :=
  let data := wholeBytes cs
  if encodeChars data = cs then .ok data
  else if (encodeChars data).length = cs.length then .error .nonZeroPadding
  else .error .trailingCharacters

theorem decodeNormal_eq (cs : List Char) :
    decodeNormal cs =
      if cs.length % 8 ∈ [1, 3, 6] then .error .trailingCharacters
      else if (unusedBits cs).any id then .error .nonZeroPadding
      else .ok (wholeBytes cs) :=
  rfl

theorem decodeNormal_eq_decodeRewritten (inAlphabet : ∀ c ∈ cs, c ∈ alphabet) :
    decodeNormal cs = decodeRewritten cs := by
  have accepted (data : Bytes) : decodeNormal cs = .ok data ↔ cs = encodeChars data :=
    decodeNormal_eq_ok_iff inAlphabet
  have sized := length_encodeChars_wholeBytes cs
  rw [decodeNormal_eq] at accepted ⊢
  rw [decodeRewritten]
  -- The lengths differ if characters dangle, and otherwise only the unused bits can.
  by_cases dangling : cs.length % 8 ∈ [1, 3, 6]
  · have shorter : (encodeChars (wholeBytes cs)).length ≠ cs.length :=
      fun same => sized.1 same dangling
    have other : encodeChars (wholeBytes cs) ≠ cs := fun same => shorter (by rw [same])
    rw [if_pos dangling, if_neg other, if_neg shorter]
  · rw [if_neg dangling] at accepted ⊢
    by_cases filled : (unusedBits cs).any id = true
    · have other : encodeChars (wholeBytes cs) ≠ cs := by
        intro same
        have read := (accepted (wholeBytes cs)).2 same.symm
        rw [if_pos filled] at read
        contradiction
      rw [if_pos filled, if_neg other, if_pos (sized.2 dangling)]
    · have same : cs = encodeChars (wholeBytes cs) :=
        (accepted (wholeBytes cs)).1 (if_neg filled)
      rw [if_neg filled, if_pos same.symm]

/-- A character that is read as one of the alphabet. -/
def IsLenient (c : Char) : Prop := canonical c ∈ alphabet

/-- Why a text cannot be read. -/
inductive Faulty (s : String) : Error → Prop
  | invalidCharacter {front rest : List Char} {c : Char} (whole : s.toList = front ++ c :: rest)
      (known : ∀ x ∈ front, IsLenient x) (unknown : ¬ IsLenient c) :
      Faulty s (.invalidCharacter c)
  | trailingCharacters (known : ∀ c ∈ s.toList, IsLenient c) (dangling : s.length % 8 ∈ [1, 3, 6]) :
      Faulty s .trailingCharacters
  | nonZeroPadding (known : ∀ c ∈ s.toList, IsLenient c) (whole : s.length % 8 ∉ [1, 3, 6])
      (unspelled : ∀ data, s.toList.map canonical ≠ encodeChars data) : Faulty s .nonZeroPadding

theorem normaliseAll_of_known (known : ∀ c ∈ cs, IsLenient c) :
    normaliseAll cs = .ok (cs.map canonical) :=
  normaliseAll_eq_ok_iff.2 ⟨rfl, List.forall_mem_map.2 known⟩

theorem normaliseAll_cons_of_unknown {c : Char} (unknown : ¬ IsLenient c) :
    normaliseAll (c :: cs) = .error (.invalidCharacter c) := by
  have none : normalise? c = none := (normalise?_eq c).trans (if_neg unknown)
  unfold normaliseAll
  rw [none]

theorem normaliseAll_cons_eq_error_of_known {c : Char} {fault : Error} (known : IsLenient c) :
    normaliseAll (c :: cs) = .error fault ↔ normaliseAll cs = .error fault := by
  have symbol : normalise? c = some (canonical c) := (normalise?_eq c).trans (if_pos known)
  conv_lhs => unfold normaliseAll
  rw [symbol]
  cases read : normaliseAll cs with
  | error fault => rfl
  | ok normal => constructor <;> intro refused <;> contradiction

theorem normaliseAll_eq_error_iff {fault : Error} :
    normaliseAll cs = .error fault ↔ ∃ front c rest, cs = front ++ c :: rest ∧
      (∀ x ∈ front, IsLenient x) ∧ ¬ IsLenient c ∧ fault = .invalidCharacter c := by
  constructor
  · intro refused
    induction cs with
    | nil => contradiction
    | cons c cs ih =>
      by_cases known : IsLenient c
      · obtain ⟨front, x, rest, rfl, lenient, unknown, rfl⟩ :=
          ih ((normaliseAll_cons_eq_error_of_known known).1 refused)
        exact ⟨c :: front, x, rest, rfl, List.forall_mem_cons.2 ⟨known, lenient⟩, unknown, rfl⟩
      · rw [normaliseAll_cons_of_unknown known] at refused
        obtain rfl := Except.error.inj refused
        exact ⟨[], c, cs, rfl, List.forall_mem_nil _, known, rfl⟩
  · rintro ⟨front, c, rest, rfl, lenient, unknown, rfl⟩
    induction front with
    | nil => exact normaliseAll_cons_of_unknown unknown
    | cons x front ih =>
      obtain ⟨known, lenient⟩ := List.forall_mem_cons.1 lenient
      exact (normaliseAll_cons_eq_error_of_known known).2 (ih lenient)

theorem decode_eq_decodeRewritten (s : String) :
    decode s = (normaliseAll s.toList >>= decodeRewritten) := by
  rw [decode]
  cases read : normaliseAll s.toList with
  | error fault => rfl
  | ok normal => exact decodeNormal_eq_decodeRewritten (normaliseAll_eq_ok_iff.1 read).2

theorem decode_of_known {s : String} (known : ∀ c ∈ s.toList, IsLenient c) :
    decode s = decodeNormal (s.toList.map canonical) := by
  rw [decode, normaliseAll_of_known known, ok_bind]

theorem decode_eq_error_iff {s : String} {fault : Error} :
    decode s = .error fault ↔ Faulty s fault := by
  have sized : (s.toList.map canonical).length = s.length := by
    rw [List.length_map, String.length_toList]
  constructor
  · intro refused
    by_cases known : ∀ c ∈ s.toList, IsLenient c
    · rw [decode_of_known known] at refused
      have unspelled (data : Bytes) : s.toList.map canonical ≠ encodeChars data := by
        intro spelled
        rw [spelled, decodeNormal_encodeChars] at refused
        contradiction
      rw [decodeNormal_eq, sized] at refused
      split at refused
      · next dangling =>
        obtain rfl := Except.error.inj refused
        exact .trailingCharacters known dangling
      · next whole =>
        split at refused
        · obtain rfl := Except.error.inj refused
          exact .nonZeroPadding known whole unspelled
        · contradiction
    · rw [decode, bind_eq_error_iff] at refused
      rcases refused with refused | ⟨normal, normalised, -⟩
      · obtain ⟨front, c, rest, whole, lenient, unknown, rfl⟩ :=
          normaliseAll_eq_error_iff.1 refused
        exact .invalidCharacter whole lenient unknown
      · obtain ⟨rfl, inAlphabet⟩ := normaliseAll_eq_ok_iff.1 normalised
        exact absurd (List.forall_mem_map.1 inAlphabet) known
  · intro faulty
    cases faulty with
    | invalidCharacter whole lenient unknown =>
      rw [decode, bind_eq_error_iff]
      exact .inl (normaliseAll_eq_error_iff.2 ⟨_, _, _, whole, lenient, unknown, rfl⟩)
    | trailingCharacters known dangling =>
      rw [decode_of_known known, decodeNormal_eq, sized, if_pos dangling]
    | nonZeroPadding known whole unspelled =>
      rw [decode_of_known known]
      have refused (data : Bytes) : decodeNormal (s.toList.map canonical) ≠ .ok data :=
        fun read => unspelled data
          (eq_encodeChars_of_decodeNormal (List.forall_mem_map.2 known) read)
      rw [decodeNormal_eq, sized, if_neg whole] at refused ⊢
      split
      · rfl
      · next zeros => exact absurd (if_neg zeros) (refused _)

theorem encode_injective : Function.Injective encode := by
  intro a b same
  have read := decode_encode a
  rw [same, decode_encode] at read
  exact (Except.ok.inj read).symm

end Overlay.Text.Crockford
