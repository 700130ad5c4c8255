import Overlay.Json.Reader
import Overlay.Proofs.Json.Reading
import Overlay.Proofs.Octets.Hex

/-! What strings in JSON texts stand for. A character is written as itself, by a letter that escapes
it, or in hexadecimal by its one or two UTF-16 units. Reading a string finds the only text that it
spells, and finds it in every spelling. -/
namespace Overlay.Json
variable {cs rest : List Char} {c : Char}

/-- The letters that stand for characters after a backslash. -/
def letterEscapes : List (Char × Char) :=
  [('"', '"'), ('\\', '\\'), ('/', '/'), ('b', '\x08'), ('f', '\x0c'), ('n', '\n'), ('r', '\r'),
    ('t', '\t')]

/-- Four digits of either case for the two bytes of a unit. -/
def SpellsUnit (unit : Nat) (digits : List Char) : Prop :=
  ∃ high low : UInt8, unit = 256 * high.toNat + low.toNat ∧
    digits.map Char.toLower = Hex.pair Hex.lowerDigits high ++ Hex.pair Hex.lowerDigits low

/-- A character by its number, or by the two halves of a surrogate pair if that is too large. -/
inductive SpellsNumber (c : Char) : List Char → Prop
  | unit {digits : List Char} (spelled : SpellsUnit c.toNat digits) : SpellsNumber c digits
  | halves {high low : Nat} {front back : List Char} (highHalf : 0xd800 ≤ high ∧ high < 0xdc00)
      (lowHalf : 0xdc00 ≤ low ∧ low < 0xe000)
      (joined : c.toNat = 0x10000 + (high - 0xd800) * 0x400 + (low - 0xdc00))
      (first : SpellsUnit high front) (second : SpellsUnit low back) :
      SpellsNumber c (front ++ '\\' :: 'u' :: back)

/-- The ways to write a character in a string. -/
inductive Spells (c : Char) : List Char → Prop
  | plain (unquoted : c ≠ '"') (unescaped : c ≠ '\\') (visible : 0x20 ≤ c.toNat) : Spells c [c]
  | letter {letter : Char} (known : (letter, c) ∈ letterEscapes) : Spells c ['\\', letter]
  | numeric {digits : List Char} (spelled : SpellsNumber c digits) :
      Spells c ('\\' :: 'u' :: digits)

/-- The ways to write a text between its quotes. -/
inductive SpellsText : List Char → List Char → Prop
  | nil : SpellsText [] []
  | cons {c : Char} {chars front back : List Char} (first : Spells c front)
      (others : SpellsText chars back) : SpellsText (c :: chars) (front ++ back)

theorem SpellsUnit.length {unit : Nat} {digits : List Char} (spelled : SpellsUnit unit digits) :
    digits.length = 4 := by
  obtain ⟨high, low, -, same⟩ := spelled
  rw [← List.length_map, same]
  rfl

theorem SpellsUnit.lt {unit : Nat} {digits : List Char} (spelled : SpellsUnit unit digits) :
    unit < 0x10000 := by
  obtain ⟨high, low, rfl, -⟩ := spelled
  have := high.toNat_lt
  have := low.toNat_lt
  omega

theorem mapM_value?_eq_some_iff {a b c d : Char} {values : List Nat} :
    [a, b, c, d].mapM Hex.value? = some values ↔ ∃ p q r s, Hex.value? a = some p ∧
      Hex.value? b = some q ∧ Hex.value? c = some r ∧ Hex.value? d = some s ∧
      values = [p, q, r, s] := by
  simp only [List.mapM_cons, List.mapM_nil, Option.bind_eq_bind, Option.bind_eq_some_iff,
    Option.pure_def, Option.some.injEq]
  constructor
  · rintro ⟨p, first, _, ⟨q, second, _, ⟨r, third, _, ⟨s, fourth, _, rfl, rfl⟩, rfl⟩, rfl⟩, rfl⟩
    exact ⟨p, q, r, s, first, second, third, fourth, rfl⟩
  · rintro ⟨p, q, r, s, first, second, third, fourth, rfl⟩
    exact ⟨p, first, _, ⟨q, second, _, ⟨r, third, _, ⟨s, fourth, _, rfl, rfl⟩, rfl⟩, rfl⟩, rfl⟩

theorem spellsUnit_iff {unit : Nat} {a b c d : Char} :
    SpellsUnit unit [a, b, c, d] ↔ ∃ values, [a, b, c, d].mapM Hex.value? = some values ∧
      values.foldl (fun n digit => 16 * n + digit) 0 = unit := by
  have halves (high low : UInt8) : [a, b, c, d].map Char.toLower =
      Hex.pair Hex.lowerDigits high ++ Hex.pair Hex.lowerDigits low ↔
        [a.toLower, b.toLower] = Hex.pair Hex.lowerDigits high ∧
          [c.toLower, d.toLower] = Hex.pair Hex.lowerDigits low :=
    Hex.cons_eq_pair_append_iff
  have bytes {p q r s : Nat} (first : p < 16) (second : q < 16) (third : r < 16)
      (fourth : s < 16) : [p, q, r, s].foldl (fun n digit => 16 * n + digit) 0 =
        256 * (UInt8.ofNat (16 * p + q)).toNat + (UInt8.ofNat (16 * r + s)).toNat := by
    rw [Hex.toNat_ofNat first second, Hex.toNat_ofNat third fourth]
    simp only [List.foldl_cons, List.foldl_nil]
    omega
  simp only [SpellsUnit, halves, Hex.pair_eq_iff, mapM_value?_eq_some_iff]
  constructor
  · rintro ⟨_, _, rfl, ⟨p, q, first, second, rfl⟩, r, s, third, fourth, rfl⟩
    exact ⟨_, ⟨p, q, r, s, first, second, third, fourth, rfl⟩,
      bytes (Hex.value?_lt first) (Hex.value?_lt second) (Hex.value?_lt third)
        (Hex.value?_lt fourth)⟩
  · rintro ⟨_, ⟨p, q, r, s, first, second, third, fourth, rfl⟩, rfl⟩
    exact ⟨_, _, bytes (Hex.value?_lt first) (Hex.value?_lt second) (Hex.value?_lt third)
        (Hex.value?_lt fourth), ⟨p, q, first, second, rfl⟩, r, s, third, fourth, rfl⟩

theorem readUnit_eq_ok_iff {unit : Nat} :
    readUnit cs = .ok (unit, rest) ↔ ∃ digits, cs = digits ++ rest ∧ SpellsUnit unit digits := by
  constructor
  · intro read
    unfold readUnit at read
    split at read
    · next a b c d left =>
      dsimp only at read
      split at read
      · next found =>
        obtain ⟨value, rfl⟩ := Prod.mk.inj (Except.ok.inj read)
        obtain ⟨_, valued, whole⟩ := Option.map_eq_some_iff.1 found
        obtain ⟨rfl, rfl⟩ := Prod.mk.inj whole
        exact ⟨[a, b, c, d], rfl, spellsUnit_iff.2 ⟨_, valued, value⟩⟩
      · contradiction
    · contradiction
  · rintro ⟨digits, rfl, spelled⟩
    match digits, spelled.length with
    | [a, b, c, d], _ =>
      obtain ⟨values, valued, rfl⟩ := spellsUnit_iff.1 spelled
      simp only [List.cons_append, List.nil_append, readUnit, valued]
      rfl

theorem readLowHalf_escape (high : Nat) (cs : List Char) :
    readLowHalf high ('\\' :: 'u' :: cs) =
      (readUnit >>= fun low =>
        if isLowHalf low then return joinHalves high low else stopBefore .loneHalf) cs := rfl

theorem readLowHalf_eq_ok_iff {high : Nat} :
    readLowHalf high cs = .ok (c, rest) ↔ ∃ low digits, cs = '\\' :: 'u' :: (digits ++ rest) ∧
      SpellsUnit low digits ∧ isLowHalf low ∧ c = joinHalves high low := by
  constructor
  · intro read
    rw [readLowHalf, get_bind] at read
    split at read
    · rw [set_bind] at read
      obtain ⟨low, left, unit, joined⟩ := Reader.bind_eq_ok_iff.1 read
      obtain ⟨digits, rfl, spelled⟩ := readUnit_eq_ok_iff.1 unit
      split at joined
      · next half =>
        obtain ⟨same, rfl⟩ := pure_eq_ok_iff.1 joined
        exact ⟨low, digits, rfl, spelled, half, same.symm⟩
      · contradiction
    all_goals contradiction
  · rintro ⟨low, digits, rfl, spelled, half, same⟩
    have unit : readUnit (digits ++ rest) = .ok (low, rest) :=
      readUnit_eq_ok_iff.2 ⟨digits, rfl, spelled⟩
    rw [readLowHalf_escape, bind_of_eq_ok unit, if_pos half, pure_eq_ok_iff]
    exact ⟨same.symm, rfl⟩

theorem isLowHalf_iff {unit : Nat} : isLowHalf unit ↔ 0xdc00 ≤ unit ∧ unit < 0xe000 := by
  simp [isLowHalf]

theorem isHighHalf_iff {unit : Nat} : isHighHalf unit ↔ 0xd800 ≤ unit ∧ unit < 0xdc00 := by
  simp [isHighHalf]

theorem no_half_toNat (c : Char) : ¬ isLowHalf c.toNat ∧ ¬ isHighHalf c.toNat := by
  have valid : c.toNat < 0xd800 ∨ 0xdfff < c.toNat ∧ c.toNat < 0x110000 := c.valid
  rw [isLowHalf_iff, isHighHalf_iff]
  omega

theorem toNat_ofNat {n : Nat} (valid : n.isValidChar) : (Char.ofNat n).toNat = n := by
  rw [Char.ofNat, dif_pos valid]
  rfl

theorem toNat_ofNat_of_no_half {unit : Nat} (small : unit < 0x10000) (low : ¬ isLowHalf unit)
    (high : ¬ isHighHalf unit) : (Char.ofNat unit).toNat = unit := by
  rw [isLowHalf_iff] at low
  rw [isHighHalf_iff] at high
  have valid : unit.isValidChar := by
    unfold Nat.isValidChar
    omega
  exact toNat_ofNat valid

theorem toNat_joinHalves {high low : Nat} (isHigh : isHighHalf high) (isLow : isLowHalf low) :
    (joinHalves high low).toNat = 0x10000 + (high - 0xd800) * 0x400 + (low - 0xdc00) := by
  rw [isLowHalf_iff] at isLow
  rw [isHighHalf_iff] at isHigh
  have valid : (0x10000 + (high - 0xd800) * 0x400 + (low - 0xdc00)).isValidChar := by
    unfold Nat.isValidChar
    omega
  rw [joinHalves, toNat_ofNat valid]

theorem readCodePoint_eq_ok_iff :
    readCodePoint cs = .ok (c, rest) ↔ ∃ digits, cs = digits ++ rest ∧ SpellsNumber c digits := by
  constructor
  · intro read
    obtain ⟨unit, left, first, found⟩ := Reader.bind_eq_ok_iff.1 read
    obtain ⟨digits, rfl, spelled⟩ := readUnit_eq_ok_iff.1 first
    split at found
    · contradiction
    · next noLow =>
      split at found
      · next isHigh =>
        obtain ⟨low, others, rfl, second, isLow, same⟩ := readLowHalf_eq_ok_iff.1 found
        have joined : c.toNat = 0x10000 + (unit - 0xd800) * 0x400 + (low - 0xdc00) := by
          rw [same, toNat_joinHalves isHigh isLow]
        refine ⟨digits ++ '\\' :: 'u' :: others, by simp, ?_⟩
        exact .halves (isHighHalf_iff.1 isHigh) (isLowHalf_iff.1 isLow) joined spelled second
      · next noHigh =>
        obtain ⟨rfl, rfl⟩ := pure_eq_ok_iff.1 found
        have number := toNat_ofNat_of_no_half spelled.lt noLow noHigh
        exact ⟨digits, rfl, .unit (number.symm ▸ spelled)⟩
  · rintro ⟨_, rfl, spelled | @⟨high, low, front, back, highHalf, lowHalf, joined, first, second⟩⟩
    · obtain ⟨noLow, noHigh⟩ := no_half_toNat c
      rw [readCodePoint, bind_of_eq_ok (readUnit_eq_ok_iff.2 ⟨_, rfl, spelled⟩), if_neg noLow,
        if_neg noHigh, Char.ofNat_toNat]
      rfl
    · have noLow : ¬ isLowHalf high := by
        rw [isLowHalf_iff]
        omega
      have unit : readUnit (front ++ ('\\' :: 'u' :: (back ++ rest))) =
          .ok (high, '\\' :: 'u' :: (back ++ rest)) :=
        readUnit_eq_ok_iff.2 ⟨front, rfl, first⟩
      have joins : c = joinHalves high low := by
        rw [joinHalves, ← joined, Char.ofNat_toNat]
      rw [List.append_assoc, List.cons_append, List.cons_append, readCodePoint,
        bind_of_eq_ok unit, if_neg noLow, if_pos (isHighHalf_iff.2 highHalf),
        readLowHalf_eq_ok_iff]
      exact ⟨low, back, rfl, second, isLowHalf_iff.2 lowHalf, joins⟩

theorem simpleEscape?_eq_some_iff {letter : Char} :
    simpleEscape? letter = some c ↔ (letter, c) ∈ letterEscapes := by
  constructor
  · intro known
    unfold simpleEscape? at known
    split at known
    case h_9 => contradiction
    all_goals
      obtain rfl := Option.some.inj known
      decide
  · intro known
    have each : letterEscapes.all fun (letter, c) => simpleEscape? letter == some c := by decide
    exact eq_of_beq (List.all_eq_true.1 each _ known)

theorem escape_simple {letter : Char} (known : simpleEscape? letter = some c)
    (numeric : Reader Char) (rest : List Char) :
    escape numeric (letter :: rest) = .ok (c, rest) := by
  unfold simpleEscape? at known
  split at known
  case h_9 => contradiction
  all_goals
    obtain rfl := Option.some.inj known
    rfl

theorem escape_eq_ok_iff :
    escape readCodePoint cs = .ok (c, rest) ↔
      ∃ letters, cs = letters ++ rest ∧ Spells c ('\\' :: letters) := by
  constructor
  · intro read
    rw [escape, get_bind] at read
    split at read
    · contradiction
    · rw [set_bind] at read
      obtain ⟨digits, rfl, spelled⟩ := readCodePoint_eq_ok_iff.1 read
      exact ⟨'u' :: digits, rfl, .numeric spelled⟩
    · next letter left _ =>
      cases known : simpleEscape? letter with
      | none =>
        rw [known] at read
        contradiction
      | some d =>
        rw [known] at read
        cases read
        exact ⟨[letter], rfl, .letter (simpleEscape?_eq_some_iff.1 known)⟩
  · rintro ⟨letters, rfl, spelled⟩
    cases spelled with
    | plain _ unescaped _ => exact absurd rfl unescaped
    | letter known => exact escape_simple (simpleEscape?_eq_some_iff.2 known) _ rest
    | numeric spelled => exact readCodePoint_eq_ok_iff.2 ⟨_, rfl, spelled⟩

theorem visible_iff : ¬ isControl c ↔ 0x20 ≤ c.toNat := by
  simp [isControl]

theorem Spells.length_pos {letters : List Char} (spelled : Spells c letters) :
    0 < letters.length := by
  cases spelled <;> exact Nat.succ_pos _

/-- What a character is written as takes one step. -/
theorem readTextFrom_spells {letters : List Char} (spelled : Spells c letters) (d : Char)
    (fuel front rest : List Char) :
    readTextFrom (d :: fuel) front (letters ++ rest) = readTextFrom fuel (c :: front) rest := by
  have escaped {others : List Char} (spelled : Spells c ('\\' :: others)) :
      readTextFrom (d :: fuel) front ('\\' :: others ++ rest) =
        readTextFrom fuel (c :: front) rest := by
    have read : escape readCodePoint (others ++ rest) = .ok (c, rest) :=
      escape_eq_ok_iff.2 ⟨others, rfl, spelled⟩
    simp [readTextFrom, read]
  cases spelled with
  | plain unquoted unescaped visible =>
    simp [readTextFrom, unquoted, unescaped, visible_iff.2 visible]
  | letter known => exact escaped (.letter known)
  | numeric spelled => exact escaped (.numeric spelled)

theorem readTextFrom_of_spellsText {chars letters fuel front : List Char}
    (spelled : SpellsText chars letters) (enough : chars.length < fuel.length) :
    readTextFrom fuel front (letters ++ '"' :: rest) =
      .ok (String.ofList (front.reverse ++ chars), rest) := by
  induction spelled generalizing fuel front with
  | nil =>
    obtain ⟨d, fuel, rfl⟩ := List.exists_cons_of_length_pos enough
    simp [readTextFrom]
  | cons first _ ih =>
    obtain ⟨d, fuel, rfl⟩ := List.exists_cons_of_length_pos (Nat.zero_lt_of_lt enough)
    rw [List.append_assoc, readTextFrom_spells first, ih (Nat.lt_of_succ_lt_succ enough),
      List.reverse_cons, List.append_assoc]
    rfl

theorem spellsText_of_readTextFrom {fuel front : List Char} {s : String}
    (read : readTextFrom fuel front cs = .ok (s, rest)) :
    ∃ chars letters, s = String.ofList (front.reverse ++ chars) ∧ cs = letters ++ '"' :: rest ∧
      SpellsText chars letters := by
  have step {c : Char} {front letters left : List Char} (spelled : Spells c letters)
      (ih : ∃ chars others, s = String.ofList ((c :: front).reverse ++ chars) ∧
        left = others ++ '"' :: rest ∧ SpellsText chars others) :
      ∃ chars others, s = String.ofList (front.reverse ++ chars) ∧
        letters ++ left = others ++ '"' :: rest ∧ SpellsText chars others := by
    obtain ⟨chars, others, rfl, rfl, spelledOthers⟩ := ih
    exact ⟨c :: chars, letters ++ others, by simp, by simp, .cons spelled spelledOthers⟩
  -- On the fuel, of which every character takes one item however long it is written.
  induction fuel generalizing front cs with
  | nil => contradiction
  | cons d fuel ih =>
    cases cs with
    | nil => contradiction
    | cons c left =>
      simp only [readTextFrom] at read
      split at read
      · next quote =>
        obtain ⟨rfl, rfl⟩ := Prod.mk.inj (Except.ok.inj read)
        exact ⟨[], [], by rw [List.append_nil], by rw [quote, List.nil_append], .nil⟩
      · next unquoted =>
        split at read
        · next backslash =>
          split at read
          · contradiction
          · next escaped =>
            obtain ⟨letters, rfl, spelled⟩ := escape_eq_ok_iff.1 escaped
            rw [backslash]
            exact step spelled (ih read)
        · next unescaped =>
          split at read
          · contradiction
          · next visible =>
            exact step (.plain unquoted unescaped (visible_iff.1 visible)) (ih read)

theorem SpellsText.length_le {chars letters : List Char} (spelled : SpellsText chars letters) :
    chars.length ≤ letters.length := by
  induction spelled with
  | nil => exact Nat.le_refl 0
  | cons first _ ih =>
    have written := first.length_pos
    rw [List.length_append, List.length_cons]
    omega

theorem readText_eq_ok_iff {s : String} :
    readText cs = .ok (s, rest) ↔
      ∃ letters, cs = letters ++ '"' :: rest ∧ SpellsText s.toList letters := by
  constructor
  · intro read
    obtain ⟨chars, letters, rfl, rfl, spelled⟩ := spellsText_of_readTextFrom read
    exact ⟨letters, rfl, by simpa using spelled⟩
  · rintro ⟨letters, rfl, spelled⟩
    have short := spelled.length_le
    have enough : s.toList.length < (letters ++ '"' :: rest).length := by
      rw [List.length_append, List.length_cons]
      omega
    rw [readText, readTextFrom_of_spellsText spelled enough, List.reverse_nil, List.nil_append,
      String.ofList_toList]

theorem not_stopAtType {α : Type} {expected : String} {result : α × List Char} :
    stopAtType expected cs ≠ .ok result := by
  intro read
  obtain ⟨found, left, -, stopped⟩ := Reader.bind_eq_ok_iff.1 read
  contradiction

theorem text_eq_ok_iff {s : String} :
    text cs = .ok (s, rest) ↔ ∃ blanks letters, Blank blanks ∧
      cs = blanks ++ '"' :: (letters ++ '"' :: rest) ∧ SpellsText s.toList letters := by
  constructor
  · intro read
    have parts : cs.takeWhile isBlank ++ cs.dropWhile isBlank = cs :=
      List.takeWhile_append_dropWhile
    rw [text, textFor, bind_of_eq_ok (skipBlanks_eq_ok cs)] at read
    generalize cs.dropWhile isBlank = shown at parts read
    split at read
    · rw [set_bind] at read
      obtain ⟨letters, rfl, spelled⟩ := readText_eq_ok_iff.1 read
      exact ⟨_, letters, fun _ => List.mem_takeWhile_imp, parts.symm, spelled⟩
    · exact absurd read not_stopAtType
  · rintro ⟨blanks, letters, blank, rfl, spelled⟩
    rw [text, textFor, bind_of_eq_ok (skipBlanks_append blank rfl)]
    exact readText_eq_ok_iff.2 ⟨letters, rfl, spelled⟩

/-- The text is a string and nothing else, with blanks around it. -/
def Denotes (s value : String) : Prop :=
  ∃ front letters back, Blank front ∧ Blank back ∧ SpellsText value.toList letters ∧
    s.toList = front ++ '"' :: (letters ++ '"' :: back)

theorem run_text_eq_ok_iff {s value : String} : text.run s = .ok value ↔ Denotes s value := by
  simp only [Reader.run_eq_ok_iff, text_eq_ok_iff]
  constructor
  · rintro ⟨back, ⟨front, letters, blankFront, whole, spelled⟩, blankBack⟩
    exact ⟨front, letters, back, blankFront, blankBack, spelled, whole⟩
  · rintro ⟨front, letters, back, blankFront, blankBack, spelled, whole⟩
    exact ⟨back, ⟨front, letters, blankFront, whole, spelled⟩, blankBack⟩

theorem Denotes.unique {s value other : String} (denotes : Denotes s value)
    (denotesOther : Denotes s other) : value = other := by
  rw [← run_text_eq_ok_iff] at denotes denotesOther
  exact Except.ok.inj (denotes.symm.trans denotesOther)

end Overlay.Json
