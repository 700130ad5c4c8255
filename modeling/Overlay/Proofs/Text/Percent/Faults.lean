import Overlay.Proofs.Octets.Hex
import Overlay.Proofs.Text.Percent

/-! Why an escaped value cannot be read: the first percent sign without two digits behind it is
blamed, and else the bytes that the value stands for, which spell no text. -/
namespace Overlay.Text.Percent

theorem exists_digit?_iff {b : UInt8} : (∃ v, digit? b = some v) ↔ Hex.IsDigit (Char.ofUInt8 b) :=
  Hex.exists_value?_iff

/-- What is wrong with the bytes behind a percent sign at an offset. -/
inductive BadEscape (offset : Nat) : Bytes → Error → Prop
  | truncated {rest : Bytes} (short : rest.length < 2) : BadEscape offset rest (.truncated offset)
  | invalid {high low : UInt8} {rest : Bytes}
      (other : ¬ (Hex.IsDigit (Char.ofUInt8 high) ∧ Hex.IsDigit (Char.ofUInt8 low))) :
      BadEscape offset (high :: low :: rest) (.invalidEscape offset)

theorem unescapeBytes_of_badEscape {offset : Nat} {rest : Bytes} {fault : Error}
    (bad : BadEscape offset rest fault) :
    unescapeBytes offset ('%'.toUInt8 :: rest) = .error fault := by
  cases bad with
  | truncated short =>
    match rest, short with
    | [], _ => rfl
    | [_], _ => rfl
  | @invalid high low rest other =>
    simp only [unescapeBytes, if_true]
    split
    · next first second =>
      exact absurd ⟨exists_digit?_iff.1 ⟨_, first⟩, exists_digit?_iff.1 ⟨_, second⟩⟩ other
    · rfl

/-- Reading stops at the first bad escape. -/
theorem exists_badEscape {offset : Nat} {b : Bytes} {fault : Error}
    (stopped : unescapeBytes offset b = .error fault) :
    ∃ front data rest, Escapes front data ∧ b = front ++ '%'.toUInt8 :: rest ∧
      BadEscape (offset + front.length) rest fault := by
  fun_induction unescapeBytes offset b with
  | case1 => contradiction
  | case2 offset high low rest h l second first ih =>
    rcases bind_eq_error_iff.1 stopped with later | ⟨_, _, whole⟩
    · obtain ⟨front, data, rest, spelled, rfl, bad⟩ := ih later
      refine ⟨'%'.toUInt8 :: high :: low :: front, _, rest, .triple first second spelled, rfl, ?_⟩
      rwa [Nat.add_assoc, Nat.add_comm 3] at bad
    · contradiction
  | case3 offset high low rest undigits =>
    obtain rfl := Except.error.inj stopped
    refine ⟨[], [], _, .nil, rfl, .invalid ?_⟩
    rintro ⟨first, second⟩
    obtain ⟨h, first⟩ := exists_digit?_iff.2 first
    obtain ⟨l, second⟩ := exists_digit?_iff.2 second
    exact undigits h l first second
  | case4 offset rest few =>
    obtain rfl := Except.error.inj stopped
    refine ⟨[], [], rest, .nil, rfl, .truncated (Nat.lt_of_not_le fun many => ?_)⟩
    obtain _ | ⟨high, _ | ⟨low, rest⟩⟩ := rest
    · contradiction
    · contradiction
    · exact few high low rest rfl
  | case5 offset b rest other ih =>
    rcases bind_eq_error_iff.1 stopped with later | ⟨_, _, whole⟩
    · obtain ⟨front, data, rest, spelled, rfl, bad⟩ := ih later
      refine ⟨b :: front, _, rest, .literal other spelled, rfl, ?_⟩
      rwa [Nat.add_assoc, Nat.add_comm 1] at bad
    · contradiction

/-- Why the bytes of a value cannot be read. -/
inductive Faulty : Bytes → Error → Prop
  | escape {front data rest : Bytes} {fault : Error} (spelled : Escapes front data)
      (bad : BadEscape front.length rest fault) : Faulty (front ++ '%'.toUInt8 :: rest) fault
  | noText {b data : Bytes} (spelled : Escapes b data) (unspelled : ∀ text, utf8 text ≠ data) :
      Faulty b .invalidUtf8

theorem unescapeBytes_eq_error_iff {b : Bytes} {fault : Error} :
    unescapeBytes 0 b = .error fault ↔
      ∃ front data rest, Escapes front data ∧ b = front ++ '%'.toUInt8 :: rest ∧
        BadEscape front.length rest fault := by
  constructor
  · intro stopped
    have found := exists_badEscape stopped
    simpa only [Nat.zero_add] using found
  · rintro ⟨front, data, rest, spelled, rfl, bad⟩
    rw [unescapeBytes_append spelled, Nat.zero_add, unescapeBytes_of_badEscape bad]
    rfl

theorem unescape_eq_error_iff {value : String} {fault : Error} :
    unescape value = .error fault ↔ Faulty (utf8 value) fault := by
  rw [unescape, bind_eq_error_iff, unescapeBytes_eq_error_iff]
  generalize utf8 value = b
  constructor
  · rintro (⟨front, data, rest, spelled, whole, bad⟩ | ⟨data, read, unspelled⟩)
    · exact whole ▸ .escape spelled bad
    · split at unspelled
      · contradiction
      · next none =>
        obtain rfl := Except.error.inj unspelled
        refine .noText (unescapeBytes_eq_ok_iff.1 read) fun text same => ?_
        rw [← same, ofUtf8?_utf8] at none
        contradiction
  · rintro (⟨spelled, bad⟩ | ⟨spelled, unspelled⟩)
    · exact .inl ⟨_, _, _, spelled, rfl, bad⟩
    · refine .inr ⟨_, unescapeBytes_eq_ok_iff.2 spelled, ?_⟩
      split
      · next text found => exact absurd (ofUtf8?_eq_some_iff.1 found).symm (unspelled text)
      · rfl

def respell (value : String) : Except Error String := do return escape (← unescape value)

theorem respell_respell (value : String) : (respell value >>= respell) = respell value := by
  have again (text : String) : respell (escape text) = .ok (escape text) := by
    rw [respell, unescape_escape]
    rfl
  rw [respell]
  cases unescape value with
  | error fault => rfl
  | ok text => exact again text

theorem escape_injective : Function.Injective escape := by
  intro v w same
  have read := unescape_escape v
  rw [same, unescape_escape] at read
  exact (Except.ok.inj read).symm

/-- Escaping has a fixed form and is undone by reading, which tells for every value what text it
stands for or why for none. -/
theorem escaping_exact (text value : String) :
    unescape (escape text) = .ok text ∧ Escaped (escape text).toList ∧
      (∀ c ∈ (escape text).toList, c.toNat < 128 ∧ c ∉ "&=+#? ".toList) ∧
      Function.Injective escape ∧
      (unescape value = .ok text ↔ Escapes (utf8 value) (utf8 text)) ∧
      (∀ fault, unescape value = .error fault ↔ Faulty (utf8 value) fault) ∧
      (respell value >>= respell) = respell value :=
  ⟨unescape_escape text, escaped_escape text, (escaped_escape text).free, escape_injective,
    unescape_eq_ok_iff, fun _ => unescape_eq_error_iff, respell_respell value⟩

end Overlay.Text.Percent
