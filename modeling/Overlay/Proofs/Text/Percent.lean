import Overlay.Proofs.Except
import Overlay.Proofs.Text.Utf8
import Overlay.Text.Percent

/-! Escaped values are made of ASCII characters that are no separators of a query, and
the value is read back from them. -/
namespace Overlay.Text.Percent

theorem ascii_of_isUnreserved {c : Char} (unreserved : isUnreserved c = true) : c.toNat < 128 := by
  have below (last : Char) (ascii : last.toNat < 128) (ranged : c.val ≤ last.val) :
      c.toNat < 128 := Nat.lt_of_le_of_lt (UInt32.le_iff_toNat_le.1 ranged) ascii
  rcases Bool.or_eq_true_iff.1 unreserved with alphanumeric | listed
  · rcases Bool.or_eq_true_iff.1 alphanumeric with letter | digit
    · rcases Bool.or_eq_true_iff.1 letter with upper | lower
      · exact below 'Z' (by decide) (of_decide_eq_true upper).2
      · exact below 'z' (by decide) (of_decide_eq_true (Bool.and_eq_true_iff.1 lower).2)
    · exact below '9' (by decide) (of_decide_eq_true (Bool.and_eq_true_iff.1 digit).2)
  · have ascii : ∀ x ∈ "-._~:/@[]!$'()*,;".toList, x.toNat < 128 := by simp
    exact ascii c (List.contains_iff_mem.1 listed)

/-- The shape of escaped texts: characters that stand for themselves, and triples with upper-case
digits. -/
inductive Escaped : List Char → Prop
  | nil : Escaped []
  | unreserved {c : Char} {rest : List Char} (plain : isUnreserved c) (tail : Escaped rest) :
      Escaped (c :: rest)
  | triple {high low : Char} {rest : List Char} (first : high ∈ Hex.upperDigits)
      (second : low ∈ Hex.upperDigits) (tail : Escaped rest) : Escaped ('%' :: high :: low :: rest)

theorem mem_upperDigits : ∀ n < 16, Hex.upperDigits.getD n '0' ∈ Hex.upperDigits := by
  decide

theorem escaped_flatMap (data : Bytes) : Escaped (data.flatMap escapeByte) := by
  induction data with
  | nil => exact .nil
  | cons b data ih =>
    rw [List.flatMap_cons, escapeByte]
    split
    · next plain => exact .unreserved plain ih
    · have small := b.toNat_lt
      exact .triple (mem_upperDigits (b.toNat / 16) (by omega))
        (mem_upperDigits (b.toNat % 16) (by omega)) ih

theorem escaped_escape (value : String) : Escaped (escape value).toList := by
  rw [escape, String.toList_ofList]
  exact escaped_flatMap (utf8 value)

/-- Characters with a meaning of their own in a URL or a form. -/
def separators : List Char := "&=+#? ".toList

theorem free_of_isUnreserved {c : Char} (plain : isUnreserved c) :
    c.toNat < 128 ∧ c ∉ separators := by
  have each : separators.all fun separator => !isUnreserved separator := by decide
  refine ⟨ascii_of_isUnreserved plain, fun member => ?_⟩
  have reserved := List.all_eq_true.1 each c member
  rw [plain] at reserved
  contradiction

theorem free_of_mem_upperDigits {c : Char} (member : c ∈ Hex.upperDigits) :
    c.toNat < 128 ∧ c ∉ separators := by
  have each : Hex.upperDigits.all fun c => c.toNat < 128 ∧ c ∉ separators := by decide
  exact of_decide_eq_true (List.all_eq_true.1 each c member)

theorem Escaped.free {cs : List Char} (escaped : Escaped cs) :
    ∀ c ∈ cs, c.toNat < 128 ∧ c ∉ separators := by
  induction escaped with
  | nil => exact List.forall_mem_nil _
  | unreserved plain _ ih => exact List.forall_mem_cons.2 ⟨free_of_isUnreserved plain, ih⟩
  | triple first second _ ih =>
    have percent : '%'.toNat < 128 ∧ '%' ∉ separators := by decide
    exact List.forall_mem_cons.2 ⟨percent, List.forall_mem_cons.2 ⟨free_of_mem_upperDigits first,
      List.forall_mem_cons.2 ⟨free_of_mem_upperDigits second, ih⟩⟩⟩

theorem utf8_escape (value : String) :
    utf8 (escape value) = ((utf8 value).flatMap escapeByte).map Char.toUInt8 :=
  utf8_ofList_ascii fun c member => ((escaped_flatMap (utf8 value)).free c member).1

theorem digit?_upper : ∀ n < 16, digit? (Hex.upperDigits.getD n '0').toUInt8 = some n := by
  decide

/-- A byte stands for itself, unless it is a percent sign, or as a triple. -/
theorem escapeByte_cases (b : UInt8) :
    (b ≠ '%'.toUInt8 ∧ (escapeByte b).map Char.toUInt8 = [b]) ∨
      (escapeByte b).map Char.toUInt8 = ['%'.toUInt8,
        (Hex.upperDigits.getD (b.toNat / 16) '0').toUInt8,
        (Hex.upperDigits.getD (b.toNat % 16) '0').toUInt8] := by
  by_cases unreserved : isUnreserved (Char.ofUInt8 b) = true
  · have percent : b ≠ '%'.toUInt8 := by
      rintro rfl
      revert unreserved
      decide
    have same : (Char.ofUInt8 b).toUInt8 = b := UInt8.toUInt8_toUInt32 b
    simp only [escapeByte, if_pos unreserved, List.map_cons, List.map_nil, same]
    exact .inl ⟨percent, trivial⟩
  · simp only [escapeByte, if_neg unreserved]
    exact .inr rfl

/-- Bytes with escapes in them, and the bytes that these stand for. -/
inductive Escapes : Bytes → Bytes → Prop
  | nil : Escapes [] []
  | literal {b : UInt8} {rest data : Bytes} (other : b ≠ '%'.toUInt8) (tail : Escapes rest data) :
      Escapes (b :: rest) (b :: data)
  | triple {high low : UInt8} {h l : Nat} {rest data : Bytes} (first : digit? high = some h)
      (second : digit? low = some l) (tail : Escapes rest data) :
      Escapes ('%'.toUInt8 :: high :: low :: rest) (UInt8.ofNat (16 * h + l) :: data)

theorem escapes_flatMap (data : Bytes) :
    Escapes ((data.flatMap escapeByte).map Char.toUInt8) data := by
  induction data with
  | nil => exact .nil
  | cons b data ih =>
    rw [List.flatMap_cons, List.map_append]
    rcases escapeByte_cases b with ⟨literal, spelled⟩ | triple
    · rw [spelled]
      exact .literal literal ih
    · have small := b.toNat_lt
      have high := digit?_upper (b.toNat / 16) (by omega)
      have low := digit?_upper (b.toNat % 16) (by omega)
      have read := Escapes.triple high low ih
      rw [Nat.div_add_mod, UInt8.ofNat_toNat] at read
      rw [triple]
      exact read

theorem unescapeBytes_literal {b : UInt8} (other : b ≠ '%'.toUInt8) (offset : Nat) (rest : Bytes) :
    unescapeBytes offset (b :: rest) = (b :: ·) <$> unescapeBytes (offset + 1) rest := by
  rw [unescapeBytes.eq_def]
  simp only [if_neg other]
  rfl

theorem unescapeBytes_triple {high low : UInt8} {h l : Nat} (first : digit? high = some h)
    (second : digit? low = some l) (offset : Nat) (rest : Bytes) :
    unescapeBytes offset ('%'.toUInt8 :: high :: low :: rest) =
      (UInt8.ofNat (16 * h + l) :: ·) <$> unescapeBytes (offset + 3) rest := by
  simp only [unescapeBytes, if_true, first, second]
  rfl

/-- Bytes that are well formed are read, whatever follows them. -/
theorem unescapeBytes_append {front data : Bytes} (spelled : Escapes front data) (offset : Nat)
    (rest : Bytes) :
    unescapeBytes offset (front ++ rest) =
      (data ++ ·) <$> unescapeBytes (offset + front.length) rest := by
  induction spelled generalizing offset with
  | nil => exact (id_map (unescapeBytes offset rest)).symm
  | literal other tail ih =>
    rw [List.cons_append, unescapeBytes_literal other, ih, Functor.map_map, List.length_cons,
      Nat.add_assoc, Nat.add_comm 1]
    rfl
  | triple first second tail ih =>
    rw [List.cons_append, List.cons_append, List.cons_append, unescapeBytes_triple first second, ih,
      Functor.map_map, List.length_cons, List.length_cons, List.length_cons, Nat.add_assoc,
      Nat.add_comm 3]
    rfl

theorem escapes_of_unescapeBytes {offset : Nat} {b data : Bytes}
    (read : unescapeBytes offset b = .ok data) : Escapes b data := by
  fun_induction unescapeBytes offset b generalizing data with
  | case1 =>
    obtain rfl := Except.ok.inj read
    exact .nil
  | case2 offset high low rest h l second first ih =>
    obtain ⟨others, tail, whole⟩ := bind_eq_ok_iff.1 read
    obtain rfl := Except.ok.inj whole
    exact .triple first second (ih tail)
  | case3 => contradiction
  | case4 => contradiction
  | case5 offset b rest other ih =>
    obtain ⟨others, tail, whole⟩ := bind_eq_ok_iff.1 read
    obtain rfl := Except.ok.inj whole
    exact .literal other (ih tail)

theorem unescapeBytes_eq_ok_iff {offset : Nat} {b data : Bytes} :
    unescapeBytes offset b = .ok data ↔ Escapes b data := by
  refine ⟨escapes_of_unescapeBytes, fun spelled => ?_⟩
  have whole := unescapeBytes_append spelled offset []
  rw [List.append_nil] at whole
  rw [whole, unescapeBytes]
  exact congrArg Except.ok (List.append_nil data)

/-- A value is read as a text exactly if its bytes stand for those of the text. -/
theorem unescape_eq_ok_iff {value text : String} :
    unescape value = .ok text ↔ Escapes (utf8 value) (utf8 text) := by
  rw [unescape, bind_eq_ok_iff]
  constructor
  · rintro ⟨data, read, spelled⟩
    split at spelled
    · next found =>
      obtain rfl := Except.ok.inj spelled
      obtain rfl := ofUtf8?_eq_some_iff.1 found
      exact unescapeBytes_eq_ok_iff.1 read
    · contradiction
  · intro spelled
    refine ⟨utf8 text, unescapeBytes_eq_ok_iff.2 spelled, ?_⟩
    rw [ofUtf8?_utf8]
    rfl

theorem unescape_escape (value : String) : unescape (escape value) = .ok value := by
  rw [unescape_eq_ok_iff, utf8_escape]
  exact escapes_flatMap (utf8 value)

end Overlay.Text.Percent
