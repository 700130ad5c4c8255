import Mathlib.Data.List.TakeWhile
import Overlay.Json.Reader
import Overlay.Proofs.Except

/-! Readers by what they take off the front of a text. Blanks in front of a value are passed over,
and what follows it is left, as long as it does not prolong a number. -/
namespace Overlay.Json
variable {α β : Type}

theorem bind_of_eq_ok {read : Reader α} {next : α → Reader β} {cs rest : List Char} {a : α}
    (done : read cs = .ok (a, rest)) : (read >>= next) cs = next a rest := by
  have unfolded : (read >>= next) cs = (read cs >>= fun (a, rest) => next a rest) := rfl
  rw [unfolded, done]
  rfl

theorem Reader.bind_eq_ok_iff {read : Reader α} {next : α → Reader β} {cs rest : List Char}
    {b : β} : (read >>= next) cs = .ok (b, rest) ↔
      ∃ a left, read cs = .ok (a, left) ∧ next a left = .ok (b, rest) := by
  have unfolded : (read >>= next) cs = (read cs >>= fun (a, rest) => next a rest) := rfl
  rw [unfolded, Overlay.bind_eq_ok_iff, Prod.exists]

theorem pure_eq_ok_iff {a b : α} {cs rest : List Char} :
    (pure a : Reader α) cs = .ok (b, rest) ↔ a = b ∧ cs = rest := by
  have unfolded : (pure a : Reader α) cs = .ok (a, cs) := rfl
  rw [unfolded, Except.ok.injEq, Prod.mk.injEq]

theorem get_bind {next : List Char → Reader β} {cs : List Char} : (get >>= next) cs = next cs cs :=
  rfl

theorem set_bind {next : PUnit → Reader β} {cs rest : List Char} :
    (set rest >>= next) cs = next ⟨⟩ rest := rfl

def Blank (cs : List Char) : Prop := ∀ c ∈ cs, isBlank c

theorem skipBlanks_append {blanks rest : List Char} {c : Char} (blank : Blank blanks)
    (solid : isBlank c = false) :
    skipBlanks (blanks ++ c :: rest) = .ok (c :: rest, c :: rest) := by
  simp [skipBlanks, List.dropWhile_append_of_pos blank, solid]

theorem skipBlanks_eq_ok (cs : List Char) :
    skipBlanks cs = .ok (cs.dropWhile isBlank, cs.dropWhile isBlank) := rfl

/-- A number in front of it is at its end. -/
def EndsNumber (rest : List Char) : Prop :=
  ∀ c ∈ rest.head?, c.isDigit = false ∧ c ≠ '.' ∧ c ≠ 'e' ∧ c ≠ 'E'

theorem endsNumber_nil : EndsNumber [] := nofun

theorem endsNumber_cons {c : Char}
    (other : c.isDigit = false ∧ c ≠ '.' ∧ c ≠ 'e' ∧ c ≠ 'E') (rest : List Char) :
    EndsNumber (c :: rest) := by
  rintro _ ⟨rfl⟩
  exact other

theorem endsNumber_append {blanks rest : List Char} (blank : Blank blanks)
    (ended : EndsNumber rest) : EndsNumber (blanks ++ rest) := by
  cases blanks with
  | nil => exact ended
  | cons c blanks =>
    have front := blank c List.mem_cons_self
    refine endsNumber_cons ?_ _
    simp only [isBlank, Bool.or_eq_true, beq_iff_eq] at front
    obtain ((rfl | rfl) | rfl) | rfl := front <;> decide

def Reads (read : Reader α) (written : List Char) (a : α) : Prop :=
  ∀ blanks rest, Blank blanks → EndsNumber rest →
    read (blanks ++ (written ++ rest)) = .ok (a, rest)

theorem Reader.run_eq_ok_iff {read : Reader α} {s : String} {a : α} :
    read.run s = .ok a ↔ ∃ rest, read s.toList = .ok (a, rest) ∧ Blank rest := by
  constructor
  · intro done
    unfold Reader.run at done
    dsimp only at done
    split at done
    · next value _ whole =>
      obtain rfl := Except.ok.inj done
      obtain ⟨a, rest, found, whole⟩ := Reader.bind_eq_ok_iff.1 whole
      rw [bind_of_eq_ok (skipBlanks_eq_ok rest)] at whole
      cases ended : rest.dropWhile isBlank with
      | nil =>
        rw [ended] at whole
        cases whole
        exact ⟨rest, found, List.dropWhile_eq_nil_iff.1 ended⟩
      | cons c left =>
        rw [ended] at whole
        contradiction
    · contradiction
  · rintro ⟨rest, found, blank⟩
    have ended : rest.dropWhile isBlank = [] := List.dropWhile_eq_nil_iff.2 blank
    rw [Reader.run, bind_of_eq_ok found, bind_of_eq_ok (skipBlanks_eq_ok rest), ended]
    rfl

theorem Reads.run {read : Reader α} {s : String} {a : α} (reads : Reads read s.toList a) :
    read.run s = .ok a := by
  have whole := reads [] [] (List.forall_mem_nil _) endsNumber_nil
  rw [List.nil_append, List.append_nil] at whole
  exact Reader.run_eq_ok_iff.2 ⟨[], whole, List.forall_mem_nil _⟩

end Overlay.Json
