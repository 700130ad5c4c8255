import Overlay.Crypto.Ed25519
import Overlay.Proofs.Registry

/-! Which blocks the handlers with routing keys take for storage. The one of announcements takes
what is sound and of its kind. The one of names asks for no kind: beside what is sound and of its
kind it takes every other sound block, for which it has no routing key. -/
namespace Overlay.Handler

/-- Blocks of the kind of a handler. Untyped content is of no handler's kind, whichever kind it
names. -/
inductive Owns : Handler → Block → Prop where
  | test (data : Bytes) : Owns .test (.test data)
  | hello (announcement : Hello) : Owns .hello (.hello announcement)
  | name (records : NameBlock) : Owns .name (.name records)

section
variable (C : Curve) (now : Timestamp)

structure Admissible (h : Handler) (b : Block) : Prop where
  own : h.Owns b
  unexpired : ¬ b.expiration.isExpired now
  verified : b.verify C = .ok true

/-- Sound blocks that are not of the name system. -/
inductive Stray : Block → Prop where
  | test (data : Bytes) : Stray (.test data)
  | untyped {content : UntypedBlock} (unexpired : ¬ content.expiration.isExpired now) :
      Stray (.untyped content)
  | hello {announcement : Hello} (unexpired : ¬ announcement.expiration.isExpired now)
      (verified : announcement.verify C = .ok true) : Stray (.hello announcement)

end

variable {C : Curve} {now : Timestamp} {h : Handler} {b : Block}

theorem isSome_deriveKey_iff : (h.deriveKey b).isSome ↔ h ≠ .test ∧ h.Owns b := by
  constructor
  · intro derived
    cases h <;> cases b <;> first | contradiction | exact ⟨nofun, by constructor⟩
  · rintro ⟨keyed, own⟩
    cases own with
    | test => contradiction
    | hello => rfl
    | name => rfl

theorem Stray.not_owns (stray : Stray C now b) : ¬ Owns .name b := by
  intro own
  cases own
  nomatch stray

theorem storable_hello_iff : storable C now .hello b ↔ Admissible C now .hello b := by
  constructor
  · intro stored
    cases b with
    | hello announcement =>
      obtain ⟨unexpired, verified⟩ := isSound_iff.1 stored
      exact ⟨.hello announcement, unexpired, verified⟩
    | untyped | test | name => contradiction
  · rintro ⟨own, unexpired, verified⟩
    cases own
    exact isSound_iff.2 ⟨unexpired, verified⟩

theorem storable_name_iff :
    storable C now .name b ↔ Admissible C now .name b ∨ Stray C now b := by
  have judged : storable C now .name b ↔ _ := isSound_iff
  rw [judged]
  constructor
  · rintro ⟨unexpired, verified⟩
    cases b with
    | untyped content => exact .inr (.untyped unexpired)
    | test data => exact .inr (.test data)
    | hello announcement => exact .inr (.hello unexpired verified)
    | name records => exact .inl ⟨.name records, unexpired, verified⟩
  · rintro (⟨-, unexpired, verified⟩ | stray)
    · exact ⟨unexpired, verified⟩
    · cases stray with
      | test => exact ⟨Bool.false_ne_true, rfl⟩
      | untyped unexpired => exact ⟨unexpired, rfl⟩
      | hello unexpired verified => exact ⟨unexpired, verified⟩

/-- What a handler with routing keys takes for storage. It is what is sound and of its kind, but
for the strays that the handler of names takes. -/
theorem storable_keyed_iff (C : Curve) (now : Timestamp) (h : Handler) (b : Block)
    (keyed : h ≠ .test) :
    ((h.deriveKey b).isSome ↔ h.Owns b) ∧
      (h.storable C now b ↔ h.Admissible C now b ∨ h = .name ∧ Stray C now b) ∧
      ((h.storable C now b ↔ h.Admissible C now b) ↔ ¬ (h = .name ∧ Stray C now b)) := by
  have taken : h.storable C now b ↔ h.Admissible C now b ∨ h = .name ∧ Stray C now b := by
    cases h with
    | test => contradiction
    | hello => simp [storable_hello_iff]
    | name => simp [storable_name_iff]
  have apart : ¬ (h.Admissible C now b ∧ h = .name ∧ Stray C now b) := by
    rintro ⟨admissible, rfl, stray⟩
    exact stray.not_owns admissible.own
  refine ⟨isSome_deriveKey_iff.trans (and_iff_right keyed), taken, ?_⟩
  rw [taken]
  tauto

/-- Content without a type that names the kind of name blocks. -/
theorem storable_keyed_iff_untyped :
    let content : Block := .untyped ⟨.nameRecord, .never, [1, 2, 3]⟩
    Handler.name ≠ .test ∧ name.storable ed25519 (.ofMicros 0) content ∧
      (name.deriveKey content).isSome = false := by
  intro content
  have stray : Stray ed25519 (.ofMicros 0) content := .untyped (by decide)
  obtain ⟨keys, taken, -⟩ := storable_keyed_iff ed25519 (.ofMicros 0) .name content nofun
  refine ⟨nofun, taken.2 (.inr ⟨rfl, stray⟩), ?_⟩
  rw [Bool.eq_false_iff, ne_eq, keys]
  exact stray.not_owns

theorem name_takes_test_block :
    ¬ (name.storable ed25519 (.ofMicros 0) (.test [1, 2, 3]) ↔
      Admissible ed25519 (.ofMicros 0) .name (.test [1, 2, 3])) := by
  intro claimed
  have admissible := claimed.1 rfl
  nomatch admissible.own

end Overlay.Handler
