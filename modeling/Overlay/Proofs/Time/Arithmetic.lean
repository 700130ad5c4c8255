import Mathlib.Data.Nat.ModEq
import Mathlib.Order.Basic
import Mathlib.Order.Monotone.Defs
import Overlay.Proofs.Octets.Number
import Overlay.Proofs.Time

/-! Times as an order whose greatest element is "never". Adding a span stops there, truncating
stays below all but there, and both keep the order, as do the clock and the written form. -/
namespace Overlay

namespace Span
variable {d e : Span}

instance : Add Span := ⟨fun d e => ⟨d.nanoseconds + e.nanoseconds⟩⟩

instance : PartialOrder Span :=
  PartialOrder.lift nanoseconds fun _ _ same => congrArg Span.mk same

theorem microseconds_le (le : d ≤ e) : d.microseconds ≤ e.microseconds := Nat.div_le_div_right le

/-- Parts of a microsecond are lost only where both spans have some. -/
theorem microseconds_add (whole : 1000 ∣ d.nanoseconds) :
    (d + e).microseconds = d.microseconds + e.microseconds :=
  Nat.add_div_of_dvd_right whole

end Span

namespace Timestamp
variable {s t now : Timestamp} {d e : Span}

instance : PartialOrder Timestamp := PartialOrder.lift toNat fun _ _ => toNat_injective

theorem le_iff : s ≤ t ↔ s.toNat ≤ t.toNat := Iff.rfl

theorem le_never (t : Timestamp) : t ≤ never := t.toNat_le_never

theorem compare_eq (s t : Timestamp) : s.compare t = Ord.compare s.toNat t.toNat :=
  UInt64.compare_eq_toNat_compare_toNat s.micros t.micros

theorem toNat_add (t : Timestamp) (d : Span) :
    (t.add d).toNat = min (t.toNat + d.microseconds) never.toNat := by
  rw [toNat_never]
  by_cases finite : t = never
  · rw [add, if_pos (isNever_iff.2 finite), finite, toNat_never]
    omega
  · have last : UInt64.size - 1 = 18446744073709551615 := rfl
    rw [add, if_neg (mt isNever_iff.1 finite), toNat_ofMicros (by omega), last]
    omega

theorem add_eq_never_iff :
    t.add d = never ↔ t = never ∨ never.toNat ≤ t.toNat + d.microseconds := by
  have bound := t.toNat_le_never
  constructor
  · intro reached
    have sum := t.toNat_add d
    rw [reached] at sum
    exact .inr (by omega)
  · intro reached
    apply toNat_injective
    rw [toNat_add]
    rcases reached with rfl | reached <;> omega

theorem le_add (t : Timestamp) (d : Span) : t ≤ t.add d := by
  have bound := t.toNat_le_never
  rw [le_iff, toNat_add]
  omega

theorem add_le_add (before : s ≤ t) (shorter : d ≤ e) : s.add d ≤ t.add e := by
  rw [le_iff, toNat_add, toNat_add]
  exact min_le_min_right _ (Nat.add_le_add before (Span.microseconds_le shorter))

/-- What is lost where the first sum stops is lost of the second as well. -/
theorem add_add (whole : 1000 ∣ d.nanoseconds) : (t.add d).add e = t.add (d + e) := by
  apply toNat_injective
  rw [toNat_add, toNat_add, toNat_add, Span.microseconds_add whole]
  omega

theorem isSome_ofEpochSeconds?_iff {seconds : Nat} :
    (ofEpochSeconds? seconds).isSome ↔ seconds ≤ 18446744073709 := by
  constructor
  · intro found
    obtain ⟨t, found⟩ := Option.isSome_iff_exists.1 found
    exact le_of_ofEpochSeconds? found
  · intro within
    rw [ofEpochSeconds?, epochSeconds_never]
    split
    · rfl
    · next earlier =>
      have fits : seconds * 1000000 < UInt64.size := by
        rw [UInt64.size]
        omega
      rw [if_pos fits]
      rfl

theorem truncateToSeconds_le (t : Timestamp) : t.truncateToSeconds ≤ t := by
  by_cases finite : t = never
  · rw [finite, truncateToSeconds_never]
  · rw [le_iff, toNat_truncateToSeconds finite]
    exact Nat.div_mul_le_self ..

theorem truncateToSeconds_mono : Monotone truncateToSeconds := by
  intro s t before
  by_cases finite : t = never
  · rw [finite, truncateToSeconds_never]
    exact le_never _
  · have earlier : s ≠ never := by
      rintro rfl
      exact finite (le_antisymm t.le_never before)
    rw [le_iff, toNat_truncateToSeconds finite, toNat_truncateToSeconds earlier]
    exact Nat.mul_le_mul_right _ (Nat.div_le_div_right before)

theorem truncateToSeconds_eq_never_iff : t.truncateToSeconds = never ↔ t = never := by
  constructor
  · exact not_imp_not.1 truncateToSeconds_ne_never
  · rintro rfl
    exact truncateToSeconds_never

theorem truncateToSeconds_truncateToSeconds (t : Timestamp) :
    t.truncateToSeconds.truncateToSeconds = t.truncateToSeconds := by
  by_cases finite : t = never
  · rw [finite, truncateToSeconds_never, truncateToSeconds_never]
  · apply toNat_injective
    rw [toNat_truncateToSeconds (truncateToSeconds_ne_never finite),
      toNat_truncateToSeconds finite, epochSeconds_truncateToSeconds]

theorem compare_bytes (s t : Timestamp) : Ord.compare s.bytes t.bytes = s.compare t := by
  have sized : s.bytes.length = t.bytes.length := by rw [length_bytes, length_bytes]
  rw [BigEndian.compare_eq_compare_decode sized, compare_eq, bytes, bytes,
    BigEndian.decode_encode_of_lt s.micros.toNat_lt,
    BigEndian.decode_encode_of_lt t.micros.toNat_lt]

/-- All that times are used for, up to the last microsecond before "never": adding spans, reading
whole seconds, truncating to them, expiring, and being written. -/
theorem arithmetic_exact (s t now : Timestamp) (d e : Span) :
    ((t.add d).toNat = min (t.toNat + d.nanoseconds / 1000) (2 ^ 64 - 1) ∧
      (t.add d = never ↔ t = never ∨ 2 ^ 64 - 1 ≤ t.toNat + d.nanoseconds / 1000) ∧
      t ≤ t.add d ∧ (s ≤ t → d ≤ e → s.add d ≤ t.add e) ∧
      (1000 ∣ d.nanoseconds → 1000 ∣ e.nanoseconds → (t.add d).add e = t.add (d + e))) ∧
    (∀ seconds, ((ofEpochSeconds? seconds).isSome ↔ seconds ≤ 18446744073709) ∧
      ∀ u, ofEpochSeconds? seconds = some u → u.epochSeconds = seconds) ∧
    (Monotone truncateToSeconds ∧ t.truncateToSeconds ≤ t ∧
      t.truncateToSeconds.truncateToSeconds = t.truncateToSeconds ∧
      t.truncateToSeconds.epochSeconds = t.epochSeconds ∧
      (t.truncateToSeconds = never ↔ t = never)) ∧
    (s ≤ t → t.isExpired now → s.isExpired now) ∧
    (Ord.compare s.bytes t.bytes = s.compare t ∧ s.compare t = Ord.compare s.toNat t.toNat ∧
      ofBytes ⟨t.bytes, t.length_bytes⟩ = t ∧ ∀ b : Octets 8, (ofBytes b).bytes = b.bytes) := by
  refine ⟨⟨?sum, ?never, t.le_add d, add_le_add, fun whole _ => add_add whole⟩,
    fun seconds => ⟨isSome_ofEpochSeconds?_iff, fun _ => epochSeconds_of_ofEpochSeconds?⟩,
    ⟨truncateToSeconds_mono, t.truncateToSeconds_le, t.truncateToSeconds_truncateToSeconds,
      t.epochSeconds_truncateToSeconds, truncateToSeconds_eq_never_iff⟩,
    isExpired_of_toNat_le,
    compare_bytes s t, compare_eq s t, t.ofMicros_decode_bytes,
    fun b => bytes_ofMicros_decode b.length_bytes⟩
  case sum => exact t.toNat_add d
  case never => exact add_eq_never_iff

/-- Of the last time before "never" each law says something: it has come, so that all times before
it have, and whole spans lead beyond it together as they do one after the other. -/
theorem arithmetic_exact_last :
    (ofMicros 5 ≤ ofMicros (2 ^ 64 - 2) ∧
      (ofMicros (2 ^ 64 - 2)).isExpired (ofMicros (2 ^ 64 - 2)) ∧
      (ofMicros 5).isExpired (ofMicros (2 ^ 64 - 2))) ∧
    1000 ∣ 1000 ∧ 1000 ∣ 2000 ∧
      ((ofMicros (2 ^ 64 - 2)).add ⟨1000⟩).add ⟨2000⟩ =
        (ofMicros (2 ^ 64 - 2)).add (⟨1000⟩ + ⟨2000⟩) := by
  obtain ⟨⟨-, -, -, -, sum⟩, -, -, expires, -⟩ :=
    arithmetic_exact (ofMicros 5) (ofMicros (2 ^ 64 - 2)) (ofMicros (2 ^ 64 - 2)) ⟨1000⟩ ⟨2000⟩
  have before : ofMicros 5 ≤ ofMicros (2 ^ 64 - 2) := by
    rw [le_iff]
    decide
  have come : (ofMicros (2 ^ 64 - 2)).isExpired (ofMicros (2 ^ 64 - 2)) := by decide
  exact ⟨⟨before, come, expires before come⟩, by decide, by decide, sum (by decide) (by decide)⟩

end Timestamp
end Overlay
