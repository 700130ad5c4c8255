import Overlay.Proofs.Octets.Endian
import Overlay.Time

/-! Times in their written forms, as eight bytes and as whole seconds. -/
namespace Overlay.Timestamp

@[simp] theorem ofMicros_toNat (t : Timestamp) : ofMicros t.toNat = t := by
  simp [ofMicros, toNat]

theorem ofMicros_decode_bytes (t : Timestamp) : ofMicros (BigEndian.decode t.bytes) = t := by
  rw [bytes, BigEndian.decode_encode_of_lt t.micros.toNat_lt]
  exact t.ofMicros_toNat

theorem bytes_ofMicros_decode {b : Bytes} (sized : b.length = 8) :
    (ofMicros (BigEndian.decode b)).bytes = b :=
  BigEndian.encode_decode_mod sized

theorem bytes_injective {s t : Timestamp} (same : s.bytes = t.bytes) : s = t := by
  rw [← s.ofMicros_decode_bytes, same, t.ofMicros_decode_bytes]

theorem toNat_lt (t : Timestamp) : t.toNat < UInt64.size := t.micros.toNat_lt

theorem toNat_ofMicros {micros : Nat} (fits : micros < UInt64.size) :
    (ofMicros micros).toNat = micros :=
  UInt64.toNat_ofNat_of_lt fits

theorem toNat_never : never.toNat = 18446744073709551615 := by decide

theorem epochSeconds_never : never.epochSeconds = 18446744073709 := by decide

theorem toNat_injective {s t : Timestamp} (same : s.toNat = t.toNat) : s = t := by
  rw [← s.ofMicros_toNat, same, t.ofMicros_toNat]

theorem toNat_le_never (t : Timestamp) : t.toNat ≤ never.toNat := by
  rw [toNat_never]
  exact Nat.le_of_lt_succ t.toNat_lt

theorem isNever_iff {t : Timestamp} : t.isNever ↔ t = never := by simp [isNever]

theorem isExpired_iff {t now : Timestamp} :
    t.isExpired now ↔ t ≠ never ∧ t.toNat ≤ now.toNat := by
  simp [isExpired, isNever, toNat, UInt64.le_iff_toNat_le]

/-- What is before a time that has come has come as well: nothing is behind "never". -/
theorem isExpired_of_toNat_le {s t now : Timestamp} (before : s.toNat ≤ t.toNat)
    (expired : t.isExpired now) : s.isExpired now := by
  obtain ⟨finite, come⟩ := isExpired_iff.1 expired
  refine isExpired_iff.2 ⟨?_, Nat.le_trans before come⟩
  rintro rfl
  exact finite (toNat_injective (Nat.le_antisymm t.toNat_le_never before))

theorem earlier_cases (s t : Timestamp) :
    earlier s t = s ∧ s.toNat ≤ t.toNat ∨ earlier s t = t ∧ t.toNat ≤ s.toNat := by
  rw [earlier]
  split
  · next before => exact .inl ⟨rfl, before⟩
  · next after => exact .inr ⟨rfl, Nat.le_of_not_le after⟩

/-- The first of some times. Of no times it is "never". -/
structure IsEarliest (t : Timestamp) (times : List Timestamp) : Prop where
  le : ∀ u ∈ times, t.toNat ≤ u.toNat
  attained : times = [] ∧ t = never ∨ t ∈ times

private theorem foldl_earlier (times : List Timestamp) (start : Timestamp) :
    (times.foldl earlier start).toNat ≤ start.toNat ∧
      (∀ u ∈ times, (times.foldl earlier start).toNat ≤ u.toNat) ∧
      (times.foldl earlier start = start ∨ times.foldl earlier start ∈ times) := by
  induction times generalizing start with
  | nil => exact ⟨Nat.le_refl _, List.forall_mem_nil _, .inl rfl⟩
  | cons u times ih =>
    obtain ⟨first, others, attained⟩ := ih (earlier start u)
    rw [List.foldl_cons]
    rcases earlier_cases start u with ⟨same, before⟩ | ⟨same, before⟩
    · rw [same] at first others attained ⊢
      refine ⟨first, List.forall_mem_cons.2 ⟨Nat.le_trans first before, others⟩, ?_⟩
      exact attained.imp_right (List.mem_cons_of_mem u)
    · rw [same] at first others attained ⊢
      refine ⟨Nat.le_trans first before, List.forall_mem_cons.2 ⟨first, others⟩, .inr ?_⟩
      rcases attained with attained | attained
      · rw [attained]
        exact List.mem_cons_self
      · exact List.mem_cons_of_mem u attained

theorem isEarliest_foldl (times : List Timestamp) :
    IsEarliest (times.foldl earlier never) times := by
  obtain ⟨-, least, attained⟩ := foldl_earlier times never
  refine ⟨least, ?_⟩
  rcases attained with attained | attained
  · cases times with
    | nil => exact .inl ⟨rfl, rfl⟩
    | cons u times =>
      -- Nothing is before "never", so the first time is "never" as well.
      have before := least u List.mem_cons_self
      rw [attained] at before ⊢
      rw [toNat_injective (Nat.le_antisymm before u.toNat_le_never)]
      exact .inr List.mem_cons_self
  · exact .inr attained

/-- The first of some times has come exactly if one of them has. -/
theorem IsEarliest.isExpired_iff {t now : Timestamp} {times : List Timestamp}
    (earliest : t.IsEarliest times) :
    t.isExpired now ↔ ∃ u ∈ times, u.isExpired now := by
  constructor
  · intro expired
    rcases earliest.attained with ⟨-, rfl⟩ | attained
    · exact absurd rfl (Timestamp.isExpired_iff.1 expired).1
    · exact ⟨t, attained, expired⟩
  · rintro ⟨u, member, expired⟩
    exact isExpired_of_toNat_le (earliest.le u member) expired

/-- The time that is read from the whole seconds of a time. -/
def throughSeconds (t : Timestamp) : Timestamp :=
  if t.epochSeconds = never.epochSeconds then never else ofMicros (t.epochSeconds * 1000000)

theorem ofEpochSeconds?_epochSeconds (t : Timestamp) :
    ofEpochSeconds? t.epochSeconds = some t.throughSeconds := by
  have bound := t.toNat_lt
  have fits : t.epochSeconds * 1000000 < UInt64.size := by
    rw [epochSeconds]
    omega
  rw [ofEpochSeconds?, throughSeconds, if_pos fits]
  split <;> rfl

theorem epochSeconds_of_ofEpochSeconds? {seconds : Nat} {t : Timestamp}
    (found : ofEpochSeconds? seconds = some t) : t.epochSeconds = seconds := by
  rw [ofEpochSeconds?] at found
  split at found
  · next last =>
    obtain rfl := Option.some.inj found
    exact last.symm
  · split at found
    · next fits =>
      obtain rfl := Option.some.inj found
      rw [epochSeconds, toNat_ofMicros fits, Nat.mul_div_cancel _ (by decide)]
    · contradiction

/-- A time that is read from whole seconds is read from its own. -/
theorem throughSeconds_of_ofEpochSeconds? {seconds : Nat} {t : Timestamp}
    (found : ofEpochSeconds? seconds = some t) : t.throughSeconds = t := by
  have own := t.ofEpochSeconds?_epochSeconds
  rw [epochSeconds_of_ofEpochSeconds? found, found] at own
  exact (Option.some.inj own).symm

theorem epochSeconds_throughSeconds (t : Timestamp) :
    t.throughSeconds.epochSeconds = t.epochSeconds :=
  epochSeconds_of_ofEpochSeconds? t.ofEpochSeconds?_epochSeconds

theorem le_of_ofEpochSeconds? {seconds : Nat} {t : Timestamp}
    (found : ofEpochSeconds? seconds = some t) : seconds ≤ 18446744073709 := by
  rw [← epochSeconds_of_ofEpochSeconds? found, ← epochSeconds_never]
  apply Nat.div_le_div_right
  rw [toNat_never]
  exact Nat.le_of_lt_succ t.toNat_lt

theorem truncateToSeconds_never : never.truncateToSeconds = never := by decide

theorem toNat_truncateToSeconds {t : Timestamp} (finite : t ≠ never) :
    t.truncateToSeconds.toNat = t.epochSeconds * 1000000 := by
  have bound := t.toNat_lt
  rw [truncateToSeconds, if_neg (mt isNever_iff.1 finite)]
  apply toNat_ofMicros
  rw [epochSeconds]
  omega

theorem epochSeconds_truncateToSeconds (t : Timestamp) :
    t.truncateToSeconds.epochSeconds = t.epochSeconds := by
  by_cases finite : t = never
  · rw [finite, truncateToSeconds_never]
  · rw [epochSeconds, toNat_truncateToSeconds finite, Nat.mul_div_cancel _ (by decide)]

theorem truncateToSeconds_ne_never {t : Timestamp} (finite : t ≠ never) :
    t.truncateToSeconds ≠ never := by
  intro same
  have seconds := toNat_truncateToSeconds finite
  rw [same, toNat_never] at seconds
  omega

/-- The times that truncation prepares for their seconds to be read back. In the last second
of all only "never" is one: other times there are not "never" when they are truncated, but
their second is read as that. -/
def KeptBySeconds (t : Timestamp) : Prop := t = never ∨ t.toNat < 18446744073709000000

instance (t : Timestamp) : Decidable t.KeptBySeconds :=
  inferInstanceAs (Decidable (t = never ∨ t.toNat < 18446744073709000000))

theorem throughSeconds_truncateToSeconds (t : Timestamp) :
    t.truncateToSeconds.throughSeconds =
      if t.KeptBySeconds then t.truncateToSeconds else never := by
  rw [throughSeconds, epochSeconds_truncateToSeconds, epochSeconds_never]
  by_cases finite : t = never
  · rw [finite, truncateToSeconds_never]
    decide
  have bound := t.toNat_lt
  have last_iff : t.epochSeconds = 18446744073709 ↔ ¬ t.toNat < 18446744073709000000 := by
    simp only [epochSeconds, UInt64.size] at *
    omega
  by_cases last : t.epochSeconds = 18446744073709
  · simp [KeptBySeconds, last, finite, last_iff.1 last]
  · have truncated : t.truncateToSeconds = ofMicros (t.epochSeconds * 1000000) := by
      rw [← t.truncateToSeconds.ofMicros_toNat, toNat_truncateToSeconds finite]
    rw [if_neg last, if_pos (.inr (Decidable.not_not.1 (mt last_iff.2 last))), truncated]

end Overlay.Timestamp
