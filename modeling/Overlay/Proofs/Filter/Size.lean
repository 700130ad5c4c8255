import Mathlib.Algebra.Ring.Nat
import Mathlib.Data.Nat.Log
import Mathlib.Order.Bounds.Basic
import Mathlib.Order.MinMax
import Overlay.Filter.Bloom

/-! How large a filter is made for an expected number of results. The product saturates and the
power of two may have too many bits, but only where the largest size is taken anyway. -/
namespace Overlay.Bloom

/-- The powers of two that reach a number. -/
def powersFrom (n : Nat) : Set Nat := {p | p.isPowerOfTwo ∧ n ≤ p}

theorem powersFrom_anti {m n : Nat} (le : m ≤ n) : powersFrom n ⊆ powersFrom m :=
  fun _ ⟨power, reaches⟩ => ⟨power, Nat.le_trans le reaches⟩

theorem isLeast_two_pow_clog (n : Nat) : IsLeast (powersFrom n) (2 ^ Nat.clog 2 n) := by
  refine ⟨⟨⟨_, rfl⟩, Nat.le_pow_clog (by decide) n⟩, ?_⟩
  rintro _ ⟨⟨j, rfl⟩, reaches⟩
  exact Nat.pow_le_pow_right (by decide) (Nat.clog_le_of_le_pow reaches)

theorem isLeast_doubled {steps k n : Nat} (within : n ≤ 2 ^ (k + steps))
    (below : 2 ^ k ∈ lowerBounds (powersFrom n)) :
    IsLeast (powersFrom n) (doubled steps (2 ^ k) n) := by
  induction steps generalizing k with
  | zero => exact ⟨⟨⟨k, rfl⟩, within⟩, below⟩
  | succ steps ih =>
    rw [doubled]
    split
    · next reaches => exact ⟨⟨⟨k, rfl⟩, reaches⟩, below⟩
    · next short =>
      rw [Nat.mul_comm, ← Nat.pow_succ]
      apply ih
      · rwa [Nat.succ_add_eq_add_succ]
      · rintro _ ⟨⟨j, rfl⟩, reaches⟩
        have later : k < j := by
          refine (Nat.pow_lt_pow_iff_right (by decide : 1 < 2)).1 ?_
          exact Nat.lt_of_lt_of_le (Nat.lt_of_not_le short) reaches
        exact Nat.pow_le_pow_right (by decide) later

theorem isLeast_doubled_one {n : Nat} (fits : n ≤ UInt64.size) :
    IsLeast (powersFrom n) (doubled 64 1 n) := by
  refine isLeast_doubled (k := 0) fits ?_
  rintro _ ⟨⟨j, rfl⟩, -⟩
  exact Nat.one_le_two_pow

/-- There is no power of two of 64 bits exactly where the least one needs more. -/
theorem nextPowerOfTwo?_eq {n p : Nat} (fits : n ≤ UInt64.size)
    (least : IsLeast (powersFrom n) p) :
    nextPowerOfTwo? n = if p < UInt64.size then some p else none := by
  rw [nextPowerOfTwo?, (isLeast_doubled_one fits).unique least]

theorem min_nextPowerOfTwo?_getD {n p : Nat} (fits : n ≤ UInt64.size)
    (least : IsLeast (powersFrom n) p) :
    min ((nextPowerOfTwo? n).getD maxResultSize) maxResultSize = min maxResultSize p := by
  rw [nextPowerOfTwo?_eq fits least, Nat.min_comm]
  split
  · rfl
  · next large =>
    rw [Option.getD_none, Nat.min_self, Nat.min_eq_left]
    exact Nat.le_trans (by decide) (Nat.le_of_not_lt large)

theorem sizeFor_eq {n p : Nat} (least : IsLeast (powersFrom (max 8 (4 * n))) p) :
    sizeFor n = min maxResultSize p := by
  have saturated : saturatingMul n 4 ≤ UInt64.size := by
    rw [saturatingMul]
    omega
  have bounded : max (saturatingMul n 4) 8 ≤ UInt64.size := Nat.max_le.2 ⟨saturated, by decide⟩
  have wanted := isLeast_two_pow_clog (max (saturatingMul n 4) 8)
  rw [sizeFor, min_nextPowerOfTwo?_getD bounded wanted]
  by_cases fits : n * 4 ≤ UInt64.size - 1
  · have same : max (saturatingMul n 4) 8 = max 8 (4 * n) := by
      rw [saturatingMul, Nat.min_eq_left fits, Nat.mul_comm, Nat.max_comm]
    rw [same] at wanted ⊢
    rw [wanted.unique least]
  · have large : maxResultSize ≤ saturatingMul n 4 := by
      rw [saturatingMul, Nat.min_eq_right (Nat.le_of_not_le fits)]
      decide
    have larger : saturatingMul n 4 ≤ 4 * n := Nat.mul_comm n 4 ▸ Nat.min_le_left ..
    have reached := (Nat.le_max_left ..).trans wanted.1.2
    have further := (Nat.le_max_right ..).trans least.1.2
    rw [Nat.min_eq_left (large.trans reached), Nat.min_eq_left (large.trans (larger.trans further))]

theorem isPowerOfTwo_sizeFor (n : Nat) : (sizeFor n).isPowerOfTwo := by
  rw [sizeFor_eq (isLeast_two_pow_clog _)]
  rcases Nat.le_total maxResultSize (2 ^ Nat.clog 2 (max 8 (4 * n))) with capped | below
  · rw [Nat.min_eq_left capped]
    exact ⟨15, rfl⟩
  · rw [Nat.min_eq_right below]
    exact ⟨_, rfl⟩

theorem sizeFor_le (n : Nat) : sizeFor n ≤ maxResultSize := Nat.min_le_right ..

theorem monotone_sizeFor : Monotone sizeFor := by
  intro m n le
  have least := isLeast_two_pow_clog (max 8 (4 * m))
  have later := isLeast_two_pow_clog (max 8 (4 * n))
  rw [sizeFor_eq least, sizeFor_eq later]
  have wider : max 8 (4 * m) ≤ max 8 (4 * n) := by omega
  exact min_le_min_left _ (least.2 (powersFrom_anti wider later.1))

theorem min_le_sizeFor (n : Nat) : min maxResultSize (max 8 (4 * n)) ≤ sizeFor n := by
  have least := isLeast_two_pow_clog (max 8 (4 * n))
  rw [sizeFor_eq least]
  exact min_le_min_left _ least.1.2

theorem sizeFor_pos (n : Nat) : 0 < sizeFor n := by
  refine Nat.lt_of_lt_of_le ?_ (min_le_sizeFor n)
  rw [maxResultSize]
  omega

/-- A filter has the size of the least power of two that reaches eight bytes and four for each
result, as far as the largest size goes. -/
theorem sizeFor_exact :
    Monotone sizeFor ∧ ∀ n,
      (∃ p, IsLeast {q | q.isPowerOfTwo ∧ max 8 (4 * n) ≤ q} p ∧ sizeFor n = min 32768 p) ∧
      (sizeFor n).isPowerOfTwo ∧ 8 ≤ sizeFor n ∧ sizeFor n ≤ 32768 ∧
      (n ≤ 8192 → 4 * n ≤ sizeFor n) := by
  refine ⟨monotone_sizeFor, fun n => ⟨?exact, isPowerOfTwo_sizeFor n, ?least, sizeFor_le n, ?_⟩⟩
  case exact => exact ⟨_, isLeast_two_pow_clog _, sizeFor_eq (isLeast_two_pow_clog _)⟩
  all_goals
    have reached := min_le_sizeFor n
    rw [maxResultSize] at reached
    omega

theorem sizeFor_exact_largest : 8192 ≤ 8192 ∧ 4 * 8192 ≤ sizeFor 8192 :=
  ⟨le_rfl, (sizeFor_exact.2 8192).2.2.2.2 le_rfl⟩

-- Neither the product nor a power of two that reaches it has 64 bits.
example : sizeFor (UInt64.size - 1) = 32768 := by decide

end Overlay.Bloom
