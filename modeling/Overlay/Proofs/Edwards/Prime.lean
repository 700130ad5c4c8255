import Mathlib.Data.List.Prime
import Mathlib.NumberTheory.LucasPrimality
import Mathlib.Tactic.NormNum.Prime
import Overlay.Crypto.Ed25519

/-! The modulus `2 ^ 255 - 19` is prime. Lucas's test shows it from the prime factors
of its predecessor, the largest of which is shown to be prime in the same way. -/
namespace Overlay.Ed25519

/-- The power `a ^ n` modulo `m` for exponents of at most `bits` bits. -/
def powerModulo (m a : Nat) : (bits n : Nat) → Nat
  | 0, _ => 1
  | bits + 1, n => powerModulo m a bits (n / 2) ^ 2 * a ^ (n % 2) % m

theorem powerModulo_modEq (m a : Nat) {bits n : Nat} (fits : n < 2 ^ bits) :
    powerModulo m a bits n ≡ a ^ n [MOD m] := by
  induction bits generalizing n with
  | zero =>
    obtain rfl : n = 0 := by simpa using fits
    rfl
  | succ bits ih =>
    have half := ih (n := n / 2) (by rw [Nat.pow_succ] at fits; omega)
    calc powerModulo m a (bits + 1) n
        ≡ powerModulo m a bits (n / 2) ^ 2 * a ^ (n % 2) [MOD m] := Nat.mod_modEq _ _
      _ ≡ (a ^ (n / 2)) ^ 2 * a ^ (n % 2) [MOD m] := (half.pow 2).mul_right _
      _ = a ^ n := by rw [← pow_mul, ← pow_add]; congr 1; omega

theorem cast_pow_eq_one_iff {p : Nat} (a : Nat) {n : Nat} (large : 1 < p)
    (fits : n < 2 ^ 255) : (a : ZMod p) ^ n = 1 ↔ powerModulo p a 255 n % p = 1 := by
  have cast : (a : ZMod p) ^ n = 1 ↔ a ^ n ≡ 1 [MOD p] := by
    rw [← ZMod.natCast_eq_natCast_iff]
    simp
  rw [cast, powerModulo_modEq p a fits, Nat.ModEq, Nat.mod_eq_of_lt large]

/-- Lucas's test: the powers of `a` come back to one at the exponent `p - 1` and, for
each of its prime factors, not before. -/
theorem prime_of_factors {p : Nat} (a : Nat) (factors : List Nat)
    (primes : ∀ q ∈ factors, q.Prime) (bounds : 1 < p ∧ p ≤ 2 ^ 255)
    (product : factors.prod = p - 1) (full : powerModulo p a 255 (p - 1) % p = 1)
    (parts : ∀ q ∈ factors, powerModulo p a 255 ((p - 1) / q) % p ≠ 1) : p.Prime := by
  have fits : p - 1 < 2 ^ 255 := by omega
  refine lucas_primality p (a : ZMod p) ((cast_pow_eq_one_iff a bounds.1 fits).2 full) ?_
  intro q prime divides
  have member : q ∈ factors := by
    rw [← product] at divides
    exact mem_list_primes_of_dvd_prod prime.prime (fun f hf => (primes f hf).prime) divides
  rw [ne_eq, cast_pow_eq_one_iff a bounds.1 ((Nat.div_le_self _ _).trans_lt fits)]
  exact parts q member

private theorem prime_2773320623 : Nat.Prime 2773320623 :=
  prime_of_factors 5 [2, 2437, 569003] (by simp; norm_num) (by decide) (by decide)
    (by decide +kernel) (by decide +kernel)

private theorem prime_72106336199 : Nat.Prime 72106336199 :=
  prime_of_factors 7 [2, 13, 2773320623] (by simp [prime_2773320623]; norm_num) (by decide)
    (by decide) (by decide +kernel) (by decide +kernel)

private theorem prime_1919519569386763 : Nat.Prime 1919519569386763 :=
  prime_of_factors 2 [2, 3, 7, 19, 47, 47, 127, 8574133] (by simp; norm_num) (by decide)
    (by decide) (by decide +kernel) (by decide +kernel)

private theorem prime_31757755568855353 : Nat.Prime 31757755568855353 :=
  prime_of_factors 10 [2, 2, 2, 3, 31, 107, 223, 4153, 430751] (by simp; norm_num) (by decide)
    (by decide) (by decide +kernel) (by decide +kernel)

private theorem prime_75445702479781427272750846543864801 :
    Nat.Prime 75445702479781427272750846543864801 :=
  prime_of_factors 7
    [2, 2, 2, 2, 2, 3, 3, 5, 5, 75707, 72106336199, 1919519569386763]
    (by simp [prime_72106336199, prime_1919519569386763]; norm_num) (by decide) (by decide)
    (by decide +kernel) (by decide +kernel)

/-- The largest prime factor of `prime - 1`. -/
def largestFactor : Nat := 74058212732561358302231226437062788676166966415465897661863160754340907

private theorem prime_largestFactor : largestFactor.Prime :=
  prime_of_factors 2
    [2, 3, 353, 57467, 132049, 1923133, 31757755568855353, 75445702479781427272750846543864801]
    (by simp [prime_31757755568855353, prime_75445702479781427272750846543864801]; norm_num)
    (by decide) (by decide) (by decide +kernel) (by decide +kernel)

theorem prime_prime : prime.Prime :=
  prime_of_factors 2 [2, 2, 3, 65147, largestFactor]
    (by simp [prime_largestFactor]; norm_num) (by decide) (by decide)
    (by decide +kernel) (by decide +kernel)

end Overlay.Ed25519
