import Mathlib.FieldTheory.Finite.Basic
import Mathlib.NumberTheory.LegendreSymbol.QuadraticReciprocity
import Mathlib.Tactic.LinearCombination
import Overlay.Proofs.Edwards.Prime

/-! Field elements as residue classes modulo the prime, where inverses and square roots
are what the powers that compute them are meant to be. -/
namespace Overlay.Ed25519

instance : Fact prime.Prime := ⟨prime_prime⟩

def residue (x : Field) : ZMod prime := (x.val : ZMod prime)

theorem natCast_ne_zero {n : Nat} (indivisible : ¬prime ∣ n) : (n : ZMod prime) ≠ 0 :=
  fun zero => indivisible ((ZMod.natCast_eq_zero_iff n prime).1 zero)

theorem residue_injective {x y : Field} (same : residue x = residue y) : x = y := by
  apply Fin.ext
  have values := congrArg ZMod.val same
  rwa [residue, residue, ZMod.val_natCast_of_lt x.isLt, ZMod.val_natCast_of_lt y.isLt] at values

@[simp] theorem residue_inj {x y : Field} : residue x = residue y ↔ x = y :=
  ⟨residue_injective, congrArg residue⟩

@[simp] theorem residue_add (x y : Field) : residue (x + y) = residue x + residue y := by
  simp [residue, Fin.val_add]

@[simp] theorem residue_mul (x y : Field) : residue (x * y) = residue x * residue y := by
  simp [residue, Fin.val_mul]

@[simp] theorem residue_sub (x y : Field) : residue (x - y) = residue x - residue y := by
  simp only [residue, Fin.sub_def, ZMod.natCast_mod, Nat.cast_add, Nat.cast_sub y.isLt.le,
    ZMod.natCast_self]
  ring

@[simp] theorem residue_neg (x : Field) : residue (-x) = -residue x := by
  simp only [residue, Fin.neg_def, ZMod.natCast_mod, Nat.cast_sub x.isLt.le, ZMod.natCast_self]
  ring

@[simp] theorem residue_ofNat (n : Nat) : residue (Fin.ofNat prime n) = n := by
  simp [residue]

@[simp] theorem residue_zero : residue 0 = 0 := (residue_ofNat 0).trans Nat.cast_zero

@[simp] theorem residue_one : residue 1 = 1 := (residue_ofNat 1).trans Nat.cast_one

@[simp] theorem residue_power (x : Field) (n : Nat) :
    residue (Field.power x n) = residue x ^ n := by
  fun_induction Field.power x n with
  | case1 => simp
  | case2 n nonzero root even ih =>
    have half : residue root = residue x ^ (n / 2) := ih
    rw [residue_mul, half, ← pow_add]
    congr 1
    omega
  | case3 n nonzero root odd ih =>
    have half : residue root = residue x ^ (n / 2) := ih
    rw [residue_mul, residue_mul, half, ← pow_add, ← pow_succ]
    congr 1
    omega

@[simp] theorem residue_inverse (x : Field) : residue (Field.inverse x) = (residue x)⁻¹ := by
  rw [Field.inverse, residue_power]
  by_cases zero : residue x = 0
  · rw [zero, inv_zero, zero_pow (by decide)]
  · apply eq_inv_of_mul_eq_one_left
    rw [← pow_succ]
    exact ZMod.pow_card_sub_one_eq_one zero

/-! Parity tells a field element from its negative. -/

theorem isOdd_neg {x : Field} (nonzero : x ≠ 0) : Field.isOdd (-x) = !Field.isOdd x := by
  have bound := x.isLt
  have positive : x.val ≠ 0 := fun zero => nonzero (Fin.ext zero)
  have value : (-x).val = prime - x.val := by
    rw [Fin.neg_def]
    exact Nat.mod_eq_of_lt (by omega)
  have odd : prime % 2 = 1 := by decide
  rw [Field.isOdd, Field.isOdd, value, Bool.eq_iff_iff]
  simp
  omega

/-- Of the two elements with a given square, the one that is even. -/
theorem even_of_sq_eq {r x : Field} (squares : residue r ^ 2 = residue x ^ 2)
    (even : Field.isOdd x = false) : (if Field.isOdd r then -r else r) = x := by
  rcases sq_eq_sq_iff_eq_or_eq_neg.1 squares with same | opposite
  · rw [residue_injective same, if_neg (by simp [even])]
  · have negated : r = -x := residue_injective (opposite.trans (residue_neg x).symm)
    by_cases zero : x = 0
    · subst zero
      rw [negated]
      decide
    · rw [negated, if_pos (by simp [isOdd_neg zero, even])]
      exact residue_injective (by simp)

theorem imaginary_sq : residue Field.imaginary ^ 2 = -1 := by
  have nonsquare : ¬IsSquare (2 : ZMod prime) := by
    rw [ZMod.exists_sq_eq_two_iff (by decide)]
    decide
  have two_ne : (2 : ZMod prime) ≠ 0 := by
    rintro zero
    exact nonsquare (zero ▸ IsSquare.zero)
  have root : residue Field.imaginary ^ 2 = 2 ^ (prime / 2) := by
    have two : residue 2 = 2 := residue_ofNat 2
    rw [Field.imaginary, residue_power, two, ← pow_mul]
    congr 1
  rw [root]
  rcases ZMod.pow_div_two_eq_neg_one_or_one prime two_ne with one | negative
  · exact absurd ((ZMod.euler_criterion prime two_ne).2 one) nonsquare
  · exact negative

/-- The candidate for the root of `u / v` is the root up to the sign of its square. -/
private theorem candidate_sq (x v : ZMod prime) (v_ne : v ≠ 0) :
    (x ^ 2 * v * v * v * v * (x ^ 2 * v * v ^ 7) ^ ((prime - 5) / 8)) ^ 2 = x ^ 2 ∨
      (x ^ 2 * v * v * v * v * (x ^ 2 * v * v ^ 7) ^ ((prime - 5) / 8)) ^ 2 = -x ^ 2 := by
  have exponent : (2 * ((prime - 5) / 8) + 1) * 2 = prime / 2 := by decide
  have factored : x ^ 2 * v * v * v * v * (x ^ 2 * v * v ^ 7) ^ ((prime - 5) / 8) =
      x * (x * v ^ 4) ^ (2 * ((prime - 5) / 8) + 1) := by
    rw [pow_succ (x * v ^ 4), pow_mul (x * v ^ 4)]
    ring
  rw [factored, mul_pow, ← pow_mul, exponent]
  by_cases zero : x = 0
  · left
    simp [zero]
  · have nonzero : x * v ^ 4 ≠ 0 := mul_ne_zero zero (pow_ne_zero 4 v_ne)
    rcases ZMod.pow_div_two_eq_neg_one_or_one prime nonzero with one | negative
    · left
      rw [one, mul_one]
    · right
      rw [negative, mul_neg_one]

/-- The root of `u / v` is found whenever there is one. -/
theorem sqrtRatio?_eq_some {u v x : Field} (v_ne : residue v ≠ 0)
    (root : residue x ^ 2 * residue v = residue u) (even : Field.isOdd x = false) :
    Field.sqrtRatio? u v = some x := by
  let r := u * v * v * v * Field.power (u * Field.power v 7) ((prime - 5) / 8)
  have candidate : residue r ^ 2 = residue x ^ 2 ∨ residue r ^ 2 = -residue x ^ 2 := by
    have square := candidate_sq (residue x) (residue v) v_ne
    simpa only [r, residue_mul, residue_power, root] using square
  have product : residue (v * r * r) = residue r ^ 2 * residue v := by
    simp only [residue_mul]
    ring
  change (if v * r * r = u then some (if Field.isOdd r then -r else r)
    else if v * r * r = -u then
      some (if Field.isOdd (r * Field.imaginary) then -(r * Field.imaginary)
        else r * Field.imaginary)
    else none) = some x
  by_cases positive : v * r * r = u
  · have squares : residue r ^ 2 = residue x ^ 2 := by
      apply mul_right_cancel₀ v_ne
      rw [root, ← positive, product]
    rw [if_pos positive, even_of_sq_eq squares even]
  · have opposite : residue r ^ 2 = -residue x ^ 2 := by
      refine candidate.resolve_left fun same => positive (residue_injective ?_)
      rw [product, same, root]
    have negative : v * r * r = -u := by
      apply residue_injective
      rw [product, opposite, residue_neg, ← root]
      ring
    have squares : residue (r * Field.imaginary) ^ 2 = residue x ^ 2 := by
      rw [residue_mul, mul_pow, imaginary_sq, opposite]
      ring
    rw [if_neg positive, if_pos negative, even_of_sq_eq squares even]

end Overlay.Ed25519
