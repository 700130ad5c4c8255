import Overlay.Proofs.Edwards.Addition
import Overlay.Proofs.Edwards.Residue

/-! The points of the curve over the integers modulo the prime. Sums and multiples in
extended coordinates are those of the affine curve, and a point is read back from its
spelling. -/
namespace Overlay.Ed25519
open Edwards (Affine Complete)

private theorem numerator_nonsquare : ¬IsSquare (-(121665 * 121666) : ZMod prime) := by
  have cast : (-(121665 * 121666) : ZMod prime) =
      ((prime - 121665 * 121666 : Nat) : ZMod prime) := by
    rw [Nat.cast_sub (by decide), ZMod.natCast_self, zero_sub]
    norm_num
  rw [cast, ZMod.euler_criterion prime (natCast_ne_zero (by decide)),
    cast_pow_eq_one_iff _ (by decide) (by decide)]
  decide +kernel

theorem denominator_ne_zero : (121666 : ZMod prime) ≠ 0 := by
  exact_mod_cast natCast_ne_zero (n := 121666) (by decide)

theorem residue_d : residue d * 121666 = -121665 := by
  have numerator : residue (-121665) = -121665 := by
    rw [residue_neg]
    exact congrArg Neg.neg (residue_ofNat 121665)
  have denominator : residue 121666 = 121666 := residue_ofNat 121666
  rw [d, residue_mul, residue_inverse, numerator, denominator,
    inv_mul_cancel_right₀ denominator_ne_zero]

/-- Addition on the curve has no exceptions. -/
theorem complete_d : Complete (residue d) where
  nonsquare := by
    rintro ⟨root, square⟩
    apply numerator_nonsquare
    refine ⟨root * 121666, ?_⟩
    linear_combination -121666 * residue_d + 121666 ^ 2 * square
  imaginary := ⟨residue Field.imaginary, imaginary_sq⟩
  two_ne_zero := by exact_mod_cast natCast_ne_zero (n := 2) (by decide)

def Point.affine (p : Point) : Affine (ZMod prime) := ⟨residue p.x, residue p.y⟩

def Point.OnCurve (p : Point) : Prop := p.affine.OnCurve (residue d)

theorem Point.affine_injective {p q : Point} (same : p.affine = q.affine) : p = q := by
  cases p
  cases q
  simpa [affine] using same

namespace Extended

/-- Extended coordinates of an affine point. -/
structure Represents (e : Extended) (p : Affine (ZMod prime)) : Prop where
  z_ne_zero : residue e.z ≠ 0
  x_eq : residue e.x = p.x * residue e.z
  y_eq : residue e.y = p.y * residue e.z
  t_eq : residue e.t = p.x * p.y * residue e.z

variable {e f : Extended} {p q : Affine (ZMod prime)}

theorem represents_zero : zero.Represents Affine.zero := by
  constructor <;> simp [zero, Affine.zero]

theorem represents_ofPoint (p : Point) : (ofPoint p).Represents p.affine := by
  constructor <;> simp [ofPoint, Point.affine]

theorem Represents.affine_toPoint (he : e.Represents p) : e.toPoint.affine = p := by
  have z_ne := he.z_ne_zero
  simp only [toPoint, Point.affine, residue_mul, residue_inverse, he.x_eq, he.y_eq]
  ext <;> field_simp

theorem Represents.add (he : e.Represents p) (hf : f.Represents q)
    (hp : p.OnCurve (residue d)) (hq : q.OnCurve (residue d)) :
    (Extended.add (d + d) e f).Represents (Affine.add (residue d) p q) := by
  have plus := Affine.one_add_cross_ne_zero complete_d hp hq
  have minus := Affine.one_sub_cross_ne_zero complete_d hp hq
  have sumX := Affine.add_x_mul complete_d hp hq
  have sumY := Affine.add_y_mul complete_d hp hq
  -- All four coordinates carry the factor `k`, twice.
  let k := 2 * (residue e.z * residue f.z)
  have k_ne : k ≠ 0 :=
    mul_ne_zero complete_d.two_ne_zero (mul_ne_zero he.z_ne_zero hf.z_ne_zero)
  have x_eq : residue (Extended.add (d + d) e f).x =
      k * Affine.sumX p q * (k * (1 - Affine.cross (residue d) p q)) := by
    simp only [Extended.add, residue_add, residue_sub, residue_mul, he.x_eq, he.y_eq, he.t_eq,
      hf.x_eq, hf.y_eq, hf.t_eq, Affine.sumX, Affine.cross, k]
    ring
  have y_eq : residue (Extended.add (d + d) e f).y =
      k * (1 + Affine.cross (residue d) p q) * (k * Affine.sumY p q) := by
    simp only [Extended.add, residue_add, residue_sub, residue_mul, he.x_eq, he.y_eq, he.t_eq,
      hf.x_eq, hf.y_eq, hf.t_eq, Affine.sumY, Affine.cross, k]
    ring
  have z_eq : residue (Extended.add (d + d) e f).z =
      k * (1 - Affine.cross (residue d) p q) * (k * (1 + Affine.cross (residue d) p q)) := by
    simp only [Extended.add, residue_add, residue_sub, residue_mul, he.t_eq, hf.t_eq,
      Affine.cross, k]
    ring
  have t_eq : residue (Extended.add (d + d) e f).t =
      k * Affine.sumX p q * (k * Affine.sumY p q) := by
    simp only [Extended.add, residue_add, residue_sub, residue_mul, he.x_eq, he.y_eq,
      hf.x_eq, hf.y_eq, Affine.sumX, Affine.sumY, k]
    ring
  constructor
  · rw [z_eq]
    exact mul_ne_zero (mul_ne_zero k_ne minus) (mul_ne_zero k_ne plus)
  · rw [x_eq, z_eq, ← sumX]
    ring
  · rw [y_eq, z_eq, ← sumY]
    ring
  · rw [t_eq, z_eq, ← sumX, ← sumY]
    ring

private theorem represents_twice {n : Nat} (he : e.Represents (Affine.multiple (residue d) n p))
    (hp : p.OnCurve (residue d)) :
    (Extended.add (d + d) e e).Represents (Affine.multiple (residue d) (n + n) p) := by
  have onCurve := Affine.onCurve_multiple complete_d hp n
  rw [Affine.multiple_add complete_d hp]
  exact he.add he onCurve onCurve

/-- Doubling from the highest bit on adds up as many copies as the number says. -/
theorem Represents.mul (he : e.Represents p) (hp : p.OnCurve (residue d)) (n : Nat) :
    (Extended.mul (d + d) n e).Represents (Affine.multiple (residue d) n p) := by
  fun_induction Extended.mul (d + d) n e with
  | case1 => exact represents_zero
  | case2 n nonzero half twice even ih =>
    have doubled : twice.Represents (Affine.multiple (residue d) (n / 2 + n / 2) p) :=
      represents_twice ih hp
    rwa [show n / 2 + n / 2 = n by omega] at doubled
  | case3 n nonzero half twice odd ih =>
    have doubled : twice.Represents (Affine.multiple (residue d) (n / 2 + n / 2) p) :=
      represents_twice ih hp
    have sum : (Extended.add (d + d) twice e).Represents
        (Affine.multiple (residue d) (n / 2 + n / 2 + 1) p) :=
      doubled.add he (Affine.onCurve_multiple complete_d hp _) hp
    rwa [show n / 2 + n / 2 + 1 = n by omega] at sum

end Extended

namespace Point
variable {p q r : Point}

theorem affine_zero : zero.affine = Affine.zero := by
  simp [zero, affine, Affine.zero]

theorem affine_neg (p : Point) : (neg p).affine = p.affine.neg := by
  simp [neg, affine, Affine.neg]

theorem affine_add (hp : p.OnCurve) (hq : q.OnCurve) :
    (add p q).affine = Affine.add (residue d) p.affine q.affine :=
  ((Extended.represents_ofPoint p).add (Extended.represents_ofPoint q) hp hq).affine_toPoint

theorem affine_mul (hp : p.OnCurve) (n : Nat) :
    (mul n p).affine = Affine.multiple (residue d) n p.affine :=
  ((Extended.represents_ofPoint p).mul hp n).affine_toPoint

theorem onCurve_zero : zero.OnCurve := by
  rw [OnCurve, affine_zero]
  exact Affine.onCurve_zero _

theorem onCurve_neg (hp : p.OnCurve) : (neg p).OnCurve := by
  rw [OnCurve, affine_neg]
  exact Affine.onCurve_neg hp

theorem onCurve_add (hp : p.OnCurve) (hq : q.OnCurve) : (add p q).OnCurve := by
  rw [OnCurve, affine_add hp hq]
  exact Affine.onCurve_add complete_d hp hq

theorem onCurve_mul (hp : p.OnCurve) (n : Nat) : (mul n p).OnCurve := by
  rw [OnCurve, affine_mul hp n]
  exact Affine.onCurve_multiple complete_d hp n

protected theorem add_assoc (hp : p.OnCurve) (hq : q.OnCurve) (hr : r.OnCurve) :
    add (add p q) r = add p (add q r) := by
  apply affine_injective
  rw [affine_add (onCurve_add hp hq) hr, affine_add hp hq, affine_add hp (onCurve_add hq hr),
    affine_add hq hr]
  exact Affine.add_assoc complete_d hp hq hr

protected theorem zero_add (hp : p.OnCurve) : add zero p = p := by
  apply affine_injective
  rw [affine_add onCurve_zero hp, affine_zero]
  exact Affine.zero_add _ _

protected theorem neg_add (hp : p.OnCurve) : add (neg p) p = zero := by
  apply affine_injective
  rw [affine_add (onCurve_neg hp) hp, affine_neg, affine_zero]
  exact Affine.neg_add complete_d hp

protected theorem mul_zero (hp : p.OnCurve) : mul 0 p = zero := by
  apply affine_injective
  rw [affine_mul hp, affine_zero]
  rfl

protected theorem mul_succ (n : Nat) (hp : p.OnCurve) : mul (n + 1) p = add (mul n p) p := by
  apply affine_injective
  rw [affine_mul hp, affine_add (onCurve_mul hp n) hp, affine_mul hp]
  rfl

/-- The square of `x` as a fraction of polynomials in `y`. -/
private theorem x_sq_mul (hp : p.OnCurve) :
    residue p.x ^ 2 * residue (d * (p.y * p.y) + 1) = residue (p.y * p.y - 1) := by
  unfold OnCurve Affine.OnCurve at hp
  simp only [affine] at hp
  simp only [residue_add, residue_sub, residue_mul, residue_one]
  linear_combination -hp

/-- A vanishing denominator would make `d` a square. -/
private theorem fraction_ne_zero (y : Field) : residue (d * (y * y) + 1) ≠ 0 := by
  intro zero
  obtain ⟨i, root⟩ := complete_d.imaginary
  simp only [residue_add, residue_mul, residue_one] at zero
  have y_ne : residue y ≠ 0 := by
    intro y_eq
    simp [y_eq] at zero
  refine complete_d.nonsquare ⟨i / residue y, ?_⟩
  rw [div_mul_div_comm, eq_div_iff (mul_ne_zero y_ne y_ne)]
  linear_combination zero - root

/-- The even one of the two points with a given `y` is found by its square root. -/
theorem sqrtRatio?_of_onCurve (hp : p.OnCurve) :
    Field.sqrtRatio? (p.y * p.y - 1) (d * (p.y * p.y) + 1) =
      some (if Field.isOdd p.x then -p.x else p.x) := by
  apply sqrtRatio?_eq_some (fraction_ne_zero p.y)
  · rw [← x_sq_mul hp]
    split <;> simp
  · split
    next odd =>
      have nonzero : p.x ≠ 0 := by
        intro zero
        rw [zero] at odd
        exact absurd odd (by decide)
      rw [isOdd_neg nonzero, odd]
      rfl
    next even => simpa using even

/-- The number that a point is spelled by. -/
private def code (p : Point) : Nat := p.y.val + if p.x.isOdd then 1 <<< 255 else 0

private theorem decode_bytes_encode (p : Point) :
    LittleEndian.decode (encode p).bytes = code p := by
  have y_lt : p.y.val < 1 <<< 255 := p.y.isLt.trans (by decide)
  have code_lt : code p < Nat.pow 256 32 := by
    have double : (1 <<< 255) + (1 <<< 255) = Nat.pow 256 32 := by decide
    unfold code
    split <;> omega
  rw [← Nat.mod_eq_of_lt code_lt]
  exact LittleEndian.decode_encode 32 (code p)

private theorem code_mod (p : Point) : Fin.ofNat prime (code p % (1 <<< 255)) = p.y := by
  have y_lt : p.y.val < 1 <<< 255 := p.y.isLt.trans (by decide)
  apply Fin.ext
  have low : code p % (1 <<< 255) = p.y.val := by
    unfold code
    split
    · rw [Nat.add_mod_right, Nat.mod_eq_of_lt y_lt]
    · exact Nat.mod_eq_of_lt y_lt
  rw [low]
  exact Nat.mod_eq_of_lt p.y.isLt

private theorem sign_le_code (p : Point) : 1 <<< 255 ≤ code p ↔ Field.isOdd p.x = true := by
  have y_lt : p.y.val < 1 <<< 255 := p.y.isLt.trans (by decide)
  unfold code
  split
  next odd => simp [odd]
  next even => simpa [even] using y_lt

theorem decode_encode (hp : p.OnCurve) : decode (encode p) = some p := by
  have negate_negate : -(-p.x) = p.x := residue_injective (by simp)
  simp only [decode, decode_bytes_encode, code_mod, sqrtRatio?_of_onCurve hp, sign_le_code]
  by_cases odd : p.x.isOdd = true
  · simp [odd, negate_negate]
  · simp [odd]

end Point
end Overlay.Ed25519
