import Overlay.Proofs.Curve
import Overlay.Proofs.Edwards.Point

/-! The curve of Ed25519 is lawful: its base point lies on it and has the stated order. -/
namespace Overlay.Ed25519
open Edwards (Affine)

def parameter : Field :=
  37095705934669439343138083508754565189542113879843219016388785533085940283555

theorem d_eq : d = parameter := by
  have product : parameter * 121666 = -121665 := by decide +kernel
  apply residue_injective
  apply mul_right_cancel₀ denominator_ne_zero
  have numerator : residue (-121665) = -121665 :=
    (residue_neg _).trans (congrArg Neg.neg (residue_ofNat 121665))
  have residues := congrArg residue product
  rw [residue_mul, numerator] at residues
  exact residue_d.trans residues.symm

namespace Point

def baseX : Field :=
  15112221349535400772501151409588531511454012693041857206046113283949847762202
def baseY : Field :=
  46316835694926478169428394003475163141307993866256225615783033603165251855960

theorem onCurve_baseX_baseY : OnCurve ⟨baseX, baseY⟩ := by
  have equation : baseY * baseY - baseX * baseX =
      1 + parameter * ((baseX * baseY) * (baseX * baseY)) := by decide +kernel
  have residues := congrArg residue equation
  rw [← d_eq] at residues
  simp only [residue_add, residue_sub, residue_mul, residue_one] at residues
  simp only [OnCurve, Affine.OnCurve, affine]
  linear_combination residues

theorem base_eq : base = ⟨baseX, baseY⟩ := by
  have y_eq : 4 * Field.inverse 5 = baseY := by
    have product : 4 = baseY * 5 := by decide +kernel
    have five_ne : residue 5 ≠ 0 := (residue_ofNat 5).trans_ne (natCast_ne_zero (by decide))
    apply residue_injective
    rw [product, residue_mul, residue_inverse, residue_mul, mul_inv_cancel_right₀ five_ne]
  have even : Field.isOdd baseX = false := by decide +kernel
  have root := sqrtRatio?_of_onCurve onCurve_baseX_baseY
  simp only [even] at root
  simp only [base, y_eq, root]
  rfl

theorem onCurve_base : base.OnCurve := by
  rw [base_eq]
  exact onCurve_baseX_baseY

end Point

namespace Extended

/-- Multiples by structural recursion, for numbers of at most `bits` bits. -/
def mulBits (twiceD : Field) : (bits n : Nat) → Extended → Extended
  | 0, _, _ => zero
  | bits + 1, n, p =>
    if n = 0 then zero
    else
      let half := mulBits twiceD bits (n / 2) p
      let twice := add twiceD half half
      if n % 2 = 0 then twice else add twiceD twice p

theorem mul_eq_mulBits (twiceD : Field) {bits n : Nat} (fits : n < 2 ^ bits) (p : Extended) :
    mul twiceD n p = mulBits twiceD bits n p := by
  induction bits generalizing n with
  | zero =>
    obtain rfl : n = 0 := by simpa using fits
    rw [mul, mulBits, if_pos rfl]
  | succ bits ih =>
    rw [mul, mulBits, ih (by rw [Nat.pow_succ] at fits; omega)]

theorem order_lt : order < 2 ^ 253 := by decide

def fullCircle : Extended :=
  mulBits (parameter + parameter) 253 order (ofPoint ⟨Point.baseX, Point.baseY⟩)

theorem fullCircle_represents :
    fullCircle.Represents (Affine.multiple (residue d) order Point.base.affine) := by
  have same : fullCircle = mul (d + d) order (ofPoint Point.base) := by
    rw [mul_eq_mulBits (d + d) order_lt, fullCircle, d_eq, Point.base_eq]
  rw [same]
  exact (represents_ofPoint Point.base).mul Point.onCurve_base order

theorem fullCircle_eq_zero : fullCircle.x = 0 ∧ fullCircle.y = fullCircle.z := by
  decide +kernel

end Extended

namespace Point

theorem mul_order_base : mul order base = zero := by
  have represents := Extended.fullCircle_represents
  obtain ⟨x_eq, y_eq⟩ := Extended.fullCircle_eq_zero
  apply affine_injective
  rw [affine_mul onCurve_base, affine_zero]
  ext
  · have product := represents.x_eq
    rw [x_eq, residue_zero, zero_eq_mul] at product
    exact product.resolve_right represents.z_ne_zero
  · have product := represents.y_eq
    rw [y_eq] at product
    exact (mul_eq_right₀ represents.z_ne_zero).1 product.symm

end Point
end Overlay.Ed25519

namespace Overlay
open Ed25519 (Point)

theorem ed25519_lawful : ed25519.Lawful Point.OnCurve where
  onCurve_zero := Point.onCurve_zero
  onCurve_base := Point.onCurve_base
  onCurve_add := Point.onCurve_add
  onCurve_neg := Point.onCurve_neg
  add_assoc := Point.add_assoc
  zero_add := Point.zero_add
  neg_add := Point.neg_add
  mul_zero := Point.mul_zero
  mul_succ := Point.mul_succ
  mul_order := Point.mul_order_base
  order_pos := by decide
  order_le := by decide
  decode_encode := Point.decode_encode

end Overlay
