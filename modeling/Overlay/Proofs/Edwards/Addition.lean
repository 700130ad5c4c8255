import Mathlib.Algebra.Group.Even
import Mathlib.Tactic.FieldSimp
import Mathlib.Tactic.LinearCombination
import Mathlib.Tactic.Ring

/-! The twisted Edwards curve `-x² + y² = 1 + d x² y²` over any field. If `d` is no
square and `-1` is one, the sum of two points of the curve always exists, lies on
the curve, and makes a group of its points. -/
namespace Overlay.Edwards
variable {K : Type*} [Field K] {d : K}

@[ext] structure Affine (K : Type*) where
  x : K
  y : K

/-- The parameters for which addition has no exceptions. -/
structure Complete (d : K) : Prop where
  nonsquare : ¬IsSquare d
  imaginary : ∃ i : K, i ^ 2 = -1
  two_ne_zero : (2 : K) ≠ 0

namespace Affine
variable {p q r : Affine K}

def OnCurve (d : K) (p : Affine K) : Prop := p.y ^ 2 - p.x ^ 2 = 1 + d * (p.x * p.y) ^ 2

def zero : Affine K := ⟨0, 1⟩

def neg (p : Affine K) : Affine K := ⟨-p.x, p.y⟩

/-- The term by which the two denominators of a sum differ from one. -/
def cross (d : K) (p q : Affine K) : K := d * (p.x * p.y) * (q.x * q.y)

def sumX (p q : Affine K) : K := p.x * q.y + q.x * p.y
def sumY (p q : Affine K) : K := p.y * q.y + p.x * q.x

def add (d : K) (p q : Affine K) : Affine K :=
  ⟨sumX p q / (1 + cross d p q), sumY p q / (1 - cross d p q)⟩

theorem onCurve_zero (d : K) : (zero : Affine K).OnCurve d := by
  simp [OnCurve, zero]

theorem onCurve_neg (hp : p.OnCurve d) : (neg p).OnCurve d := by
  unfold OnCurve at hp ⊢
  simp only [neg]
  linear_combination hp

/-! A denominator that vanished would make `d` a square. -/

private theorem scaled_square {i : K} (root : i ^ 2 = -1) (hp : p.OnCurve d) (hq : q.OnCurve d)
    (one : cross d p q ^ 2 = 1) :
    d * (p.x * p.y * (i * q.x + q.y)) ^ 2 = (i * p.x + cross d p q * p.y) ^ 2 := by
  unfold OnCurve at hp hq
  unfold cross at one ⊢
  linear_combination (d * (p.x * p.y) ^ 2 * q.x ^ 2 - p.x ^ 2) * root +
    d * (p.x * p.y) ^ 2 * hq - hp + (1 - p.y ^ 2) * one

private theorem line_eq_zero {i : K} (nonsquare : ¬IsSquare d) (root : i ^ 2 = -1)
    (hp : p.OnCurve d) (hq : q.OnCurve d) (one : cross d p q ^ 2 = 1) : i * q.x + q.y = 0 := by
  by_contra line_ne
  have product_ne : p.x * p.y ≠ 0 := by
    intro zero
    simp [cross, zero] at one
  have divisor_ne : p.x * p.y * (i * q.x + q.y) ≠ 0 := mul_ne_zero product_ne line_ne
  have equation := scaled_square root hp hq one
  refine nonsquare ⟨(i * p.x + cross d p q * p.y) / (p.x * p.y * (i * q.x + q.y)), ?_⟩
  rw [div_mul_div_comm, eq_div_iff (mul_ne_zero divisor_ne divisor_ne)]
  linear_combination equation

theorem cross_sq_ne_one (complete : Complete d) (hp : p.OnCurve d) (hq : q.OnCurve d) :
    cross d p q ^ 2 ≠ 1 := by
  intro one
  obtain ⟨i, root⟩ := complete.imaginary
  have root_ne : i ≠ 0 := by
    rintro rfl
    simp at root
  -- The mirror image of `q` has the same square and the opposite line.
  let mirrored : Affine K := ⟨q.x, -q.y⟩
  have hm : mirrored.OnCurve d := by
    simp only [OnCurve, mirrored] at hq ⊢
    linear_combination hq
  have oneMirrored : cross d p mirrored ^ 2 = 1 := by
    rw [← one]
    simp only [cross, mirrored]
    ring
  have upper : i * q.x + q.y = 0 := line_eq_zero complete.nonsquare root hp hq one
  have lower : i * q.x + -q.y = 0 := line_eq_zero complete.nonsquare root hp hm oneMirrored
  have twice : 2 * i * q.x = 0 := by linear_combination upper + lower
  have x_eq : q.x = 0 :=
    (mul_eq_zero.1 twice).resolve_left (mul_ne_zero complete.two_ne_zero root_ne)
  simp [cross, x_eq] at one

theorem one_add_cross_ne_zero (complete : Complete d) (hp : p.OnCurve d) (hq : q.OnCurve d) :
    1 + cross d p q ≠ 0 := by
  intro zero
  exact cross_sq_ne_one complete hp hq (by linear_combination (cross d p q - 1) * zero)

theorem one_sub_cross_ne_zero (complete : Complete d) (hp : p.OnCurve d) (hq : q.OnCurve d) :
    1 - cross d p q ≠ 0 := by
  intro zero
  exact cross_sq_ne_one complete hp hq (by linear_combination (-cross d p q - 1) * zero)

theorem add_x_mul (complete : Complete d) (hp : p.OnCurve d) (hq : q.OnCurve d) :
    (add d p q).x * (1 + cross d p q) = sumX p q :=
  div_mul_cancel₀ _ (one_add_cross_ne_zero complete hp hq)

theorem add_y_mul (complete : Complete d) (hp : p.OnCurve d) (hq : q.OnCurve d) :
    (add d p q).y * (1 - cross d p q) = sumY p q :=
  div_mul_cancel₀ _ (one_sub_cross_ne_zero complete hp hq)

theorem onCurve_add (complete : Complete d) (hp : p.OnCurve d) (hq : q.OnCurve d) :
    (add d p q).OnCurve d := by
  have plus := one_add_cross_ne_zero complete hp hq
  have minus := one_sub_cross_ne_zero complete hp hq
  have numerators : sumY p q ^ 2 * (1 + cross d p q) ^ 2 - sumX p q ^ 2 * (1 - cross d p q) ^ 2 =
      ((1 + cross d p q) * (1 - cross d p q)) ^ 2 + d * (sumX p q * sumY p q) ^ 2 := by
    unfold OnCurve at hp hq
    let c := d * (p.x * p.y) * (q.x * q.y)
    let a := p.y ^ 2 - p.x ^ 2
    let a' := 1 + d * (p.x * p.y) ^ 2
    let b := q.y ^ 2 - q.x ^ 2
    let b' := 1 + d * (q.x * q.y) ^ 2
    unfold cross sumX sumY
    linear_combination (b * (1 + c ^ 2) - d * (q.x * q.y) ^ 2 * (a + a')) * hp +
      (a' * (1 + c ^ 2) - d * (p.x * p.y) ^ 2 * (b + b')) * hq
  unfold OnCurve add
  dsimp only
  field_simp
  linear_combination numerators

protected theorem zero_add (d : K) (p : Affine K) : add d zero p = p := by
  ext <;> simp [add, zero, cross, sumX, sumY]

protected theorem add_comm (d : K) (p q : Affine K) : add d p q = add d q p := by
  have crosses : cross d p q = cross d q p := by
    unfold cross
    ring
  have tops : sumX p q = sumX q p := by
    unfold sumX
    ring
  have bottoms : sumY p q = sumY q p := by
    unfold sumY
    ring
  rw [add, add, crosses, tops, bottoms]

protected theorem neg_add (complete : Complete d) (hp : p.OnCurve d) :
    add d (neg p) p = zero := by
  have minus := one_sub_cross_ne_zero complete (onCurve_neg hp) hp
  ext
  · simp only [add, sumX, neg, zero, div_eq_zero_iff]
    left
    ring
  · simp only [add, zero]
    rw [div_eq_one_iff_eq minus]
    unfold OnCurve at hp
    simp only [neg, cross, sumY]
    linear_combination hp

/-! A sum of three points is a fraction whose terms are polynomials. The two ways of
bracketing give the same fraction. In the certificates `u`, `v`, `w` are the products
of coordinates, `s` is a coordinate of the sum without denominators, and `s₁`, `s₃`
are that of the sums with the first and the third point negated. -/

private theorem cross_add (complete : Complete d) (hp : p.OnCurve d) (hq : q.OnCurve d) :
    (1 - cross d p q ^ 2) * cross d (add d p q) r =
      d * (sumX p q * sumY p q) * (r.x * r.y) := by
  rw [← add_x_mul complete hp hq, ← add_y_mul complete hp hq, cross.eq_def d (add d p q)]
  ring

private theorem add_add_x_mul (complete : Complete d) (hp : p.OnCurve d) (hq : q.OnCurve d)
    (hr : r.OnCurve d) :
    (add d (add d p q) r).x *
        (1 - cross d p q ^ 2 + d * (sumX p q * sumY p q) * (r.x * r.y)) =
      sumX p q * (1 - cross d p q) * r.y + r.x * (sumY p q * (1 + cross d p q)) := by
  have inner := add_x_mul complete hp hq
  have innerY := add_y_mul complete hp hq
  have outer : (add d (add d p q) r).x * (1 + cross d (add d p q) r) =
      (add d p q).x * r.y + r.x * (add d p q).y :=
    add_x_mul complete (onCurve_add complete hp hq) hr
  rw [← cross_add complete hp hq]
  linear_combination (1 - cross d p q ^ 2) * outer + (1 - cross d p q) * r.y * inner +
    r.x * (1 + cross d p q) * innerY

private theorem add_add_y_mul (complete : Complete d) (hp : p.OnCurve d) (hq : q.OnCurve d)
    (hr : r.OnCurve d) :
    (add d (add d p q) r).y *
        (1 - cross d p q ^ 2 - d * (sumX p q * sumY p q) * (r.x * r.y)) =
      sumY p q * (1 + cross d p q) * r.y + sumX p q * (1 - cross d p q) * r.x := by
  have inner := add_x_mul complete hp hq
  have innerY := add_y_mul complete hp hq
  have outer : (add d (add d p q) r).y * (1 - cross d (add d p q) r) =
      (add d p q).y * r.y + (add d p q).x * r.x :=
    add_y_mul complete (onCurve_add complete hp hq) hr
  rw [← cross_add complete hp hq]
  linear_combination (1 - cross d p q ^ 2) * outer + (1 - cross d p q) * r.x * inner +
    r.y * (1 + cross d p q) * innerY

private theorem bracket_x (hp : p.OnCurve d) (hq : q.OnCurve d) (hr : r.OnCurve d) :
    (sumX p q * (1 - cross d p q) * r.y + r.x * (sumY p q * (1 + cross d p q))) *
        (1 - cross d q r ^ 2 + d * (sumX q r * sumY q r) * (p.x * p.y)) =
      (sumX q r * (1 - cross d q r) * p.y + p.x * (sumY q r * (1 + cross d q r))) *
        (1 - cross d p q ^ 2 + d * (sumX p q * sumY p q) * (r.x * r.y)) := by
  unfold OnCurve at hp hq hr
  let u := p.x * p.y
  let v := q.x * q.y
  let w := r.x * r.y
  let s := p.x * q.y * r.y + p.y * q.x * r.y + p.y * q.y * r.x + p.x * q.x * r.x
  let s₁ := -p.x * q.y * r.y + p.y * q.x * r.y + p.y * q.y * r.x - p.x * q.x * r.x
  let s₃ := p.x * q.y * r.y + p.y * q.x * r.y - p.y * q.y * r.x - p.x * q.x * r.x
  unfold cross sumX sumY
  linear_combination d * v * ((d * s * v * w ^ 2 - w * s₁) * hp +
    d * u * w * (u * s₁ - w * s₃) * hq + (u * s₃ - d * s * u ^ 2 * v) * hr)

private theorem bracket_y (hp : p.OnCurve d) (hq : q.OnCurve d) (hr : r.OnCurve d) :
    (sumY p q * (1 + cross d p q) * r.y + sumX p q * (1 - cross d p q) * r.x) *
        (1 - cross d q r ^ 2 - d * (sumX q r * sumY q r) * (p.x * p.y)) =
      (sumY q r * (1 + cross d q r) * p.y + sumX q r * (1 - cross d q r) * p.x) *
        (1 - cross d p q ^ 2 - d * (sumX p q * sumY p q) * (r.x * r.y)) := by
  unfold OnCurve at hp hq hr
  let u := p.x * p.y
  let v := q.x * q.y
  let w := r.x * r.y
  let s := p.y * q.y * r.y + p.y * q.x * r.x + p.x * q.y * r.x + p.x * q.x * r.y
  let s₁ := p.y * q.y * r.y + p.y * q.x * r.x - p.x * q.y * r.x - p.x * q.x * r.y
  let s₃ := p.y * q.y * r.y - p.y * q.x * r.x - p.x * q.y * r.x + p.x * q.x * r.y
  unfold cross sumX sumY
  linear_combination -d * v * ((-d * s * v * w ^ 2 - w * s₁) * hp +
    d * u * w * (u * s₁ - w * s₃) * hq + (u * s₃ + d * s * u ^ 2 * v) * hr)

private theorem one_sub_cross_sq_ne_zero (complete : Complete d) (hp : p.OnCurve d)
    (hq : q.OnCurve d) : 1 - cross d p q ^ 2 ≠ 0 :=
  sub_ne_zero.2 (cross_sq_ne_one complete hp hq).symm

private theorem denominators_ne_zero (complete : Complete d) (hp : p.OnCurve d)
    (hq : q.OnCurve d) (hr : r.OnCurve d) :
    1 - cross d p q ^ 2 + d * (sumX p q * sumY p q) * (r.x * r.y) ≠ 0 ∧
      1 - cross d p q ^ 2 - d * (sumX p q * sumY p q) * (r.x * r.y) ≠ 0 := by
  have inner := one_sub_cross_sq_ne_zero complete hp hq
  have sum := onCurve_add complete hp hq
  rw [← cross_add complete hp hq, ← mul_one_add, ← mul_one_sub]
  exact ⟨mul_ne_zero inner (one_add_cross_ne_zero complete sum hr),
    mul_ne_zero inner (one_sub_cross_ne_zero complete sum hr)⟩

/-- If two values have the same numerator over the same denominator, they are equal. -/
private theorem eq_of_fractions {a b m n m' n' : K} (left : a * n = m) (right : b * n' = m')
    (hn : n ≠ 0) (hn' : n' ≠ 0) (same : m * n' = m' * n) : a = b := by
  apply mul_right_cancel₀ (mul_ne_zero hn hn')
  linear_combination n' * left - n * right + same

protected theorem add_assoc (complete : Complete d) (hp : p.OnCurve d) (hq : q.OnCurve d)
    (hr : r.OnCurve d) : add d (add d p q) r = add d p (add d q r) := by
  rw [Affine.add_comm d p (add d q r)]
  obtain ⟨leftX, leftY⟩ := denominators_ne_zero complete hp hq hr
  obtain ⟨rightX, rightY⟩ := denominators_ne_zero complete hq hr hp
  ext
  · exact eq_of_fractions (add_add_x_mul complete hp hq hr) (add_add_x_mul complete hq hr hp)
      leftX rightX (bracket_x hp hq hr)
  · exact eq_of_fractions (add_add_y_mul complete hp hq hr) (add_add_y_mul complete hq hr hp)
      leftY rightY (bracket_y hp hq hr)

def multiple (d : K) : (n : Nat) → Affine K → Affine K
  | 0, _ => zero
  | n + 1, p => add d (multiple d n p) p

theorem onCurve_multiple (complete : Complete d) (hp : p.OnCurve d) (n : Nat) :
    (multiple d n p).OnCurve d := by
  induction n with
  | zero => exact onCurve_zero d
  | succ n ih => exact onCurve_add complete ih hp

theorem multiple_add (complete : Complete d) (hp : p.OnCurve d) (m n : Nat) :
    multiple d (m + n) p = add d (multiple d m p) (multiple d n p) := by
  induction n with
  | zero => rw [multiple, Affine.add_comm, Affine.zero_add]; rfl
  | succ n ih =>
    calc multiple d (m + (n + 1)) p
        = add d (add d (multiple d m p) (multiple d n p)) p := congrArg (add d · p) ih
      _ = add d (multiple d m p) (multiple d (n + 1) p) :=
        Affine.add_assoc complete (onCurve_multiple complete hp m)
          (onCurve_multiple complete hp n) hp

end Affine
end Overlay.Edwards
