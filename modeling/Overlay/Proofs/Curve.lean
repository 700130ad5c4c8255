import Mathlib.Algebra.Group.MinimalAxioms
import Mathlib.Tactic.Conv
import Overlay.Crypto.Curve

/-! What signatures and blinded keys rely on: the points of the curve are a group in
which the base point has a known order, and a point is read back from its spelling. -/
namespace Overlay.Curve

/-- A curve whose points, among all values of the type, are told by `OnCurve`. -/
structure Lawful (C : Curve) (OnCurve : C.Point → Prop) : Prop where
  onCurve_zero : OnCurve C.zero
  onCurve_base : OnCurve C.base
  onCurve_add {p q : C.Point} : OnCurve p → OnCurve q → OnCurve (C.add p q)
  onCurve_neg {p : C.Point} : OnCurve p → OnCurve (C.neg p)
  add_assoc {p q r : C.Point} : OnCurve p → OnCurve q → OnCurve r →
    C.add (C.add p q) r = C.add p (C.add q r)
  zero_add {p : C.Point} : OnCurve p → C.add C.zero p = p
  neg_add {p : C.Point} : OnCurve p → C.add (C.neg p) p = C.zero
  mul_zero {p : C.Point} : OnCurve p → C.mul 0 p = C.zero
  mul_succ {p : C.Point} (n : Nat) : OnCurve p → C.mul (n + 1) p = C.add (C.mul n p) p
  mul_order : C.mul C.order C.base = C.zero
  order_pos : 0 < C.order
  /-- Reduced scalars pass the check on the bytes of a signature. -/
  order_le : C.order ≤ 1 <<< 253
  decode_encode {p : C.Point} : OnCurve p → C.decode (C.encode p) = some p

namespace Lawful
variable {C : Curve} {OnCurve : C.Point → Prop} (lawful : C.Lawful OnCurve)

/-- The points of the curve as a group. -/
abbrev group : AddGroup {p // OnCurve p} :=
  letI : Add {p // OnCurve p} := ⟨fun p q => ⟨C.add p q, lawful.onCurve_add p.2 q.2⟩⟩
  letI : Zero {p // OnCurve p} := ⟨⟨C.zero, lawful.onCurve_zero⟩⟩
  letI : Neg {p // OnCurve p} := ⟨fun p => ⟨C.neg p, lawful.onCurve_neg p.2⟩⟩
  AddGroup.ofLeftAxioms (fun p q r => Subtype.ext (lawful.add_assoc p.2 q.2 r.2))
    (fun p => Subtype.ext (lawful.zero_add p.2)) (fun p => Subtype.ext (lawful.neg_add p.2))

private theorem mul_eq_nsmul (n : Nat) (p : {p // OnCurve p}) :
    letI := lawful.group
    C.mul n p = (n • p : {p // OnCurve p}) := by
  let := lawful.group
  induction n with
  | zero => rw [lawful.mul_zero p.2, zero_nsmul]; rfl
  | succ n ih => rw [lawful.mul_succ n p.2, ih, succ_nsmul]; rfl

include lawful

theorem onCurve_mul {p : C.Point} (hp : OnCurve p) (n : Nat) : OnCurve (C.mul n p) := by
  let := lawful.group
  rw [lawful.mul_eq_nsmul n ⟨p, hp⟩]
  exact Subtype.property _

theorem mul_mul {p : C.Point} (hp : OnCurve p) (m n : Nat) :
    C.mul m (C.mul n p) = C.mul (m * n) p := by
  let := lawful.group
  have inner := lawful.mul_eq_nsmul n ⟨p, hp⟩
  rw [inner, lawful.mul_eq_nsmul m, lawful.mul_eq_nsmul (m * n) ⟨p, hp⟩, mul_nsmul']

/-- Scalars of the base point count modulo the order. -/
theorem mul_mod_order (n : Nat) : C.mul (n % C.order) C.base = C.mul n C.base := by
  let := lawful.group
  let base : {p // OnCurve p} := ⟨C.base, lawful.onCurve_base⟩
  have order : C.order • base = 0 := by
    apply Subtype.ext
    rw [← lawful.mul_eq_nsmul C.order base]
    exact lawful.mul_order
  rw [lawful.mul_eq_nsmul (n % C.order) base, lawful.mul_eq_nsmul n base]
  congr 1
  conv_rhs => rw [← Nat.mod_add_div n C.order, add_nsmul, mul_nsmul, order, nsmul_zero, add_zero]

/-- A summand is taken away again by its negative. -/
theorem mul_add_sub {p : C.Point} (hp : OnCurve p) (m n : Nat) :
    C.add (C.mul (m + n) p) (C.neg (C.mul n p)) = C.mul m p := by
  let := lawful.group
  let point : {p // OnCurve p} := ⟨p, hp⟩
  have sum : (m + n) • point + -(n • point) = m • point := by
    rw [add_nsmul, add_neg_cancel_right]
  rw [lawful.mul_eq_nsmul (m + n) point, lawful.mul_eq_nsmul n point,
    lawful.mul_eq_nsmul m point, ← sum]
  rfl

end Lawful
end Overlay.Curve
