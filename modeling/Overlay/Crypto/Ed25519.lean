import Overlay.Crypto.Curve
import Overlay.Octets.Endian

/-! The twisted Edwards curve `-x² + y² = 1 + d x² y²` over the integers modulo
`2 ^ 255 - 19`. Multiples are computed in extended coordinates, which need no
division. -/
namespace Overlay.Ed25519

def prime : Nat := (1 <<< 255) - 19

instance : @NeZero Nat Zero.ofOfNat0 prime := ⟨Nat.succ_ne_zero (prime - 1)⟩

abbrev Field := Fin prime

namespace Field

def power (x : Field) (n : Nat) : Field :=
  if n = 0 then 1
  else
    let root := power x (n / 2)
    if n % 2 = 0 then root * root else root * root * x
termination_by n

/-- The inverse of a nonzero element; zero has none and gives zero. -/
def inverse (x : Field) : Field := power x (prime - 2)

def isOdd (x : Field) : Bool := x.val % 2 == 1

def imaginary : Field := power 2 ((prime - 1) / 4)

/-- The even square root of `u / v`, if there is one. -/
def sqrtRatio? (u v : Field) : Option Field :=
  let r := u * v * v * v * power (u * power v 7) ((prime - 5) / 8)
  let even (x : Field) : Field := if isOdd x then -x else x
  if v * r * r = u then some (even r)
  else if v * r * r = -u then some (even (r * imaginary))
  else none

end Field

def d : Field := -121665 * Field.inverse 121666

structure Point where
  x : Field
  y : Field
  deriving DecidableEq

/-- A point as `(X/Z, Y/Z)` with `T = X Y / Z`. -/
structure Extended where
  x : Field
  y : Field
  z : Field
  t : Field

namespace Extended

def zero : Extended := ⟨0, 1, 1, 0⟩

def ofPoint (p : Point) : Extended := ⟨p.x, p.y, 1, p.x * p.y⟩

def toPoint (p : Extended) : Point :=
  let w := Field.inverse p.z
  ⟨p.x * w, p.y * w⟩

/-- Addition; it has no exceptions and so doubles as well. -/
def add (twiceD : Field) (p q : Extended) : Extended :=
  let a := (p.y - p.x) * (q.y - q.x)
  let b := (p.y + p.x) * (q.y + q.x)
  let c := twiceD * p.t * q.t
  let zz := p.z * q.z
  let e := b - a
  let f := zz + zz - c
  let g := zz + zz + c
  let h := b + a
  ⟨e * f, g * h, f * g, e * h⟩

def mul (twiceD : Field) (n : Nat) (p : Extended) : Extended :=
  if n = 0 then zero
  else
    let half := mul twiceD (n / 2) p
    let twice := add twiceD half half
    if n % 2 = 0 then twice else add twiceD twice p
termination_by n

end Extended

namespace Point

def zero : Point := ⟨0, 1⟩

def neg (p : Point) : Point := ⟨-p.x, p.y⟩

def add (p q : Point) : Point :=
  (Extended.add (d + d) (Extended.ofPoint p) (Extended.ofPoint q)).toPoint

def mul (n : Nat) (p : Point) : Point :=
  (Extended.mul (d + d) n (Extended.ofPoint p)).toPoint

/-- The 255 bits of `y`, and the lowest bit of `x` above them. -/
def encode (p : Point) : Octets 32 :=
  LittleEndian.octets 32 (p.y.val + if p.x.isOdd then 1 <<< 255 else 0)

/-- Reads a point. The 255 bits of `y` are taken modulo the prime, and a set sign
bit does no harm where `x` is zero. -/
def decode (b : Octets 32) : Option Point :=
  let n := LittleEndian.decode b.bytes
  let y : Field := Fin.ofNat prime (n % (1 <<< 255))
  let square := y * y
  match Field.sqrtRatio? (square - 1) (d * square + 1) with
  | none => none
  | some x => some ⟨if 1 <<< 255 ≤ n then -x else x, y⟩

/-- The point whose `y` is four fifths and whose `x` is even. -/
def base : Point :=
  let y := 4 * Field.inverse 5
  let square := y * y
  ⟨(Field.sqrtRatio? (square - 1) (d * square + 1)).getD 0, y⟩

end Point

def order : Nat := (1 <<< 252) + 27742317777372353535851937790883648493

end Overlay.Ed25519

namespace Overlay

def ed25519 : Curve where
  Point := Ed25519.Point
  zero := Ed25519.Point.zero
  add := Ed25519.Point.add
  neg := Ed25519.Point.neg
  mul := Ed25519.Point.mul
  base := Ed25519.Point.base
  order := Ed25519.order
  encode := Ed25519.Point.encode
  decode := Ed25519.Point.decode

end Overlay
