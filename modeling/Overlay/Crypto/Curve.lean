import Overlay.Octets

/-! What signatures and blinded keys need of an elliptic curve: an addition of
points with a base point, and a spelling of points in 32 bytes. -/
namespace Overlay

structure Curve where
  Point : Type
  zero : Point
  add : Point → Point → Point
  neg : Point → Point
  mul : Nat → Point → Point
  base : Point
  order : Nat
  encode : Point → Octets 32
  /-- The point of a spelling. A point may be read from several spellings. -/
  decode : Octets 32 → Option Point

end Overlay
