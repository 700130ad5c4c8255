/-! Unsigned decimal numbers. -/
namespace Overlay.Text.Decimal

/-- The value of decimal digits that follow those of `value`. It may not reach `bound`,
and digits are only read until it does. -/
def digitsBelow? (bound value : Nat) : List Char → Option Nat
  | [] => if value < bound then some value else none
  | c :: rest =>
    if c.isDigit ∧ value < bound then
      digitsBelow? bound (10 * value + (c.toNat - '0'.toNat)) rest
    else none

/-- Reads at least one digit after an optional plus sign. -/
def read? (bound : Nat) (cs : List Char) : Option Nat :=
  let digits := match cs with
    | '+' :: rest => rest
    | _ => cs
  if digits.isEmpty then none else digitsBelow? bound 0 digits

def readWord64? (cs : List Char) : Option UInt64 := (read? UInt64.size cs).map UInt64.ofNat

def padded (width n : Nat) : String :=
  let digits := toString n
  String.ofList (List.replicate (width - digits.length) '0') ++ digits

end Overlay.Text.Decimal
