import Overlay.Text.Decimal

/-! Amounts of data as text: a binary unit and two decimal places. -/
namespace Overlay.Text.DataSize

structure Scale where
  unit : String
  size : Nat
  least : Nat

/-- The units above the byte, largest first. An amount so little short of a
pebibyte that a 53-bit logarithm does not tell it from one is written in that
unit already. -/
def scales : List Scale :=
  [⟨"PB", 1 <<< 50, (1 <<< 50) - 3⟩, ⟨"TB", 1 <<< 40, 1 <<< 40⟩, ⟨"GB", 1 <<< 30, 1 <<< 30⟩,
    ⟨"MB", 1 <<< 20, 1 <<< 20⟩, ⟨"KB", 1 <<< 10, 1 <<< 10⟩]

/-- The quotient of two numbers, rounded to the nearest whole number and half way
to the even one. -/
def roundDiv (num den : Nat) : Nat :=
  let q := num / den
  let twice := 2 * (num % den)
  if twice < den ∨ twice = den ∧ q % 2 = 0 then q else q + 1

/-- The nearest number with at most 53 significant bits. -/
def toPrecision (n : Nat) : Nat :=
  let spare := 1 <<< (n.log2 + 1 - 53)
  roundDiv n spare * spare

def text (n : Nat) : String :=
  if n = 0 then "0 B"
  else
    let scale := (scales.find? (·.least ≤ n)).getD ⟨"B", 1, 1⟩
    let hundredths := roundDiv (100 * toPrecision n) scale.size
    s!"{hundredths / 100}.{Decimal.padded 2 (hundredths % 100)} {scale.unit}"

end Overlay.Text.DataSize
