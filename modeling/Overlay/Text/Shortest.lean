/-! The text of a floating-point number: of the decimals that read back as the number
the shortest, and of these the closest. Found by exact arithmetic, one number of digits
after the other. -/
namespace Overlay.Text.Shortest

/-- The number `mantissa * 2 ^ exponent`, of 53 bits. -/
structure Binary where
  mantissa : Nat
  exponent : Int
  /-- Whether the number below is half as far away as the number above. -/
  narrow : Bool
  deriving DecidableEq, Repr

def Binary.ofBits (bits : UInt64) : Binary :=
  let exponent := ((bits >>> 52) &&& 0x7ff).toNat
  let fraction := (bits &&& 0xfffffffffffff).toNat
  if exponent = 0 then ⟨fraction, -1074, false⟩
  else ⟨(1 <<< 52) + fraction, (exponent : Int) - 1075, fraction = 0 ∧ 1 < exponent⟩

structure Decimal where
  digits : Nat
  exponent : Int
  deriving DecidableEq, Repr

def Decimal.compareBinary (d : Decimal) (n : Nat) (i : Int) : Ordering :=
  compare (d.digits * Nat.pow 10 d.exponent.toNat <<< (-i).toNat)
    (n * Nat.pow 10 (-d.exponent).toNat <<< i.toNat)

namespace Binary

/-- Whether a decimal is nearer to the number than to its neighbours. Half way, the even
mantissa is taken. -/
def readsBack (x : Binary) (d : Decimal) : Bool :=
  let below := d.compareBinary (4 * x.mantissa - if x.narrow then 1 else 2) (x.exponent - 2)
  let above := d.compareBinary (4 * x.mantissa + 2) (x.exponent - 2)
  let even := x.mantissa % 2 == 0
  (below == .gt || even && below == .eq) && (above == .lt || even && above == .eq)

/-- The least `k` for which a positive number is less than `10 ^ k`. The logarithm of two
is close enough to 0.30103 to be wrong by one at most. -/
def scale (x : Binary) : Int :=
  let k := (Nat.log2 x.mantissa + x.exponent) * 30103 / 100000 + 1
  if (Decimal.mk 1 k).compareBinary x.mantissa x.exponent = .gt then k else k + 1

def floor (x : Binary) (i : Int) : Nat :=
  (x.mantissa * Nat.pow 10 (-i).toNat <<< x.exponent.toNat) /
    (Nat.pow 10 i.toNat <<< (-x.exponent).toNat)

/-- The decimal of `n` digits that reads back, the closer one if there are two. -/
def withDigits? (x : Binary) (n : Nat) : Option Decimal :=
  let i := x.scale - n
  let low : Decimal := ⟨x.floor i, i⟩
  let high : Decimal := ⟨x.floor i + 1, i⟩
  match x.readsBack low, x.readsBack high with
  | false, false => none
  | true, false => some low
  | false, true => some high
  | true, true =>
    match (Decimal.mk (2 * low.digits + 1) i).compareBinary (2 * x.mantissa) x.exponent with
    | .gt => some low
    | .lt => some high
    | .eq => some (if low.digits % 2 = 0 then low else high)

def mostDigits : Nat := 17

def shortest (x : Binary) : Decimal :=
  ((List.range mostDigits).findSome? fun n => x.withDigits? (n + 1)).getD ⟨x.floor 0, 0⟩

end Binary

def Decimal.trim : (fuel : Nat) → Decimal → Decimal
  | 0, d => d
  | fuel + 1, d => if d.digits % 10 = 0 then trim fuel ⟨d.digits / 10, d.exponent + 1⟩ else d

def zeros (n : Int) : List Char := List.replicate n.toNat '0'

/-- Writes a decimal with a point up to sixteen places in front of it and as far as four
zeros after it, and else with one digit in front of it and a power of ten. -/
def Decimal.text (d : Decimal) : String :=
  let digits := Nat.toDigits 10 d.digits
  let point := digits.length + d.exponent
  String.ofList <|
    if 0 ≤ d.exponent ∧ point ≤ 16 then digits ++ zeros d.exponent ++ ['.', '0']
    else if 0 < point ∧ point ≤ 16 then digits.take point.toNat ++ '.' :: digits.drop point.toNat
    else if -5 < point ∧ point ≤ 0 then ['0', '.'] ++ zeros (-point) ++ digits
    else
      let front := match digits with
        | first :: next :: rest => first :: '.' :: next :: rest
        | _ => digits
      front ++ 'e' :: (toString (point - 1)).toList

def text (x : Float) : String :=
  let bits := x.toBits
  let b := Binary.ofBits bits
  (if bits >>> 63 = 1 then "-" else "") ++
    if b.mantissa = 0 then "0.0" else (b.shortest.trim Binary.mostDigits).text

end Overlay.Text.Shortest
