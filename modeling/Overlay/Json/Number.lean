import Overlay.Json.Fault
import Overlay.Text.Decimal
import Overlay.Text.Shortest

/-! JSON numbers: how they are written, and their values. A value is an integer of 64
bits if it is written as one, and else a floating-point number. -/
namespace Overlay.Json

structure Number where
  whole : List Char
  fraction : List Char
  exponentNegative : Bool
  exponent : List Char
  deriving DecidableEq, Repr

namespace Number

def readDigits : Reader (List Char) := fun cs =>
  .ok (cs.takeWhile Char.isDigit, cs.dropWhile Char.isDigit)

def readSomeDigits (atEnd : Cause) : Reader (List Char) := do
  match ← readDigits, ← get with
  | [], [] => stopAtEnd atEnd
  | [], _ => stopAt .badNumber
  | digits, _ => return digits

/-- The whole part of a number has no zero in front of another digit. -/
def readWhole (atEnd : Cause) : Reader (List Char) := do
  match ← get with
  | '0' :: rest =>
    set rest
    if (rest.head?.map Char.isDigit).getD false then stopAt .badNumber else return ['0']
  | _ => readSomeDigits atEnd

def readFraction (atEnd : Cause) : Reader (List Char) := do
  match ← get with
  | '.' :: rest =>
    set rest
    readSomeDigits atEnd
  | _ => return []

/-- Whether there is a minus sign, behind which reading goes on. A plus sign is passed
over. -/
def readSign : Reader Bool := fun cs =>
  match cs with
  | '+' :: rest => .ok (false, rest)
  | '-' :: rest => .ok (true, rest)
  | _ => .ok (false, cs)

def readExponent (atEnd : Cause) : Reader (Bool × List Char) := do
  match ← get with
  | 'e' :: rest | 'E' :: rest =>
    set rest
    let negative ← readSign
    return (negative, ← readSomeDigits atEnd)
  | _ => return (false, [])

/-- Reads a number whose sign has been read. If the text ends before a digit that is
needed, the cause is `atEnd`. -/
def read (atEnd : Cause) : Reader Number := do
  let whole ← readWhole atEnd
  let fraction ← readFraction atEnd
  let (negative, exponent) ← readExponent atEnd
  return ⟨whole, fraction, negative, exponent⟩

def digitValue (c : Char) : Nat := c.toNat - '0'.toNat

/-- A significand below `2 ^ 64`, a power of ten, and whether no further digit is taken. -/
structure Sum where
  significand : Nat
  exponent : Int
  full : Bool

def Sum.take (taken refused : Int) (s : Sum) (c : Char) : Sum :=
  let longer := 10 * s.significand + digitValue c
  if s.full ∨ UInt64.size ≤ longer then { s with exponent := s.exponent + refused, full := true }
  else { s with significand := longer, exponent := s.exponent + taken }

/-- The digits in front of the point that there is no room for count as zeros, and those
behind it not at all. -/
def sum (n : Number) : Sum :=
  let whole := n.whole.foldl (Sum.take 0 1) ⟨0, 0, false⟩
  n.fraction.foldl (Sum.take (-1) 0) { whole with full := false }

def exponentBound : Nat := 1 <<< 31

/-- How many digits are read until their value reaches the bound of exponents, if it
does. -/
def excess? (value count : Nat) : List Char → Option Nat
  | [] => none
  | c :: rest =>
    let longer := 10 * value + digitValue c
    if exponentBound ≤ longer then some (count + 1) else excess? longer (count + 1) rest

def largestPower : Nat := 308

def power (n : Nat) : Float := Float.ofScientific 1 false n

/-- Multiplies by a power of ten. A negative one that is too large is taken in parts, of
which a few lead to zero. -/
def scale : (fuel : Nat) → (exponent : Int) → Float → Option Float
  | 0, _, _ => some 0
  | fuel + 1, exponent, f =>
    if exponent.natAbs ≤ largestPower then
      if exponent < 0 then some (f / power exponent.natAbs)
      else
        let scaled := f * power exponent.natAbs
        if scaled.isInf then none else some scaled
    else if f == 0 then some 0
    else if 0 < exponent then none
    else scale fuel (exponent + largestPower) (f / power largestPower)

def mostDivisions : Nat := 4

/-- The value as a floating-point number, unless it is too large. Every step is rounded. -/
def float? (n : Number) : Option Float :=
  let sum := n.sum
  match excess? 0 0 n.exponent with
  | some _ => if sum.significand = 0 ∨ n.exponentNegative then some 0 else none
  | none =>
    let exponent : Int := n.exponent.foldl (fun e c => 10 * e + digitValue c) 0
    scale mostDivisions (sum.exponent + if n.exponentNegative then -exponent else exponent)
      (UInt64.ofNat sum.significand).toFloat

def integer? (negative : Bool) (n : Number) : Option Int :=
  if n.fraction.isEmpty ∧ n.exponent.isEmpty then do
    let value ← Text.Decimal.digitsBelow? (if negative then (1 <<< 63) + 1 else UInt64.size) 0 n.whole
    if negative then if value = 0 then none else some (-value)
    else some value
  else none

def value (negative : Bool) (n : Number) : Reader Found := do
  match n.integer? negative, n.float? with
  | some value, _ => return .integer value
  | none, some f => return .float (Text.Shortest.text (if negative then -f else f))
  | none, none =>
    stopBack (n.exponent.length - (excess? 0 0 n.exponent).getD n.exponent.length) .outOfRange

end Number
end Overlay.Json
