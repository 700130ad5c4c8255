import Overlay.Text.Quoted
import Overlay.Text.Utf8

/-! Bytes as pairs of hexadecimal digits. Lower case is written, either case is
read. -/
namespace Overlay.Hex

def lowerDigits : List Char := "0123456789abcdef".toList
def upperDigits : List Char := "0123456789ABCDEF".toList

def pair (digits : List Char) (b : UInt8) : List Char :=
  [digits.getD (b.toNat / 16) '0', digits.getD (b.toNat % 16) '0']

def encode (b : Bytes) : String := String.ofList (b.flatMap (pair lowerDigits))

def value? (c : Char) : Option Nat :=
  if '0' ≤ c ∧ c ≤ '9' then some (c.toNat - '0'.toNat)
  else if 'a' ≤ c ∧ c ≤ 'f' then some (c.toNat - 'a'.toNat + 10)
  else if 'A' ≤ c ∧ c ≤ 'F' then some (c.toNat - 'A'.toNat + 10)
  else none

inductive Error where
  | oddLength
  | notDigit (c : Char) (position : Nat)
  deriving DecidableEq, Repr

def Error.message : Error → String
  | .oddLength => "Odd number of digits"
  | .notDigit c position =>
    let leads := (Text.utf8 (String.singleton c)).take 1
    let shown := String.join (leads.map fun b => Text.Quoted.quoteChar (Char.ofUInt8 b))
    s!"Invalid character {shown} at position {position}"

def digit (position : Nat) (c : Char) : Except Error Nat :=
  match value? c with
  | some value => .ok value
  | none => .error (.notDigit c position)

def decodePairs (position : Nat) : List Char → Except Error Bytes
  | [] => .ok []
  | high :: low :: rest => do
    let h ← digit position high
    let l ← digit (position + 1) low
    let b ← decodePairs (position + 2) rest
    return UInt8.ofNat (16 * h + l) :: b
  | [c] => do
    let _ ← digit position c
    throw .oddLength

/-- Reads a text of hexadecimal digit pairs and nothing else. Its length is that of its
bytes, and is looked at first. -/
def decode (s : String) : Except Error Bytes :=
  if s.utf8ByteSize % 2 = 1 then .error .oddLength else decodePairs 0 s.toList

end Overlay.Hex
