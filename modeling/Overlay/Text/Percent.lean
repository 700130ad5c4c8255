import Overlay.Octets.Hex
import Overlay.Text.Utf8

/-! Percent escapes for the values of a URL query. The escaped text holds
unreserved ASCII characters and triples such as `%2F` only; reading works on the
UTF-8 bytes, and `+` stands for itself. -/
namespace Overlay.Text.Percent

inductive Error where
  | truncated (offset : Nat)
  | invalidEscape (offset : Nat)
  | invalidUtf8
  deriving DecidableEq, Repr

def Error.message : Error → String
  | .truncated offset => s!"Truncated escape sequence at offset {offset}"
  | .invalidEscape offset => s!"Invalid escape sequence at offset {offset}"
  | .invalidUtf8 => "Unescaped value is not valid UTF-8"

def isUnreserved (c : Char) : Bool :=
  c.isAlphanum || "-._~:/@[]!$'()*,;".toList.contains c

def escapeByte (b : UInt8) : List Char :=
  let c := Char.ofUInt8 b
  if isUnreserved c then [c] else '%' :: Hex.pair Hex.upperDigits b

def escape (value : String) : String := String.ofList ((utf8 value).flatMap escapeByte)

def digit? (b : UInt8) : Option Nat := Hex.value? (Char.ofUInt8 b)

def unescapeBytes : (offset : Nat) → Bytes → Except Error Bytes
  | _, [] => .ok []
  | offset, b :: rest =>
    if b = '%'.toUInt8 then
      match rest with
      | high :: low :: rest =>
        match digit? high, digit? low with
        | some h, some l => do
          return UInt8.ofNat (16 * h + l) :: (← unescapeBytes (offset + 3) rest)
        | _, _ => .error (.invalidEscape offset)
      | _ => .error (.truncated offset)
    else do
      return b :: (← unescapeBytes (offset + 1) rest)

def unescape (value : String) : Except Error String := do
  let data ← unescapeBytes 0 (utf8 value)
  match ofUtf8? data with
  | some text => return text
  | none => throw .invalidUtf8

end Overlay.Text.Percent
