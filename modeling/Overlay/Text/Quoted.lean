import Overlay.Text.Printable

/-! Texts and characters in quotes, as descriptions show them. What would not be seen is
written as an escape. -/
namespace Overlay.Text.Quoted

def codeEscape (c : Char) : List Char :=
  ['\\', 'u', '\x7b'] ++ Nat.toDigits 16 c.toNat ++ ['\x7d']

def escape (mark c : Char) : List Char :=
  if c = mark then ['\\', c]
  else match c with
  | '\x00' => ['\\', '0']
  | '\t' => ['\\', 't']
  | '\r' => ['\\', 'r']
  | '\n' => ['\\', 'n']
  | '\\' => ['\\', '\\']
  | c => if Printable.isPrintable c then [c] else codeEscape c

def between (mark : Char) (cs : List Char) : String :=
  String.ofList (mark :: cs.flatMap (escape mark) ++ [mark])

def quote (s : String) : String := between '"' s.toList

def quoteChar (c : Char) : String := between '\'' [c]

end Overlay.Text.Quoted
