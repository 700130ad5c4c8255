import Overlay.Octets.Hex

/-! Writing JSON texts: quoted strings, and objects and arrays with one item on a
line, indented by two blanks for each level. -/
namespace Overlay.Json

/-- A character inside a quoted string. Beside the quote and the backslash, control
characters are escaped. -/
def quoteChar (c : Char) : List Char :=
  match c with
  | '"' => ['\\', '"']
  | '\\' => ['\\', '\\']
  | '\x08' => ['\\', 'b']
  | '\x0c' => ['\\', 'f']
  | '\n' => ['\\', 'n']
  | '\r' => ['\\', 'r']
  | '\t' => ['\\', 't']
  | c =>
    if c.toNat < 0x20 then ['\\', 'u', '0', '0'] ++ Hex.pair Hex.lowerDigits (UInt8.ofNat c.toNat)
    else [c]

def quote (s : String) : String := String.ofList ('"' :: s.toList.flatMap quoteChar ++ ['"'])

def block (level : Nat) (opening closing : String) (items : List String) : String :=
  if items.isEmpty then opening ++ closing
  else
    let indent (level : Nat) : String := "\n" ++ String.ofList (List.replicate (2 * level) ' ')
    opening ++ ",".intercalate (items.map (indent (level + 1) ++ ·)) ++ indent level ++ closing

def writeTexts (level : Nat) (items : List String) : String :=
  block level "[" "]" (items.map quote)

def writeObject (level : Nat) (fields : List (String × String)) : String :=
  block level "\x7b" "\x7d" (fields.map fun (name, value) => quote name ++ ": " ++ value)

end Overlay.Json
