/-! Styled text for terminals, and padding to columns. Widths count characters. -/
namespace Overlay.Text

inductive Style where
  | bold
  | dimmed
  | red
  | green
  | yellow
  | cyan
  deriving DecidableEq, Repr

def Style.code : Style → String
  | .bold => "1"
  | .dimmed => "2"
  | .red => "31"
  | .green => "32"
  | .yellow => "33"
  | .cyan => "36"

def resetStyle : List Char := ['\x1b', '[', '0', 'm']

/-- Takes a style up again wherever a text ends it. -/
def resume (style : List Char) : List Char → List Char
  | '\x1b' :: '[' :: '0' :: 'm' :: rest => resetStyle ++ style ++ resume style rest
  | c :: rest => c :: resume style rest
  | [] => []

def paint (color : Bool) (styles : List Style) (s : String) : String :=
  if color then
    let style := "\x1b[".toList ++ (";".intercalate (styles.map Style.code)).toList ++ ['m']
    String.ofList (style ++ resume style s.toList ++ resetStyle)
  else s

/-- The largest width that a text can be padded to. -/
def maxPadding : Nat := 65535

def pad (width : Nat) (s : String) : String :=
  s ++ String.ofList (List.replicate (width - s.length) ' ')

/-- A text of at most `max` characters, if that is at least three; the end of a
longer text is replaced by dots. -/
def abbreviate (s : String) (max : Nat) : String :=
  if s.length ≤ max then s else String.ofList (s.toList.take (max - 3)) ++ "..."

end Overlay.Text
