import Overlay.Block.Hello
import Overlay.Text.Style

/-! Announcements and records as text for people. -/
namespace Overlay.Cli

def formatHello (color : Bool) (h : Hello) (valid : Bool) : String :=
  let label (s : String) : String := Text.paint color [.bold] s
  let status :=
    if valid then Text.paint color [.green] "valid" else Text.paint color [.bold, .red] "INVALID"
  String.join <|
    [label "Peer:", " ", Text.paint color [.yellow] h.peer.text, "\n",
      label "Expires:", " ", h.expiration.text, "\n",
      label "Signature:", " ", status, "\n"] ++
    h.addresses.map fun a => "  " ++ Text.paint color [.cyan] a.uri ++ "\n"

/-- The data of a record: as text if it is one and the type holds text, else in
hexadecimal digits. -/
def recordValue (r : Record) : String :=
  match Text.ofUtf8? r.data with
  | some text =>
    if r.recordType = Record.txtType ∨ r.recordType = Record.cnameType then text
    else Hex.encode r.data
  | none => Hex.encode r.data

def formatRecord (color : Bool) (r : Record) : String :=
  Text.paint color [.yellow] (Text.pad 6 (Record.typeName r.recordType)) ++ " " ++ recordValue r ++
    " (expires " ++ Text.paint color [.dimmed] r.expiration.text ++ ")"

end Overlay.Cli
