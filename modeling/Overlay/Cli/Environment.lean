import Overlay.Files.Path

/-! What the program is told by variables of its environment. -/
namespace Overlay.Cli

structure Environment where
  home : Option String
  configHome : Option String
  color : Option String
  forceColor : Option String
  noColor : Option String
  deriving DecidableEq, Repr

namespace Environment

def configDirectory (e : Environment) : String :=
  match e.configHome.filter Path.isAbsolute, e.home.filter (· ≠ "") with
  | some directory, _ => directory
  | none, some home => Path.join home ".config"
  | none, none => "."

/-- Whether output is coloured: if that is forced, or else not forbidden, wanted and
shown by a terminal. -/
def wantsColor (e : Environment) (terminal : Bool) : Bool :=
  if e.forceColor.any (· ≠ "0") then true
  else if e.noColor.isSome then false
  else e.color.all (· ≠ "0") && terminal

end Environment
end Overlay.Cli
