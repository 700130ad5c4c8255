import Overlay.Text.Split

/-! Paths of files as texts: pieces between slashes. An empty piece stands for nothing,
`.` for the directory it is met in and `..` for the one above. -/
namespace Overlay.Path

def isAbsolute (path : String) : Bool := path.toList.head? == some '/'

/-- A path relative to a directory; an absolute one replaces it. -/
def join (directory path : String) : String :=
  if isAbsolute path || directory.isEmpty then path
  else if directory.toList.getLast? = some '/' then directory ++ path
  else directory ++ "/" ++ path

def pieces (path : String) : List String := (Text.splitAll '/' path.toList).map String.ofList

/-- The pieces that lead somewhere else. -/
def names (path : String) : List String :=
  (pieces path).filter fun piece => piece ≠ "" ∧ piece ≠ "."

inductive Ending where
  | name
  | slash
  | dot
  | up
  deriving DecidableEq, Repr

/-- The ending of a path. A slash after a dot adds nothing to it, and slashes alone are
like a dot. -/
def ending (path : String) : Ending :=
  match ((pieces path).filter (· ≠ "")).getLast? with
  | none => .dot
  | some piece =>
    if piece = "." then .dot
    else if piece = ".." then .up
    else if (pieces path).getLast? = some "" then .slash
    else .name

def trimEnd (pieces : List String) : List String :=
  (pieces.reverse.dropWhile fun piece => piece = "" ∨ piece = ".").reverse

/-- What a relative path with a dot at its start begins with, or an absolute path, and
the pieces after it. -/
def splitStart (path : String) : List String × List String :=
  match pieces path with
  | "." :: rest => (["."], rest)
  | "" :: next :: rest => ([""], next :: rest)
  | all => ([], all)

/-- The path without its last name. A dot at the start counts as a name. -/
def parent? (path : String) : Option String :=
  let (start, body) := splitStart path
  match trimEnd body with
  | [] => if start = ["."] then some "" else none
  | kept =>
    match start ++ trimEnd kept.dropLast with
    | [""] => some "/"
    | pieces => some ("/".intercalate pieces)

end Overlay.Path
