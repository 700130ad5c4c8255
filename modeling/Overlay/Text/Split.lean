/-! Cutting a text at separators. -/
namespace Overlay.Text

def splitOnce (separator : List Char) : List Char → Option (List Char × List Char)
  | [] => if separator = [] then some ([], []) else none
  | c :: rest =>
    if separator.isPrefixOf (c :: rest) then some ([], (c :: rest).drop separator.length)
    else (splitOnce separator rest).map fun (before, after) => (c :: before, after)

/-- The pieces of a list between the elements equal to `separator`; there is one
more of them than separators. -/
def splitAll {α : Type} [DecidableEq α] (separator : α) : List α → List (List α)
  | [] => [[]]
  | c :: rest =>
    if c = separator then [] :: splitAll separator rest
    else match splitAll separator rest with
      | piece :: pieces => (c :: piece) :: pieces
      | [] => [[c]]

end Overlay.Text
