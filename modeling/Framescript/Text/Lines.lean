/-!
The lines of a text. A line ends at a line feed, together with one carriage return right before it.
The text after the last line feed is a line of its own unless it is empty, and keeps its carriage
returns.
-/
namespace Framescript.Text

/-- The pieces between line feeds; the flag says whether a line feed closes the piece. -/
def pieces (cs : List Char) : List (List Char × Bool) :=
  cs.foldr (fun c rest =>
    if c = '\n' then ([], true) :: rest
    else match rest with
      | [] => [([c], false)]
      | (piece, closed) :: rest => (c :: piece, closed) :: rest) []

/-- The text without one carriage return at its end. -/
def dropReturn (cs : List Char) : List Char :=
  if cs.getLast? = some '\r' then cs.dropLast else cs

/-- The lines of a text, without their ends. -/
def lines (cs : List Char) : List (List Char) :=
  (pieces cs).map fun (piece, closed) => if closed then dropReturn piece else piece

end Framescript.Text
