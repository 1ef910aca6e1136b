import Framescript.Command.Percent
import Framescript.Machine.Profile
import Framescript.Machine.Variables

/-!
Tables for people: the variables, and the profile of a run.
-/
namespace Framescript

/-- The variables in sixteen rows of sixteen. -/
def Variables.table (v : Variables) : String :=
  let columns := (List.range 16).map fun column => " " ++ Text.alignRight 6 (Text.hexText 1 column)
  let row (i : Nat) : String :=
    let values := (v.cells.toList.drop (16 * i)).take 16
    let cells := values.map fun value => " " ++ Text.alignRight 6 (String.ofList (Text.signedDecimal value.toInt))
    s!"{Text.hexText 2 (16 * i)}: {String.join cells}\n"
  s!"    {String.join columns}\n{String.join ((List.range 16).map row)}"

namespace Profile

/-- A count with its thousands divided. -/
def grouped (n : UInt64) : String :=
  String.ofList (Text.groupThousands (Text.decimal n.toNat))

/-- The width of a column of texts, at least that of one more text. -/
def columnWidth (least : String) (texts : List String) : Nat :=
  texts.foldl (fun width text => max width text.length) least.length

/-- The counts by category with their shares, and the total. -/
def table (p : Profile) : String :=
  let titles := columnWidth "total" (p.entries.map fun (category, _) => category.title) + 2
  let amounts := columnWidth (grouped p.total) (p.entries.map fun (_, count) => grouped count)
  let row (title : String) (count : UInt64) (share : String) : String :=
    s!"{Text.alignLeft titles title} {Text.alignRight amounts (grouped count)} ({Text.alignRight 5 share}%)\n"
  let rule := String.ofList (List.replicate (titles + 1 + amounts + 2 + "( 100.0%)".length) '-') ++ "\n"
  let rows := p.entries.map fun (category, count) =>
    if count = 0 then "" else row category.title count (Percent.share count p.total)
  let heading := s!"Instruction Profile ({p.slices} slices):\n"
  heading ++ rule ++ String.join rows ++ rule ++ row "total" p.total (Percent.point 1000)

end Profile

end Framescript
