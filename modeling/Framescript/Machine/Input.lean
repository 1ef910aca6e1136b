import Framescript.Fault

/-!
What the player does in one frame, and its five-character form: a letter for each held button, in
the order up, down, left, right, fire, and a dot for each released one.
-/
namespace Framescript

/-- Keys that are not buttons. They are kept until the next page is shown. -/
structure Keys where
  /-- Asks for the password screen. -/
  code : Bool := false
  pause : Bool := false
  deriving DecidableEq, Repr

/-- The keys of either. -/
def Keys.union (a b : Keys) : Keys where
  code := a.code || b.code
  pause := a.pause || b.pause

/-- The held buttons, the last typed character (0 for none), and the other keys. -/
structure PlayerInput where
  up : Bool := false
  down : Bool := false
  left : Bool := false
  right : Bool := false
  fire : Bool := false
  lastCharacter : UInt8 := 0
  keys : Keys := {}
  deriving DecidableEq, Repr

namespace PlayerInput

/-- The button at a place of a token: held, released, or neither. -/
def button? (letter c : Char) : Option Bool :=
  if c = '.' then some false else if c = letter then some true else none

/-- The input that a token denotes, if any. -/
def ofToken? : List Char → Option PlayerInput
  | [u, d, l, r, f] => do
    let up ← button? 'U' u
    let down ← button? 'D' d
    let left ← button? 'L' l
    let right ← button? 'R' r
    let fire ← button? 'F' f
    return { up, down, left, right, fire }
  | _ => none

/-- Reads a token. -/
def ofToken (token : List Char) : Except Fault PlayerInput :=
  match ofToken? token with
  | some input => .ok input
  | none => .error (.invalidInput token)

/-- The token for the held buttons. -/
def toToken (input : PlayerInput) : List Char :=
  [(input.up, 'U'), (input.down, 'D'), (input.left, 'L'), (input.right, 'R'), (input.fire, 'F')].map
    fun (held, letter) => if held then letter else '.'

end PlayerInput

end Framescript
