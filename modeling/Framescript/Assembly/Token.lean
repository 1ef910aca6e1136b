import Framescript.Text.Blank

/-!
The words of a source line. A number sign starts a comment; white space and commas separate words.
-/
namespace Framescript.Assembly

/-- A word and the column of its first byte, counted from one. -/
structure Token where
  text : List Char
  column : Nat
  deriving DecidableEq, Repr

/-- The part of a line in front of its comment. -/
def codeOf (line : List Char) : List Char :=
  line.takeWhile (· ≠ '#')

namespace Token

/-- The tokens of `done`, newest first, with the word that is read so far. -/
def close (word : List Char) (column : Nat) (done : List Token) : List Token :=
  if word.isEmpty then done else ⟨word.reverse, column⟩ :: done

/-- Splits at the characters of `separates`. `column` is the column of the next character, `word` the
current word in reverse, `start` its column, and `done` the tokens before it, newest first. -/
def scanFrom (separates : Char → Bool) (column : Nat) (word : List Char) (start : Nat) (done : List Token) :
    List Char → List Token
  | [] => (close word start done).reverse
  | c :: cs =>
    let next := column + c.utf8Size
    if separates c then scanFrom separates next [] next (close word start done) cs
    else scanFrom separates next (c :: word) start done cs

/-- The words between the characters of `separates`. -/
def scan (separates : Char → Bool) (cs : List Char) : List Token :=
  scanFrom separates 1 [] 1 [] cs

/-- Whether a character separates the words of an instruction. -/
def separator (c : Char) : Bool :=
  c = ',' || Text.isBlank c

/-- The words of a line. -/
def ofLine (line : List Char) : List Token :=
  scan separator (codeOf line)

end Token

end Framescript.Assembly
