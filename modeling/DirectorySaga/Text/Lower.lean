/-
Lower-casing of words.

Every capital becomes its small form.  Two capitals need more than a table: the dotted
capital I becomes an i with a combining dot, and the capital sigma becomes a final
sigma at the end of a word and an ordinary one elsewhere.  A sigma ends a word when,
characters that case context ignores aside, a cased letter stands before it and none
stands after it.
-/
import DirectorySaga.Text.Cased
import DirectorySaga.Text.CaseIgnorable
import DirectorySaga.Text.CaseRun

namespace DirectorySaga.Text

/-- Whether the first character that is not ignored is cased. -/
def startsCased (cs : List Char) : Bool :=
  match cs.dropWhile isCaseIgnorable with
  | [] => false
  | c :: _ => isCased c

/-- The small form of `c` between `before`, nearest character first, and `after`. -/
def lowerBetween (before : List Char) (c : Char) (after : List Char) : List Char :=
  if c = 'Σ' then
    if startsCased before && !startsCased after then ['ς'] else ['σ']
  else if c = 'İ' then ['i', '\u0307']
  else [lowerChar c]

/-- The small form of the characters that follow `before`, nearest character first. -/
def lowerAfter (before : List Char) : List Char → List Char
  | [] => []
  | c :: after => lowerBetween before c after ++ lowerAfter (c :: before) after

/-- The text in small letters. -/
def lower (s : String) : String := String.ofList (lowerAfter [] s.toList)

end DirectorySaga.Text
