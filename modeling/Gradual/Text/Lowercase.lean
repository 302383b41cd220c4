import Gradual.Text.Cased
import Gradual.Text.LowerRun

/-!
Texts in small letters. The small form of a letter depends on the letter alone, but for the Greek
sigma, which has a form of its own at the end of a word.
-/

namespace Gradual.Text

/-- The small form of a character; only the capital I with a dot needs two characters. -/
def lowerChar (c : Char) : List Char :=
  if c = '\u0130' then ['i', '\u0307']
  else
    match lowerRuns.find? (·.covers c.toNat) with
    | some r => [Char.ofNat (r.apply c.toNat)]
    | none => [c]

/-- Does a text begin with a character that has a case, apart from what is passed over? -/
def startsCased (cs : List Char) : Bool := (cs.dropWhile isCaseIgnorable).head?.any isCased

/-- The small form of a sigma between what is before it, read backwards, and what follows it. -/
def lowerSigma (before rest : List Char) : Char :=
  if startsCased before && !startsCased rest then '\u03c2' else '\u03c3'

/-- The small form of a text behind another one, which is given backwards. -/
def lowerAfter (before : List Char) : List Char → List Char
  | [] => []
  | c :: rest =>
    (if c = '\u03a3' then [lowerSigma before rest] else lowerChar c)
      ++ lowerAfter (c :: before) rest

def lowercase (s : String) : String := String.ofList (lowerAfter [] s.toList)

end Gradual.Text
