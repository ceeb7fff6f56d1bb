import Rehearsal.Text.Blank

/-!
# Words of a text

A text splits at its blank characters into words, the maximal runs without a blank.  Joining puts
single spaces between texts and leaves the texts as they are, so words come back from a join but
blanks may have changed.
-/

namespace Rehearsal.Text

/-- The maximal runs of characters that are not blank, in order. -/
def wordRuns (text : List Char) : List (List Char) :=
  (text.splitOnP isBlank).filter fun run => !run.isEmpty

/-- The words of a text, in order. -/
def words (text : String) : List String := (wordRuns text.toList).map String.ofList

/-- Texts in order, a single space between neighbours. -/
def join (parts : List String) : String := " ".intercalate parts

end Rehearsal.Text
