import EventPipeline.Text.Blank
import EventPipeline.Text.LetterCase

/-!
# `EventPipeline.Text.Convert`: the letter case of a whole text

Text is written in upper or lower case, with every word capitalized, or as a title, in
which small words are not capitalized unless they come first.
-/

set_option autoImplicit false

namespace EventPipeline.Text

/-- A letter case for a whole text. -/
inductive TextCase where
  | upper
  | lower
  /-- every word starts with a capital letter -/
  | proper
  /-- every word does but the small ones inside -/
  | title
deriving DecidableEq, Repr

/-- The name of a letter case. -/
def TextCase.name : TextCase → String
  | upper => "upper"
  | lower => "lower"
  | proper => "proper"
  | title => "title"

/-- The words that are small inside a title. -/
def smallWords : List (List Char) :=
  ["a", "an", "the", "and", "or", "but", "in", "on", "at", "to", "for", "of", "with",
    "by"].map String.toList

/-- A word with its first letter in upper case and the others in lower case. -/
def capitalize : List Char → List Char
  | [] => []
  | c :: cs => upperChar c ++ lower cs

/-- The words of a title after the first one. -/
def titleWord (word : List Char) : List Char :=
  if smallWords.contains (lower word) then lower word else capitalize word

/-- A text in another letter case. -/
def convert (style : TextCase) (cs : List Char) : List Char :=
  match style with
  | .upper => upper cs
  | .lower => lower cs
  | .proper => unwords ((words cs).map capitalize)
  | .title =>
    match words cs with
    | [] => []
    | first :: others => unwords (capitalize first :: others.map titleWord)

end EventPipeline.Text
