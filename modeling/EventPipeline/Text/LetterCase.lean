import EventPipeline.Text.Category
import EventPipeline.Text.LetterCase.Table

/-!
# `EventPipeline.Text.LetterCase`: upper and lower case of texts

A character may become several, and a capital sigma at the end of a word becomes the
final form of the letter. `caseVariants` lists the characters that differ from one
another only in case.
-/

set_option autoImplicit false

namespace EventPipeline.Text

namespace LetterCase

/-- The code point that a table of runs assigns to `n`. -/
def lookupRun? (runs : Runs) (n : Nat) : Option Nat :=
  runs.findSome? fun (first, last, step, image) =>
    if first ≤ n && n ≤ last && (n - first) % step = 0 then some (image + (n - first))
    else none

/-- The code points that `n` becomes, `n` itself if the tables do not list it. -/
def convert (runs : Runs) (expansions : Array (Nat × List Nat)) (n : Nat) : List Nat :=
  match lookupRun? runs n with
  | some m => [m]
  | none => ((expansions.find? fun entry => entry.1 == n).map (·.2)).getD [n]

end LetterCase

/-- A character in upper case. -/
def upperChar (c : Char) : List Char :=
  if c.toNat < 128 then [c.toUpper]
  else
    (LetterCase.convert LetterCase.upperRuns LetterCase.upperExpansions c.toNat).map Char.ofNat

/-- A character in lower case, without regard to its neighbours. -/
def lowerChar (c : Char) : List Char :=
  if c.toNat < 128 then [c.toLower]
  else
    (LetterCase.convert LetterCase.lowerRuns LetterCase.lowerExpansions c.toNat).map Char.ofNat

/-- The characters other than `c` that differ from it only in case. -/
def caseVariants (c : Char) : List Char :=
  let n := c.toNat
  let up := (LetterCase.lookupRun? LetterCase.pairRuns n).toList
  let down := (LetterCase.pairRuns.findSome? fun (first, last, step, image) =>
    if image ≤ n && n - image ≤ last - first && (n - image) % step = 0 then
      some (first + (n - image))
    else none).toList
  let others := ((LetterCase.classes.find? fun members => members.contains n).getD []).filter
    (· ≠ n)
  ((up ++ down ++ others).map Char.ofNat)

/-- Letters that have case, and symbols and modifiers that count as such. -/
def isCased (c : Char) : Bool :=
  if c.toNat < 128 then c.isAlpha
  else
    match Category.of c with
    | .upperLetter | .lowerLetter | .titleLetter => true
    | _ => inRanges otherCased c
where
  /-- Cased characters that are no upper, lower or title case letters. -/
  otherCased : List (Nat × Nat) := [
    (0xAA, 0xAA), (0xBA, 0xBA), (0x2B0, 0x2B8), (0x2C0, 0x2C1), (0x2E0, 0x2E4),
    (0x345, 0x345), (0x37A, 0x37A), (0x10FC, 0x10FC), (0x1D2C, 0x1D6A), (0x1D78, 0x1D78),
    (0x1D9B, 0x1DBF), (0x2071, 0x2071), (0x207F, 0x207F), (0x2090, 0x209C),
    (0x2160, 0x217F), (0x24B6, 0x24E9), (0x2C7C, 0x2C7D), (0xA69C, 0xA69D),
    (0xA770, 0xA770), (0xA7F1, 0xA7F4), (0xA7F8, 0xA7F9), (0xAB5C, 0xAB5F),
    (0xAB69, 0xAB69), (0x10780, 0x10780), (0x10783, 0x10785), (0x10787, 0x107B0),
    (0x107B2, 0x107BA), (0x1E030, 0x1E06D), (0x1F130, 0x1F149), (0x1F150, 0x1F169),
    (0x1F170, 0x1F189)]

/-- Characters that do not end a word when the form of a sigma is chosen. -/
def isCaseIgnorable (c : Char) : Bool :=
  match Category.of c with
  | .nonspacingMark | .enclosingMark | .format | .modifierLetter | .modifierSymbol => true
  | _ => wordMarks.contains c.toNat
where
  /-- Punctuation inside words. -/
  wordMarks : List Nat := [
    0x27, 0x2E, 0x3A, 0xB7, 0x387, 0x55F, 0x5F4, 0x2018, 0x2019, 0x2024, 0x2027, 0xFE13,
    0xFE52, 0xFE55, 0xFF07, 0xFF0E, 0xFF1A]

/-- Some cased character follows, with only ignorable ones before it. -/
def casedFollows (cs : List Char) : Bool :=
  match cs.dropWhile isCaseIgnorable with
  | [] => false
  | c :: _ => isCased c

/-- A text in upper case. -/
def upper (cs : List Char) : List Char :=
  cs.flatMap upperChar

/-- A text in lower case. A capital sigma takes its final form when a cased character
precedes it and none follows in the same word. -/
def lower (cs : List Char) : List Char :=
  go [] cs
where
  /-- `before` is what precedes, nearest first. -/
  go (before : List Char) : List Char → List Char
    | [] => []
    | c :: rest =>
      let here :=
        if c == 'Σ' then
          if casedFollows before && !casedFollows rest then ['ς'] else ['σ']
        else lowerChar c
      here ++ go (c :: before) rest

end EventPipeline.Text
