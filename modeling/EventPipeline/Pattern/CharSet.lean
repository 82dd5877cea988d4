import EventPipeline.Text.Blank
import EventPipeline.Text.LetterCase
import EventPipeline.Text.Script

/-!
# `EventPipeline.Pattern.CharSet`: sets of characters

The sets that patterns speak of, built from ranges and properties by union,
intersection and complement. `folded` adds what differs only in case.
-/

set_option autoImplicit false

namespace EventPipeline.Pattern

/-- A set of characters. -/
inductive CharSet where
  | range (low high : Nat)
  | property (p : Char → Bool)
  | union (a b : CharSet)
  | inter (a b : CharSet)
  | compl (a : CharSet)
  | folded (a : CharSet)

namespace CharSet

/-- The set with no members. -/
def none : CharSet := range 1 0

/-- All characters. -/
def any : CharSet := range 0 0x10FFFF

/-- One character. -/
def single (c : Char) : CharSet := range c.toNat c.toNat

/-- The members of `a` that are not in `b`. -/
def diff (a b : CharSet) : CharSet := inter a (compl b)

/-- The members of exactly one of two sets. -/
def symmDiff (a b : CharSet) : CharSet := union (diff a b) (diff b a)

/-- The union of several sets. -/
def unions (sets : List CharSet) : CharSet := sets.foldl union none

/-- The ranges as one set. -/
def ofRanges (ranges : List (Nat × Nat)) : CharSet :=
  property (Text.inRanges ranges)

/-- Membership. -/
def contains : CharSet → Char → Bool
  | range low high, c => low ≤ c.toNat && c.toNat ≤ high
  | property p, c => p c
  | union a b, c => a.contains c || b.contains c
  | inter a b, c => a.contains c && b.contains c
  | compl a, c => !a.contains c
  | folded a, c => a.contains c || (Text.caseVariants c).any a.contains

/-- Some member of the set is no ASCII character; only the first 256 are looked at. -/
def exceedsAscii (s : CharSet) : Bool :=
  (List.range 128).any fun n => s.contains (Char.ofNat (128 + n))

/-- The set with its case variants when case is ignored. -/
def foldIf (ignoreCase : Bool) (s : CharSet) : CharSet :=
  if ignoreCase then folded s else s

/-- The named classes of ASCII characters. -/
def asciiClass? : String → Option CharSet
  | "alnum" => some (union (range 48 57) (union (range 65 90) (range 97 122)))
  | "alpha" => some (union (range 65 90) (range 97 122))
  | "ascii" => some (range 0 127)
  | "blank" => some (union (range 9 9) (range 32 32))
  | "cntrl" => some (union (range 0 31) (range 127 127))
  | "digit" => some (range 48 57)
  | "graph" => some (range 33 126)
  | "lower" => some (range 97 122)
  | "print" => some (range 32 126)
  | "punct" =>
    some (unions [range 33 47, range 58 64, range 91 96, range 123 126])
  | "space" => some (union (range 9 13) (range 32 32))
  | "upper" => some (range 65 90)
  | "word" =>
    some (unions [range 48 57, range 65 90, range 95 95, range 97 122])
  | "xdigit" => some (unions [range 48 57, range 65 70, range 97 102])
  | _ => Option.none

/-- The class of a one-letter escape: digits, white space or word characters, and with a
capital letter their complements. -/
def escapeClass? (unicode : Bool) (c : Char) : Option CharSet :=
  let base : Option CharSet :=
    match c.toLower with
    | 'd' => if unicode then some (property Text.isDecimalDigit) else asciiClass? "digit"
    | 's' => if unicode then some (property Text.isBlank) else asciiClass? "space"
    | 'w' => if unicode then some (property Text.isWordChar) else asciiClass? "word"
    | _ => Option.none
  base.map fun s => if c.isUpper then compl s else s

/-- A property name without case, blanks, underscores, hyphens and a leading `is`. -/
def normalName (cs : List Char) : String :=
  let kept := (cs.filter fun c => !(c == ' ' || c == '_' || c == '-')).map Char.toLower
  String.ofList (match kept with
    | 'i' :: 's' :: rest => if rest.isEmpty then kept else rest
    | _ => kept)

/-- The long names of the general categories and of their groups, with their codes. -/
def categoryNames : List (String × String) := [
  ("letter", "l"), ("casedletter", "lc"), ("uppercaseletter", "lu"),
  ("lowercaseletter", "ll"), ("titlecaseletter", "lt"), ("modifierletter", "lm"),
  ("otherletter", "lo"), ("mark", "m"), ("combiningmark", "m"), ("nonspacingmark", "mn"),
  ("spacingmark", "mc"), ("enclosingmark", "me"), ("number", "n"), ("decimalnumber", "nd"),
  ("digit", "nd"), ("letternumber", "nl"), ("othernumber", "no"), ("punctuation", "p"),
  ("punct", "p"), ("connectorpunctuation", "pc"), ("dashpunctuation", "pd"),
  ("openpunctuation", "ps"), ("closepunctuation", "pe"), ("initialpunctuation", "pi"),
  ("finalpunctuation", "pf"), ("otherpunctuation", "po"), ("symbol", "s"),
  ("mathsymbol", "sm"), ("currencysymbol", "sc"), ("modifiersymbol", "sk"),
  ("othersymbol", "so"), ("separator", "z"), ("spaceseparator", "zs"),
  ("lineseparator", "zl"), ("paragraphseparator", "zp"), ("other", "c"), ("control", "cc"),
  ("cntrl", "cc"), ("format", "cf"), ("privateuse", "co"), ("unassigned", "cn")]

/-- The set of a general category or group of categories. -/
def category? (name : String) : Option CharSet :=
  let code := ((categoryNames.find? fun entry => entry.1 == name).map (·.2)).getD name
  let names := Text.Category.all.toList.map fun category =>
    (category, (category.name.toList.map Char.toLower))
  if code == "any" then some any
  else if code == "assigned" then
    some (property fun c => Text.Category.of c != .unassigned)
  else if code == "ascii" then some (range 0 127)
  else if code == "lc" then
    some (property fun c => ["Lu", "Ll", "Lt"].contains (Text.Category.of c).name)
  else if names.any (fun entry => entry.2 == code.toList && entry.1 != .surrogate) then
    some (property fun c => (Text.Category.of c).name.toList.map Char.toLower == code.toList)
  else if names.any (fun entry => entry.2.take 1 == code.toList) then
    some (property fun c => (Text.Category.of c).major.toLower == code.toList.headD ' ')
  else Option.none

/-- The set of a script. -/
def script? (name : String) : Option CharSet :=
  (Text.Script.all.find? fun entry => entry.1 == name).map fun entry => ofRanges entry.2

/-- The set of a property of characters. -/
def binary? : String → Option CharSet
  | "alphabetic" | "alpha" => some (property Text.isAlphabetic)
  | "whitespace" | "wspace" | "space" => some (property Text.isBlank)
  | "cased" => some (property Text.isCased)
  | "caseignorable" | "ci" => some (property Text.isCaseIgnorable)
  | "uppercase" | "upper" =>
    some (property fun c => Text.Category.of c == .upperLetter
      || Text.inRanges [(0x2160, 0x216F), (0x24B6, 0x24CF), (0x1F130, 0x1F149),
        (0x1F150, 0x1F169), (0x1F170, 0x1F189)] c)
  | "lowercase" | "lower" =>
    some (property fun c => Text.Category.of c == .lowerLetter
      || (Text.inRanges Text.isCased.otherCased c
        && !Text.inRanges [(0x2160, 0x216F), (0x24B6, 0x24CF), (0x1F130, 0x1F189)] c))
  | "asciihexdigit" | "ahex" => asciiClass? "xdigit"
  | "joincontrol" | "joinc" => some (range 0x200C 0x200D)
  | _ => Option.none

/-- The set of a named property: a binary property, a general category or a script. -/
def named? (cs : List Char) : Option CharSet :=
  let name := normalName cs
  (binary? name).or ((category? name).or (script? name))

/-- The set of the characters whose property `key` has the value `value`. -/
def keyed? (key value : List Char) : Option CharSet :=
  let name := normalName value
  match normalName key with
  | "gc" | "generalcategory" => category? name
  | "sc" | "script" | "scx" | "scriptextensions" => script? name
  | _ => Option.none

end CharSet
end EventPipeline.Pattern
