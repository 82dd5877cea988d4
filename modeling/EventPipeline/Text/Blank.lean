import EventPipeline.Number.Instances

/-!
# `EventPipeline.Text.Blank`: white space, words and lines

White space is the Unicode property of that name: twenty-five code points.
-/

set_option autoImplicit false

namespace EventPipeline.Text

/-- The code point is white space. -/
def isBlank (c : Char) : Bool :=
  let n := c.toNat
  (9 ≤ n && n ≤ 13) || n = 32 || n = 0x85 || n = 0xA0 || n = 0x1680
    || (0x2000 ≤ n && n ≤ 0x200A) || n = 0x2028 || n = 0x2029 || n = 0x202F
    || n = 0x205F || n = 0x3000

/-- Drops the white space in front. -/
def trimStart (cs : List Char) : List Char :=
  cs.dropWhile isBlank

/-- Drops the white space at the end. -/
def trimEnd (cs : List Char) : List Char :=
  (cs.reverse.dropWhile isBlank).reverse

/-- Drops the white space on both sides. -/
def trim (cs : List Char) : List Char :=
  trimEnd (trimStart cs)

/-- The words of a text: its longest stretches without white space. -/
def words (cs : List Char) : List (List Char) :=
  go [] cs
where
  go (current : List Char) : List Char → List (List Char)
    | [] => if current.isEmpty then [] else [current.reverse]
    | c :: rest =>
      if isBlank c then
        if current.isEmpty then go [] rest else current.reverse :: go [] rest
      else go (c :: current) rest

/-- The words joined by single spaces. -/
def unwords (ws : List (List Char)) : List Char :=
  [' '].intercalate ws

/-- Every stretch of white space inside becomes one space, the outer ones go. -/
def collapse (cs : List Char) : List Char :=
  unwords (words cs)

/-- The lines of a text. A line feed ends a line, together with a carriage return right
in front of it; what follows the last line feed is a line if it is not empty. -/
def lines (cs : List Char) : List (List Char) :=
  go [] cs
where
  go (current : List Char) : List Char → List (List Char)
    | [] => if current.isEmpty then [] else [current.reverse]
    | '\n' :: rest =>
      (match current with
        | '\r' :: before => before.reverse
        | _ => current.reverse) :: go [] rest
    | c :: rest => go (c :: current) rest

/-- The number of bytes that a text takes in UTF-8. -/
def byteLength (cs : List Char) : Nat :=
  (cs.map Char.utf8Size).sum

end EventPipeline.Text
