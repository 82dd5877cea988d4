import EventPipeline.Text.Category

/-!
# `EventPipeline.Text.Quoted`: texts between double quotes

Quotes, backslashes and line ends are escaped, and so are characters that cannot be
seen, by their number.
-/

set_option autoImplicit false

namespace EventPipeline.Text

/-- Characters that cannot be seen. -/
def isInvisible (c : Char) : Bool :=
  c != ' ' && match Category.of c with
    | .control | .format | .surrogate | .privateUse | .unassigned
    | .lineSeparator | .paragraphSeparator | .spaceSeparator => true
    | _ => false

/-- A character between quotes. -/
def escapeQuoted (c : Char) : List Char :=
  match c with
  | '"' => ['\\', '"']
  | '\\' => ['\\', '\\']
  | '\n' => ['\\', 'n']
  | '\r' => ['\\', 'r']
  | '\t' => ['\\', 't']
  | '\x00' => ['\\', '0']
  | _ =>
    if isInvisible c || Category.of c == .nonspacingMark || Category.of c == .enclosingMark then
      "\\u\x7b".toList ++ Nat.toDigits 16 c.toNat ++ ['\x7d']
    else [c]

/-- A text between double quotes. -/
def quoted (s : String) : String :=
  "\"" ++ String.ofList (s.toList.flatMap escapeQuoted) ++ "\""

/-- A list of quoted texts in brackets. -/
def quotedList (texts : List String) : String :=
  "[" ++ ", ".intercalate (texts.map quoted) ++ "]"

end EventPipeline.Text
