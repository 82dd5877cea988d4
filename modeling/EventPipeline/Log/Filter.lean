import EventPipeline.Log.Record
import EventPipeline.Text.Blank
import EventPipeline.Text.Category

/-!
# `EventPipeline.Log.Filter`: which lines are logged

A log level in a configuration is a list of directives between commas. A directive is a
level, a target, or a target with a level after an equals sign; after a target it may name
a span and fields in brackets. Of the directives that fit a line the one with the longest
target decides.
-/

set_option autoImplicit false

namespace EventPipeline

/-- How urgent a line has to be, from nothing at all to everything. -/
abbrev Threshold := Option Level

/-- How verbose a level is. -/
def Level.verbosity : Level → Nat
  | .error => 1
  | .warn => 2
  | .info => 3
  | .debug => 4
  | .trace => 5

/-- A line of that level passes. -/
def Threshold.admits (threshold : Threshold) (level : Level) : Bool :=
  threshold.any fun t => level.verbosity ≤ t.verbosity

/-- The thresholds by their names; their order is that of their numbers. -/
def Threshold.named : List (String × Threshold) :=
  [("off", none), ("error", some .error), ("warn", some .warn), ("info", some .info),
   ("debug", some .debug), ("trace", some .trace)]

/-- Reads a threshold, by its number or by its name in any case. -/
def Threshold.read? (text : List Char) : Option Threshold :=
  let digits := if text.head? = some '+' then text.drop 1 else text
  if !digits.isEmpty && digits.all Char.isDigit then
    let n := digits.foldl (fun n c => 10 * n + (c.toNat - 48)) 0
    (Threshold.named[n]?).map (·.2)
  else if text.isEmpty then some (some .error)
  else
    let lower := String.ofList (text.map Char.toLower)
    (Threshold.named.find? fun entry => entry.1 = lower).map (·.2)

/-- A directive: which lines it is about, and which of them pass. -/
structure Directive where
  target : Option String := none
  threshold : Threshold := some .trace
  /-- the span that it wants, which no line is in -/
  span : Option String := none
  /-- fields that a line must have -/
  fields : List String := []
  /-- it wants a field to have a value, which is asked of spans only -/
  wantsValue : Bool := false

namespace Directive

/-- Where in a directive its reader is. -/
inductive Place where
  | start
  /-- in a level or a target that began here -/
  | word (start : Nat)
  | span (start : Nat)
  | field (start : Nat)
  /-- behind the fields -/
  | fields
  /-- behind the brackets -/
  | closed
  | level (start : Nat)
deriving DecidableEq, Repr

/-- Adds a field, which may want a value. -/
def addField (d : Directive) (text : List Char) : Option Directive :=
  if text.isEmpty then none
  else
    some { d with
      fields := d.fields ++ [String.ofList (text.takeWhile (· ≠ '='))]
      wantsValue := d.wantsValue || text.contains '=' }

/-- Reads one character at a place; `slice` is the text between two places. -/
def advance (slice : Nat → List Char) (place : Place) (i : Nat) (c : Char) (d : Directive) :
    Option (Place × Directive) :=
  match place, c with
  | .start, '[' => some (.span (i + 1), d)
  | .start, c =>
    if c = '-' || c = ':' || c = '_' || Text.isAlphanumeric c then some (.word i, d) else none
  | .word start, '=' =>
    some (.level (i + 1), { d with target := some (String.ofList (slice start)) })
  | .word start, '[' =>
    some (.span (i + 1), { d with target := some (String.ofList (slice start)) })
  | .word start, _ => some (.word start, d)
  | .closed, '=' => some (.level (i + 1), d)
  | .span start, ']' => some (.closed, { d with span := some (String.ofList (slice start)) })
  | .span start, '{' =>
    let name := slice start
    some (.field (i + 1),
      { d with span := if name.isEmpty then none else some (String.ofList name) })
  | .span start, _ => some (.span start, d)
  | .field start, '}' => (d.addField (slice start)).map fun d => (.fields, d)
  | .field start, _ => some (.field start, d)
  | .fields, ']' => some (.closed, d)
  | .level start, _ => some (.level start, d)
  | .fields, _ | .closed, _ => none

/-- Takes what is left at the end of a directive. -/
def conclude (rest : Nat → List Char) (place : Place) (d : Directive) : Option Directive :=
  match place with
  | .word start =>
    match Threshold.read? (rest start) with
    | some threshold => some { d with threshold }
    | none => some { d with target := some (String.ofList (rest start)) }
  | .level start =>
    if (rest start).isEmpty then some d
    else (Threshold.read? (rest start)).map fun threshold => { d with threshold }
  | .closed => some d
  | .start | .span _ | .field _ | .fields => none

/-- Reads a directive. White space around it is not read, but places are counted from the
first character of the text. -/
def read? (text : List Char) : Option Directive := do
  let slice (i start : Nat) : List Char := (text.drop start).take (i - start)
  let (place, d) ← ((Text.trim text).zipIdx).foldlM
    (fun (place, d) (c, i) => advance (slice i) place i c d) (Place.start, {})
  conclude text.drop place d

/-- The directive can be about a line. -/
def isStatic (d : Directive) : Bool :=
  d.span.isNone && !d.wantsValue

/-- The directive is about a line. -/
def fits (d : Directive) (r : LogRecord) : Bool :=
  d.isStatic && (d.target.all fun t => t.toList.isPrefixOf r.target.toList)
    && d.fields.all r.fields.contains

/-- One directive is more special than another one. -/
def isMoreSpecial (a b : Directive) : Bool :=
  let size (d : Directive) : Nat := d.target.elim 0 fun t => t.utf8ByteSize + 1
  size b < size a || (size a = size b && b.fields.length < a.fields.length)

end Directive

/-- The directives of a log level. -/
abbrev LogFilter := List Directive

namespace LogFilter

/-- Reads a log level. One without directives lets errors pass. -/
def read? (text : String) : Option LogFilter := do
  let directives ← ((text.splitOn ",").filter (· ≠ "")).mapM fun part =>
    Directive.read? part.toList
  return if directives.isEmpty then [{ threshold := some .error }] else directives

/-- The directive that decides about a line: the most special one that fits, of several the
last. -/
def deciding? (filter : LogFilter) (r : LogRecord) : Option Directive :=
  (filter.filter (·.fits r)).foldl
    (fun best d =>
      match best with
      | some b => if b.isMoreSpecial d then some b else some d
      | none => some d) none

/-- A line is logged. -/
def admits (filter : LogFilter) (r : LogRecord) : Bool :=
  (filter.deciding? r).any fun d => Threshold.admits d.threshold r.level

/-- Reads the log level of a configuration. -/
def ofLevel (level : String) : Except ConfigError LogFilter :=
  (read? level).elim (.error (.logging s!"level '{level}': invalid filter directive")) .ok

end LogFilter
end EventPipeline
