import EventPipeline.Pattern.CharSet

/-!
# `EventPipeline.Pattern.Basic`: patterns and where their matches end

A pattern matches stretches of a text. `Pattern.ends` gives, for a place where a match
starts, all places where one can end. A place is a number of characters, and each step
to the right goes at most to the end of the text, so that a repetition has found
everything after as many rounds as there are places.
-/

set_option autoImplicit false

namespace EventPipeline

namespace Pattern

/-- A condition on a place in a text that takes no characters. -/
inductive Look where
  | textStart | textEnd
  | lineStart (crlf : Bool) | lineEnd (crlf : Bool)
  | boundary (unicode : Bool) | noBoundary (unicode : Bool)
  | wordStart (unicode : Bool) | wordEnd (unicode : Bool)
  | wordStartHalf (unicode : Bool) | wordEndHalf (unicode : Bool)

/-- Word characters, of ASCII alone unless `unicode`. -/
def isWord (unicode : Bool) (c : Char) : Bool :=
  if unicode then Text.isWordChar c else c.isAlphanum || c == '_'

/-- The condition holds at place `i`. -/
def Look.holds (text : Array Char) (i : Nat) (look : Look) : Bool :=
  let before := if i = 0 then none else text[i - 1]?
  let after := text[i]?
  let wordBefore (unicode : Bool) := before.any (isWord unicode)
  let wordAfter (unicode : Bool) := after.any (isWord unicode)
  match look with
  | textStart => i = 0
  | textEnd => i = text.size
  | lineStart false => i = 0 || before == some '\n'
  | lineStart true =>
    i = 0 || before == some '\n' || (before == some '\r' && after != some '\n')
  | lineEnd false => i = text.size || after == some '\n'
  | lineEnd true =>
    i = text.size || after == some '\r' || (after == some '\n' && before != some '\r')
  | boundary u => wordBefore u != wordAfter u
  | noBoundary u => wordBefore u == wordAfter u
  | wordStart u => !wordBefore u && wordAfter u
  | wordEnd u => wordBefore u && !wordAfter u
  | wordStartHalf u => !wordBefore u
  | wordEndHalf u => !wordAfter u

end Pattern

/-- A pattern. A repetition has a least and perhaps a greatest number of rounds. -/
inductive Pattern where
  | empty
  | set (s : Pattern.CharSet)
  | look (l : Pattern.Look)
  | seq (a b : Pattern)
  | alt (a b : Pattern)
  | rounds (p : Pattern) (least : Nat) (most : Option Nat)

namespace Pattern

/-- Adds the places of one list to another that do not occur in it. -/
def merge (places more : List Nat) : List Nat :=
  more.foldl (fun all i => if all.contains i then all else i :: all) places

/-- The places reached from some of `places` by one step. -/
def advance (step : Nat → List Nat) (places : List Nat) : List Nat :=
  places.foldl (fun all i => merge all (step i)) []

/-- The places reached by exactly `n` steps. -/
def exactly (step : Nat → List Nat) : Nat → List Nat → List Nat
  | 0, places => places
  | n + 1, places => exactly step n (advance step places)

/-- The places reached by at most `n` steps. -/
def atMost (step : Nat → List Nat) : Nat → List Nat → List Nat
  | 0, places => places
  | n + 1, places => merge places (atMost step n (advance step places))

/-- The places where a match that starts at place `i` can end. More rounds than there
are places lead nowhere else. -/
def ends (text : Array Char) : Pattern → Nat → List Nat
  | empty, i => [i]
  | set s, i => if text[i]?.any s.contains then [i + 1] else []
  | look l, i => if l.holds text i then [i] else []
  | seq a b, i => advance (ends text b) (ends text a i)
  | alt a b, i => merge (ends text a i) (ends text b i)
  | rounds p least most, i =>
    let cap := text.size + 1
    let start := exactly (ends text p) (min least cap) [i]
    match most with
    | none => atMost (ends text p) cap start
    | some most => atMost (ends text p) (min (most - least) cap) start

/-- Some stretch that starts at the beginning of the text matches. -/
def matchesStart (p : Pattern) (text : String) : Bool :=
  !(p.ends text.toList.toArray 0).isEmpty

/-- Some stretch of the text matches, wherever it starts. -/
def matchesSomewhere (p : Pattern) (text : String) : Bool :=
  let cs := text.toList.toArray
  (List.range (cs.size + 1)).any fun i => !(p.ends cs i).isEmpty

end Pattern
end EventPipeline
