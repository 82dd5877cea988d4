import EventPipeline.Rules.Ruler

/-!
# `EventPipeline.Rules.Walk`: a search without a limit, one rule at a time

A walk is a moment of a search: the rule sets that jumps have opened, each with the rules
that are still to be tried, and the state that actions have left. `Walk.step` tries one
rule or closes one rule set. Jumps may be nested as deeply as the rules ask for, so a walk
need not end.
-/

set_option autoImplicit false

namespace EventPipeline.Rules

/-- A rule set that is being searched, with the rules that are still to be tried. -/
structure Frame where
  ruleSet : String
  rules : List Rule

/-- A moment of a search: the open rule sets, the one that was jumped to last in front, and
the state of actions with the reported jumps. -/
structure Walk (σ : Type) where
  frames : List Frame
  state : σ × List Message

/-- How a search goes on: it has ended, or it is under way. -/
inductive Course (σ : Type) where
  | ended (result : Except RulerError Verdict) (state : σ × List Message)
  | going (walk : Walk σ)

section

variable {σ : Type} (evaluator : Evaluator σ) (ruleSets : Fields (List Rule))
  (env : Environment)

/-- A jump into a rule set from the rule sets that are open. -/
def Course.jump (source target : String) (frames : List Frame) (state : σ × List Message) :
    Course σ :=
  let state := (state.1, .gotoFollowed source target frames.length :: state.2)
  match ruleSets.get? target with
  | none => .ended (.error (.noSuchRuleSet target)) state
  | some rules => .going { frames := ⟨target, rules⟩ :: frames, state }

/-- Tries the next rule of the rule set in front. A rule set without a match is closed, and
the search resumes behind the rule that jumped into it. -/
def Walk.step (walk : Walk σ) : Course σ :=
  match walk.frames with
  | [] => .ended (.ok .noMatch) walk.state
  | ⟨_, []⟩ :: outer => .going { walk with frames := outer }
  | ⟨name, rule :: rest⟩ :: outer =>
    match (Search.ofEval (rule.fire evaluator env)).run walk.state with
    | (.error e, state) => .ended (.error e) state
    | (.ok .noMatch, state) => .going { frames := ⟨name, rest⟩ :: outer, state }
    | (.ok (.matched value), state) => .ended (.ok (.matched value rule.text)) state
    | (.ok (.jump target), state) =>
      Course.jump ruleSets name target (⟨name, rest⟩ :: outer) state

/-- The next step is a jump that is nested more than `maxGotoDepth` deep, counting itself. -/
def Walk.JumpsTooDeep (walk : Walk σ) : Prop :=
  match walk.frames with
  | ⟨_, rule :: _⟩ :: outer =>
    maxGotoDepth < outer.length + 1 ∧
      ∃ target, ((Search.ofEval (rule.fire evaluator env)).run walk.state).1 =
        .ok (.jump target)
  | _ => False

/-- The start of a search in the rule set `name`. -/
def Course.start (name : String) (state : σ × List Message) : Course σ :=
  match ruleSets.get? name with
  | none => .ended (.error (.noSuchRuleSet name)) state
  | some rules => .going { frames := [⟨name, rules⟩], state }

/-- The search has the given result and leaves the given state. -/
inductive Course.Ends :
    Course σ → Except RulerError Verdict × (σ × List Message) → Prop where
  | here (result : Except RulerError Verdict) (state : σ × List Message) :
    Ends (.ended result state) (result, state)
  | step {walk : Walk σ} {out : Except RulerError Verdict × (σ × List Message)}
    (h : Ends (walk.step evaluator ruleSets env) out) : Ends (.going walk) out

end

end EventPipeline.Rules
