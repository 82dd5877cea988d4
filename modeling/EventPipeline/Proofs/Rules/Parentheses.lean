import EventPipeline.Proofs.Rules.Reading
import EventPipeline.Proofs.Rules.Tokens

/-!
# `EventPipeline.Proofs.Rules.Parentheses`: two checks of the same parentheses

When a rule is compiled, `checkParens` counts the parentheses that are open. When it is evaluated,
there is a level for each of them. The count is the number of levels around the open one, and every
token that is read keeps it so (`checkParens_of_readsTo`). So the two agree
(`checkParens_agrees`): tokens that the check rejects have no value, and in tokens that it
accepts evaluation never comes upon a parenthesis without its counterpart.

Evaluation can stop early with another error, and it goes into the arguments of calls. An argument
is an operand (`Token.HasOperandArguments`), so there is no parenthesis to miss. An action may raise
whatever it likes, and what it raises is the error of the evaluation: that is the one way in which
there can be an error about parentheses all the same.
-/

set_option autoImplicit false

namespace EventPipeline.Rules

variable {σ : Type}

/-- The arguments of calls are operands, at every depth. -/
inductive Token.HasOperandArguments : Token → Prop where
  | call (name : String) {args : List Token} (operands : ∀ arg ∈ args, arg.isOperand = true)
    (inner : ∀ arg ∈ args, arg.HasOperandArguments) : HasOperandArguments (.call name args)
  | other {t : Token} (h : ∀ name args, t ≠ .call name args) : HasOperandArguments t

/-- The arguments that the tokenizer puts into a call are operands. -/
theorem Token.IsLexable.hasOperandArguments {t : Token} (h : t.IsLexable) :
    t.HasOperandArguments := by
  induction h with
  | @call name args _ _ operands ih => exact .call name operands ih
  | _ => exact .other fun _ _ h => by cases h

/-! ### Errors -/

/-- The error is about a parenthesis that has no counterpart. -/
def EvalError.IsParenthesis : EvalError → Prop
  | .unbalancedExpression detail =>
    detail = "unexpected ')'" ∨ ∃ n : Nat, detail = s!"{n} unclosed '('"
  | _ => False

/-- The texts of these errors end in a quotation mark. -/
theorem getLast?_of_isParenthesis {detail : String} (h : (unbalanced detail).IsParenthesis) :
    detail.toList.getLast? = some '\'' := by
  obtain rfl | ⟨n, rfl⟩ := h
  · rfl
  · show (toString n ++ " unclosed '('").toList.getLast? = _
    rw [String.toList_append, List.getLast?_append]
    rfl

/-- An operator that lacks an operand is another matter. -/
theorem not_isParenthesis_missingOperand (op : Op) : ¬(missingOperand op).IsParenthesis := by
  intro h
  have hlast := getLast?_of_isParenthesis h
  change ("missing operand for `" ++ op.symbol ++ "`").toList.getLast? = _ at hlast
  rw [String.toList_append, List.getLast?_append] at hlast
  cases hlast

/-- Whatever error the result is, it is not about a parenthesis. -/
def Unrelated {α : Type} (x : Except EvalError α) : Prop :=
  ∀ e, x = .error e → ¬e.IsParenthesis

namespace Unrelated

variable {α β : Type}

theorem ok (a : α) : Unrelated (.ok a) := by
  intro e h
  cases h

theorem error {e : EvalError} (h : ¬e.IsParenthesis) :
    Unrelated (.error e : Except EvalError α) := by
  intro e' he
  cases he
  exact h

theorem bind {x : Except EvalError α} {f : α → Except EvalError β} (hx : Unrelated x)
    (hf : ∀ a, Unrelated (f a)) : Unrelated (x.bind f) := by
  cases x with
  | error e => exact .error (hx e rfl)
  | ok a => exact hf a

theorem map {x : Except EvalError α} (f : α → β) (hx : Unrelated x) : Unrelated (x.map f) := by
  cases x with
  | error e => exact .error (hx e rfl)
  | ok a => exact .ok (f a)

end Unrelated

theorem unrelated_fitInteger (op : Op) (n : Int) : Unrelated (fitInteger op n) := by
  unfold fitInteger
  split
  · exact .ok _
  · exact .error id

theorem unrelated_integerArithmetic (op : Op) (a b : Int) :
    Unrelated (integerArithmetic op a b) := by
  unfold integerArithmetic
  cases op with
  | add | sub | mul => exact unrelated_fitInteger _ _
  | div =>
    dsimp only
    split
    · exact .error id
    · exact unrelated_fitInteger _ _
  | _ => exact .error id

theorem unrelated_floatArithmetic (op : Op) (a b : Float) :
    Unrelated (floatArithmetic op a b) := by
  unfold floatArithmetic
  cases op with
  | add | sub | mul => exact .ok _
  | div =>
    dsimp only
    split
    · exact .error id
    · exact .ok _
  | _ => exact .error id

theorem unrelated_arithmetic (op : Op) (left right : Value) :
    Unrelated (arithmetic op left right) := by
  unfold arithmetic
  split
  · exact unrelated_integerArithmetic _ _ _
  · split
    · exact unrelated_floatArithmetic _ _ _
    · exact .error id

theorem unrelated_compareValues (op : Op) (left right : Value) :
    Unrelated (compareValues op left right) := by
  unfold compareValues
  split
  · exact .ok _
  · exact .ok _
  · exact .ok _
  · split
    · split
      · exact .ok _
      · exact .error id
    · exact .error id

theorem unrelated_membership (item container : Value) : Unrelated (membership item container) := by
  unfold membership
  split
  · exact .ok _
  · exact .ok _
  · exact .ok _
  · exact .error id

/-- No operator is about parentheses. -/
theorem unrelated_applyUnary (op : Op) (v : Value) : Unrelated (applyUnary op v) := by
  unfold applyUnary
  split
  · exact .error id
  · split
    · exact .ok _
    · exact .error id

/-- No operator is about parentheses. -/
theorem unrelated_applyBinary (op : Op) (left right : Value) :
    Unrelated (applyBinary op left right) := by
  unfold applyBinary
  split
  · exact .error id
  · exact .error id
  · unfold applyOperands
    cases op with
    | and | or | eq | ne => exact .ok _
    | gt | ge | lt | le => exact (unrelated_compareValues _ _ _).map _
    | mem => exact (unrelated_membership _ _).map _
    | add =>
      dsimp only
      split
      · exact .ok _
      · exact .ok _
      · exact unrelated_arithmetic _ _ _
    | sub | mul | div => exact unrelated_arithmetic _ _ _
    | _ => exact .error id

namespace Level

theorem unrelated_applyTo (op : Op) (operands : List Value) : Unrelated (applyTo op operands) := by
  unfold applyTo
  split
  · split
    · exact .error (not_isParenthesis_missingOperand op)
    · exact (unrelated_applyUnary _ _).map _
  · split
    · exact (unrelated_applyBinary _ _ _).map _
    · exact .error (not_isParenthesis_missingOperand op)

theorem unrelated_reduceWhile (p : Op → Bool) (ops : List Op) (operands : List Value) :
    Unrelated (reduceWhile p ops operands) := by
  induction ops generalizing operands with
  | nil => exact .ok _
  | cons op ops ih =>
    rw [reduceWhile]
    split
    · exact (unrelated_applyTo op operands).bind ih
    · exact .ok _

theorem unrelated_pushOperator (level : Level) (op : Op) : Unrelated (level.pushOperator op) := by
  unfold pushOperator
  split
  · exact .ok _
  · exact (unrelated_reduceWhile _ _ _).map _

/-- A level that is not one value says how many there are, and nothing of parentheses. -/
theorem unrelated_flush (level : Level) : Unrelated level.flush := by
  refine (unrelated_reduceWhile _ _ _).bind fun reduced => ?_
  -- one value is left, or none, or more; neither of the two texts ends in a quotation mark
  split
  · exact .ok _
  · refine .error fun h => ?_
    have hlast := getLast?_of_isParenthesis h
    cases hlast
  · refine .error fun h => ?_
    have hlast := getLast?_of_isParenthesis h
    rw [String.toList_append, List.getLast?_append] at hlast
    cases hlast

end Level

/-! ### Evaluations that fail -/

/-- The evaluation fails with the error in a state, and leaves another state behind. -/
def Eval.Fails {α : Type} (eval : Eval σ α) (s : σ) (e : EvalError) (s' : σ) : Prop :=
  eval.run s = (.error e, s')

/-- An action that has a name raises the error when it is called, and leaves the state behind. -/
def Caller.Raises (caller : Caller σ) (env : Environment) (e : EvalError) (s' : σ) : Prop :=
  ∃ name action args s, env.get? name = some (.action action) ∧ (caller action args).Fails s e s'

namespace Eval

variable {α β : Type} {s s' : σ} {e : EvalError}

theorem not_fails_pure {a : α} : ¬(pure a : Eval σ α).Fails s e s' := by
  intro h
  cases h

theorem fails_throw {e' : EvalError} (h : (throw e' : Eval σ α).Fails s e s') : e' = e := by
  cases h
  rfl

theorem fails_ofExcept {x : Except EvalError α} (h : (ofExcept x : Eval σ α).Fails s e s') :
    x = .error e := by
  cases h
  rfl

/-- One of the two steps of an evaluation that fails does. -/
theorem fails_bind {x : Eval σ α} {f : α → Eval σ β} (h : (x >>= f).Fails s e s') :
    x.Fails s e s' ∨ ∃ a t, x.Gives s a t ∧ (f a).Fails t e s' := by
  change ExceptT.bindCont f (x.run s).1 (x.run s).2 = _ at h
  rcases hx : x.run s with ⟨e₁ | a, t⟩
  · rw [hx] at h
    cases h
    exact .inl hx
  · rw [hx] at h
    exact .inr ⟨a, t, hx, h⟩

end Eval

section

variable {caller : Caller σ} {env : Environment} {s s' : σ} {e : EvalError}

/-- The arguments raise what one of them raises. -/
theorem raises_of_evalAll {args : List Token}
    (hargs : ∀ arg ∈ args, ∀ {s s' : σ},
      (arg.eval caller env).Fails s e s' → caller.Raises env e s')
    (h : (Token.evalAll caller env args).Fails s e s') : caller.Raises env e s' := by
  induction args generalizing s with
  | nil => exact absurd h Eval.not_fails_pure
  | cons arg args ih =>
    rw [Token.evalAll] at h
    obtain ⟨harg, hrest⟩ := List.forall_mem_cons.mp hargs
    obtain hfirst | ⟨v, s₁, -, h⟩ := Eval.fails_bind h
    · exact harg hfirst
    · obtain hlater | ⟨vs, s₂, -, h⟩ := Eval.fails_bind h
      · exact ih hrest hlater
      · exact absurd h Eval.not_fails_pure

/-- An operand raises an error about a parenthesis only if an action does. -/
theorem raises_of_eval (he : e.IsParenthesis) {t : Token} (ht : t.HasOperandArguments)
    (hoperand : t.isOperand = true) (h : (t.eval caller env).Fails s e s') :
    caller.Raises env e s' := by
  induction ht generalizing s s' with
  | @call name args operands inner ih =>
    -- the name is resolved first, then the arguments are evaluated, and then the action is called
    rw [Token.eval] at h
    split at h
    · rename_i action hname
      obtain hargs | ⟨vs, s₁, -, hcall⟩ := Eval.fails_bind h
      · exact raises_of_evalAll (fun arg harg _ _ => ih arg harg (operands arg harg)) hargs
      · exact ⟨name, action, vs, s₁, hname, hcall⟩
    · cases Eval.fails_throw h
      cases he
    · cases Eval.fails_throw h
      cases he
  | @other t hcall =>
    cases t with
    | call name args => exact absurd rfl (hcall name args)
    | operator op => cases hoperand
    | leftParen => cases hoperand
    | rightParen => cases hoperand
    | _ =>
      rw [Token.eval] at h
      exact absurd h Eval.not_fails_pure

/-! ### Counting and nesting -/

/-- A token does to the number of open levels what it does to the number of open parentheses. -/
theorem checkParens_of_readsTo {level level' : Level} {outer outer' : List Level} {t : Token}
    (h : ReadsTo caller env level outer s t level' outer' s') (ts : List Token) :
    checkParens outer.length (t :: ts) = checkParens outer'.length ts := by
  cases h with
  | opening => rfl
  | closing houter _ =>
    subst houter
    rfl
  | operator _ => rfl
  | operand ht _ => cases t <;> first | rfl | cases ht

/-- Tokens that have a value where they stand are accepted there. -/
theorem checkParens_of_gives {level : Level} {outer : List Level} {ts : List Token} {v : Value}
    (h : (evaluateFrom caller env level outer ts).Gives s v s') :
    checkParens outer.length ts = .ok () := by
  induction ts generalizing level outer s with
  | nil =>
    -- at the end only the outermost level gives a value
    obtain ⟨rfl, -⟩ := flush_of_gives h
    rfl
  | cons t ts ih =>
    obtain ⟨level', outer', s₁, hread, hrest⟩ := exists_readsTo_of_gives h
    rw [checkParens_of_readsTo hread]
    exact ih hrest

/-- A token whose parenthesis has its counterpart raises an error about a parenthesis only if an
action does. -/
theorem raises_of_readToken (he : e.IsParenthesis) {level : Level} {outer : List Level} {t : Token}
    {ts : List Token} (ht : t.HasOperandArguments)
    (hparens : checkParens outer.length (t :: ts) = .ok ())
    (h : (readToken caller env level outer t).Fails s e s') : caller.Raises env e s' := by
  cases t with
  | leftParen => exact absurd h Eval.not_fails_pure
  | rightParen =>
    cases outer with
    | nil => cases hparens
    | cons parent further =>
      obtain hflush | ⟨v, s₁, -, h⟩ := Eval.fails_bind h
      · exact absurd he (level.unrelated_flush e (Eval.fails_ofExcept hflush))
      · exact absurd h Eval.not_fails_pure
  | operator op =>
    obtain hpush | ⟨pushed, s₁, -, h⟩ := Eval.fails_bind h
    · exact absurd he (level.unrelated_pushOperator op e (Eval.fails_ofExcept hpush))
    · exact absurd h Eval.not_fails_pure
  | _ =>
    obtain hvalue | ⟨v, s₁, -, h⟩ := Eval.fails_bind h
    · exact raises_of_eval he ht rfl hvalue
    · exact absurd h Eval.not_fails_pure

/-- Tokens that are accepted where they stand raise an error about a parenthesis only if an action
does. -/
theorem raises_of_evaluateFrom (he : e.IsParenthesis) {level : Level} {outer : List Level}
    {ts : List Token} (hts : ∀ t ∈ ts, t.HasOperandArguments)
    (hparens : checkParens outer.length ts = .ok ())
    (h : (evaluateFrom caller env level outer ts).Fails s e s') : caller.Raises env e s' := by
  induction ts generalizing level outer s with
  | nil =>
    cases outer with
    | nil => exact absurd he (level.unrelated_flush e (Eval.fails_ofExcept h))
    | cons parent further =>
      -- the check has counted the levels that are still open
      cases hparens
  | cons t ts ih =>
    obtain ⟨ht, hrest⟩ := List.forall_mem_cons.mp hts
    rw [evaluateFrom_cons] at h
    obtain hread | ⟨⟨level', outer'⟩, s₁, hread, hlater⟩ := Eval.fails_bind h
    · exact raises_of_readToken he ht hparens hread
    · rw [checkParens_of_readsTo (readsTo_of_readToken hread)] at hparens
      exact ih hrest hparens hlater

end

/-- The check of the parentheses agrees with evaluation, on all tokens whose calls have operands
for arguments, as those of a text do. What it rejects fails, whatever the environment holds and
whatever the actions do. In what it accepts, evaluation itself finds every parenthesis matched: an
error that says otherwise is the error of an action that was called. -/
theorem checkParens_agrees (ts : List Token) :
    (∀ text, tokenize text = .ok ts → ∀ t ∈ ts, t.HasOperandArguments) ∧
      ((∀ t ∈ ts, t.HasOperandArguments) →
        ∀ {σ : Type} (caller : Caller σ) (env : Environment) (s : σ),
          (checkParens 0 ts ≠ .ok () → ∃ e s', (evaluate caller env ts).Fails s e s') ∧
            (checkParens 0 ts = .ok () → ∀ e s', (evaluate caller env ts).Fails s e s' →
              e.IsParenthesis → caller.Raises env e s')) := by
  constructor
  · intro text htext t ht
    exact (isLexable_of_go htext t ht).hasOperandArguments
  intro hts σ caller env s
  constructor
  · intro hparens
    rcases hrun : (evaluate caller env ts).run s with ⟨e | v, s'⟩
    · exact ⟨e, s', hrun⟩
    · exact absurd (checkParens_of_gives hrun) hparens
  · intro hparens e s' hfails he
    have hdepth : checkParens ([] : List Level).length ts = .ok () := hparens
    exact raises_of_evaluateFrom he hts hdepth hfails

/-- A parenthesis that nobody opened is rejected, and makes the evaluation fail behind a call that
succeeds. One around the call is accepted, and the same error is that of the action. -/
theorem checkParens_agrees_call :
    let call : Token := .call "f" [.integer 1]
    let env : Environment := { globals := [("f", .action { serial := 0, name := "f" })] }
    let stray : EvalError := unbalanced "unexpected ')'"
    (∃ e s', (evaluate (fun _ _ => pure .null) env [call, .rightParen]).Fails () e s') ∧
      Caller.Raises (fun _ _ => throw stray) env stray () := by
  intro call env stray
  have hcall : call.HasOperandArguments := by
    refine .call "f" (List.forall_mem_singleton.mpr rfl) (List.forall_mem_singleton.mpr ?_)
    exact .other fun _ _ h => by cases h
  have hopen : Token.leftParen.HasOperandArguments := .other fun _ _ h => by cases h
  have hclose : Token.rightParen.HasOperandArguments := .other fun _ _ h => by cases h
  constructor
  · have hrejected : checkParens 0 [call, .rightParen] ≠ .ok () := by
      intro h
      cases h
    have hts : ∀ t ∈ [call, .rightParen], t.HasOperandArguments := by
      simp [hcall, hclose]
    exact ((checkParens_agrees _).2 hts _ env ()).1 hrejected
  · have hts : ∀ t ∈ [.leftParen, call, .rightParen], t.HasOperandArguments := by
      simp [hopen, hcall, hclose]
    have hfails :
        (evaluate (fun _ _ => throw stray) env [.leftParen, call, .rightParen]).Fails () stray () :=
      rfl
    exact ((checkParens_agrees _).2 hts _ env ()).2 rfl stray () hfails (.inl rfl)

end EventPipeline.Rules
