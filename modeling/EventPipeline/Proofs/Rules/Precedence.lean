import EventPipeline.Rules.Builtin
import EventPipeline.Rules.Expr

/-!
# `EventPipeline.Proofs.Rules.Precedence`: the stacks compute the tree

`evaluate` never sees the tree of an expression. It keeps operators back until one that
binds no tighter, a closing parenthesis or the end of the tokens makes it reduce them. The
theorems:

* `evaluateFrom_reduce`: a token that closes an expression first applies the operator that
  was kept back last, and nothing is evaluated in between.
* `evaluateFrom_spelled`: on the tokens of an expression, whatever stands before and
  behind them, evaluation does what the post-order evaluation of the tree does and goes on
  with its value on top of the operands.
* `applyBinary_int_exactOrError`: arithmetic on integers never wraps around.
* `evaluate_eq_eval`: the whole sequence. Values, first errors and effects agree.
-/

set_option autoImplicit false

namespace EventPipeline.Rules

variable {σ : Type}

/-! ### Results inside evaluations -/

@[simp] theorem Eval.ofExcept_ok {α : Type} (a : α) :
    (Eval.ofExcept (.ok a) : Eval σ α) = pure a :=
  rfl

/-- A result that depends on another one, as two steps of an evaluation. -/
theorem Eval.ofExcept_bind {α β : Type} (x : Except EvalError α)
    (f : α → Except EvalError β) :
    (Eval.ofExcept (x.bind f) : Eval σ β) = Eval.ofExcept x >>= fun a => Eval.ofExcept (f a) := by
  cases x <;> rfl

/-- A changed result, as a step of an evaluation. -/
theorem Eval.ofExcept_map {α β : Type} (x : Except EvalError α) (f : α → β) :
    (Eval.ofExcept (x.map f) : Eval σ β) = Eval.ofExcept x >>= fun a => pure (f a) := by
  cases x <;> rfl

/-! ### Operators that were kept back -/

/-- The operator is not written in front of its only operand. -/
theorem Op.isUnary_of_isBinary {op : Op} (h : op.isBinary) : op.isUnary = false := by
  cases op <;> first | rfl | cases h

/-- Every operator between two operands binds less tightly than the negation. -/
theorem Op.precedence_lt_not {op : Op} (h : op.isBinary) :
    op.precedence < Op.not.precedence := by
  cases op <;> first | decide | cases h

/-- No operator at the floor makes the level reduce the operator that it kept back last. -/
def Level.Below (floor : Nat) (level : Level) : Prop :=
  ∀ top ∈ level.operators.head?, ∀ op : Op, op.isBinary → floor ≤ op.precedence →
    top.precedence < op.precedence

/-- The tokens `rest` end an expression at the floor: the end of everything, a closing
parenthesis where one is open, or an operator that binds no tighter than the floor. -/
inductive Closes (floor : Nat) : (outer : List Level) → (rest : List Token) → Prop where
  | finish : Closes floor [] []
  | parenthesis {parent : Level} {further : List Level} {ts : List Token} :
    Closes floor (parent :: further) (.rightParen :: ts)
  | operator {outer : List Level} {op : Op} {ts : List Token} (isBinary : op.isBinary)
    (hfloor : op.precedence ≤ floor) : Closes floor outer (.operator op :: ts)

/-- What ends an expression at a floor ends every one at a higher floor. -/
theorem Closes.mono {floor floor' : Nat} {outer : List Level} {rest : List Token}
    (h : Closes floor outer rest) (hle : floor ≤ floor') : Closes floor' outer rest := by
  cases h with
  | finish => exact .finish
  | parenthesis => exact .parenthesis
  | operator isBinary hfloor => exact .operator isBinary (Nat.le_trans hfloor hle)

/-- A level under the floor of a looser operator is also under that of a tighter one. -/
theorem Level.Below.mono {floor floor' : Nat} {level : Level} (h : level.Below floor)
    (hle : floor ≤ floor') : level.Below floor' :=
  fun top htop op isBinary hop => h top htop op isBinary (Nat.le_trans hle hop)

/-- An operator that the level does not reduce for is put on top of its operators. -/
theorem Level.pushOperator_of_below {floor : Nat} {level : Level} {op : Op}
    (h : level.Below floor) (isBinary : op.isBinary) (hfloor : floor ≤ op.precedence) :
    level.pushOperator op = .ok { level with operators := op :: level.operators } := by
  obtain ⟨operands, operators⟩ := level
  rw [pushOperator, Op.isUnary_of_isBinary isBinary]
  cases operators with
  | nil => rfl
  | cons top ops =>
    have htop : top.precedence < op.precedence := h top rfl op isBinary hfloor
    simp [reduceWhile, Nat.not_le.mpr htop, Except.map]

/-- An operator of the level that has to be reduced first is applied first. -/
theorem Level.reduceWhile_cons {p : Op → Bool} {op : Op} (hp : p op) (ops : List Op)
    (operands : List Value) :
    reduceWhile p (op :: ops) operands = (applyTo op operands).bind (reduceWhile p ops) := by
  rw [reduceWhile, if_pos hp]

section

variable (caller : Caller σ) (env : Environment)

/-- What closes an expression applies the operator that was kept back last, if that binds
at least as tightly, and then goes on as if it had been applied before. -/
theorem evaluateFrom_reduce {floor : Nat} {outer : List Level} {rest : List Token}
    (hrest : Closes floor outer rest) {op : Op} (hop : floor ≤ op.precedence) (ops : List Op)
    (operands : List Value) :
    evaluateFrom caller env { operands := operands, operators := op :: ops } outer rest =
      Eval.ofExcept (Level.applyTo op operands) >>= fun operands =>
        evaluateFrom caller env { operands := operands, operators := ops } outer rest := by
  have hflush : Level.flush { operands := operands, operators := op :: ops } =
      (Level.applyTo op operands).bind fun operands =>
        Level.flush { operands := operands, operators := ops } := by
    rw [Level.flush, Level.reduceWhile_cons rfl]
    cases Level.applyTo op operands <;> rfl
  cases hrest with
  | finish => simp only [evaluateFrom, hflush, Eval.ofExcept_bind]
  | parenthesis => simp only [evaluateFrom, hflush, Eval.ofExcept_bind, bind_assoc]
  | @operator _ next _ isBinary hfloor =>
    have hpush : Level.pushOperator { operands := operands, operators := op :: ops } next =
        (Level.applyTo op operands).bind fun operands =>
          Level.pushOperator { operands := operands, operators := ops } next := by
      have hnext : decide (next.precedence ≤ op.precedence) = true :=
        decide_eq_true (Nat.le_trans hfloor hop)
      simp only [Level.pushOperator, Op.isUnary_of_isBinary isBinary]
      rw [Level.reduceWhile_cons hnext]
      cases Level.applyTo op operands <;> rfl
    simp only [evaluateFrom, hpush, Eval.ofExcept_bind, bind_assoc]

/-- An operand token adds its value to the level. -/
theorem evaluateFrom_operand {t : Token} (h : t.isOperand) (level : Level)
    (outer : List Level) (rest : List Token) :
    evaluateFrom caller env level outer (t :: rest) =
      t.eval caller env >>= fun v =>
        evaluateFrom caller env (level.pushOperand v) outer rest := by
  cases t <;> first | rfl | cases h

/-! ### Whole expressions -/

/-- On the tokens of an expression evaluation computes the value of the tree and goes on
with it as the latest operand. `level` is what was read before on the same level, and
`rest` is what follows. -/
theorem evaluateFrom_spelled {floor : Nat} {e : Expr} {ts : List Token}
    (h : e.Spelled floor ts) (level : Level) (outer : List Level) (rest : List Token)
    (hlevel : level.Below floor) (hrest : Closes floor outer rest) :
    evaluateFrom caller env level outer (ts ++ rest) =
      e.eval caller env >>= fun v =>
        evaluateFrom caller env (level.pushOperand v) outer rest := by
  induction h generalizing level outer rest with
  | @operand floor t isOperand => exact evaluateFrom_operand caller env isOperand level outer rest
  | @not floor e ts hfloor he ih =>
    -- No binary operator stands at the floor of the negation, so its own place on the
    -- stack is never in question.
    have hbelow : Level.Below Op.not.precedence
        { level with operators := .not :: level.operators } := fun _ _ op isBinary hop =>
      absurd (Op.precedence_lt_not isBinary) (Nat.not_lt.mpr hop)
    have hpush : level.pushOperator .not =
        .ok { level with operators := .not :: level.operators } := rfl
    rw [List.cons_append]
    simp only [evaluateFrom, hpush, Eval.ofExcept_ok, pure_bind, Expr.eval, bind_assoc]
    rw [ih _ outer rest hbelow (hrest.mono hfloor)]
    refine congrArg _ (funext fun v => ?_)
    rw [Level.pushOperand, evaluateFrom_reduce caller env hrest hfloor]
    simp only [Level.applyTo, Op.isUnary, decide_true, if_true, Eval.ofExcept_map, bind_assoc,
      pure_bind, Level.pushOperand]
  | @binary floor op isBinary left right ls rs hfloor hleft hright ihl ihr =>
    -- `op` goes under the operators of the right operand, and all of those bind tighter.
    have hbelow (l : Value) : Level.Below (op.precedence + 1)
        { level.pushOperand l with operators := op :: level.operators } := by
      intro top htop next _ hnext
      cases htop
      exact hnext
    have hpush (l : Value) := Level.pushOperator_of_below
      (show Level.Below floor (level.pushOperand l) from hlevel) isBinary hfloor
    rw [List.append_assoc, List.cons_append,
      ihl level outer _ (hlevel.mono hfloor) (.operator isBinary (Nat.le_refl _))]
    simp only [Expr.eval, bind_assoc]
    refine congrArg _ (funext fun l => ?_)
    simp only [evaluateFrom, hpush l, Eval.ofExcept_ok, pure_bind]
    rw [show (level.pushOperand l).operators = level.operators from rfl,
      ihr _ outer rest (hbelow l) (hrest.mono (Nat.le_succ_of_le hfloor))]
    refine congrArg _ (funext fun r => ?_)
    rw [Level.pushOperand, evaluateFrom_reduce caller env hrest hfloor]
    simp only [Level.applyTo, Level.pushOperand, Op.isUnary_of_isBinary isBinary,
      Bool.false_eq_true, if_false, Eval.ofExcept_map, bind_assoc, pure_bind]
  | @parens floor e ts he ih =>
    have hbelow : Level.Below 0 {} := fun _ htop => nomatch htop
    rw [List.cons_append, List.cons_append, List.append_assoc]
    simp only [evaluateFrom]
    rw [List.singleton_append, ih {} (level :: outer) _ hbelow .parenthesis]
    refine congrArg _ (funext fun v => ?_)
    have hflush : Level.flush (Level.pushOperand {} v) = .ok v := rfl
    simp only [evaluateFrom, hflush, Eval.ofExcept_ok, pure_bind]

end

/-! ### Integer arithmetic -/

/-- An integer result is exact, or it is an overflow because it does not fit 64 bits. -/
theorem fitInteger_exactOrError {op : Op} {a b n : Int} (h : exactResult? op a b = some n) :
    ExactOrError op a b (fitInteger op n) := by
  by_cases hfit : -2 ^ 63 ≤ n ∧ n < 2 ^ 63
  · rw [fitInteger, if_pos hfit]
    have hn : (Int64.ofInt n).toInt = n := Int64.toInt_ofInt_of_le hfit.1 hfit.2
    exact .exact (by rw [hn, h])
  · rw [fitInteger, if_neg hfit]
    exact .overflow h hfit

/-- Arithmetic on integers gives the exact result, or the error that says why there is
none. -/
theorem applyBinary_int_exactOrError (op : Op) (hop : op ∈ [Op.add, .sub, .mul, .div])
    (a b : Int64) :
    ExactOrError op a.toInt b.toInt (applyBinary op (.int a) (.int b)) := by
  simp only [List.mem_cons, List.not_mem_nil, or_false] at hop
  rcases hop with rfl | rfl | rfl | rfl
  · show ExactOrError .add a.toInt b.toInt (fitInteger .add (a.toInt + b.toInt))
    exact fitInteger_exactOrError rfl
  · show ExactOrError .sub a.toInt b.toInt (fitInteger .sub (a.toInt - b.toInt))
    exact fitInteger_exactOrError rfl
  · show ExactOrError .mul a.toInt b.toInt (fitInteger .mul (a.toInt * b.toInt))
    exact fitInteger_exactOrError rfl
  · have hdiv : applyBinary .div (.int a) (.int b) =
        if b.toInt = 0 then .error .divisionByZero
        else fitInteger .div (a.toInt.tdiv b.toInt) := rfl
    rw [hdiv]
    by_cases hb : b.toInt = 0
    · rw [if_pos hb]
      exact .divisionByZero (by simp [exactResult?, hb])
    · rw [if_neg hb]
      exact fitInteger_exactOrError (by simp [exactResult?, hb])

/-! ### The whole sequence -/

/-- Evaluating the tokens of an expression is evaluating its tree in post order: for all
actions and every state of theirs the two give the same value or the same first error, and
leave the same state behind. The integer arithmetic of both never wraps around. -/
theorem evaluate_eq_eval (caller : Caller σ) (env : Environment) (e : Expr) (ts : List Token)
    (h : e.Spelled 0 ts) :
    evaluate caller env ts = e.eval caller env ∧
      ∀ op ∈ [Op.add, .sub, .mul, .div], ∀ a b : Int64,
        ExactOrError op a.toInt b.toInt (applyBinary op (.int a) (.int b)) := by
  refine ⟨?_, applyBinary_int_exactOrError⟩
  have hbelow : Level.Below 0 {} := fun _ htop => nomatch htop
  have hspelled := evaluateFrom_spelled caller env h {} [] [] hbelow .finish
  rw [List.append_nil] at hspelled
  rw [evaluate, hspelled]
  exact bind_pure (e.eval caller env)

/-- The tokens `7 - !x * (2 - 5)`: the negation binds tightest, and the parentheses keep the
second difference together. -/
theorem evaluate_eq_eval_difference :
    evaluate Actions.call {}
        [.integer 7, .operator .sub, .operator .not, .identifier "x", .operator .mul,
          .leftParen, .integer 2, .operator .sub, .integer 5, .rightParen] =
      (Expr.binary .sub rfl (.operand (.integer 7) rfl)
        (.binary .mul rfl (.not (.operand (.identifier "x") rfl))
          (.binary .sub rfl (.operand (.integer 2) rfl) (.operand (.integer 5) rfl)))).eval
        Actions.call {} := by
  refine (evaluate_eq_eval Actions.call {} _ _ ?_).1
  show Expr.Spelled 0 _ ([.integer 7] ++ .operator .sub ::
    ([.operator .not, .identifier "x"] ++ .operator .mul ::
      (.leftParen :: ([.integer 2] ++ .operator .sub :: [.integer 5]) ++ [.rightParen])))
  exact .binary (by decide) .operand
    (.binary (by decide) (.not (by decide) .operand)
      (.parens (.binary (by decide) .operand .operand)))

end EventPipeline.Rules
