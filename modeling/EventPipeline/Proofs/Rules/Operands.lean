import EventPipeline.Proofs.Rules.Reading

/-!
# `EventPipeline.Proofs.Rules.Operands`: no operator takes a jump

A `goto` value says where a search continues, and it is meant to be a whole condition or a whole
action. It gets onto a level as the value of an operand token, and from there it can leave only in
two ways: an operator is applied to it, which is an error, or it is the value of its level. The
theorems:

* `isWhole_of_holds`: with a `goto` on some level, evaluation can succeed only if there is nothing
  else on any level, and then what is left to read are the closing parentheses.
* `eq_replicate_of_bare`: only opening parentheses leave all levels bare.
* `isWhole_of_goto`: if an operand of a sequence that has a value is a `goto`, there are only
  parentheses around it, and the value is that `goto`.

This is about the tokens of the sequence itself. The arguments of a call are values that the called
action gets, a `goto` among them: whether it is refused is up to the action, and
`Builtin.answer_of_goto` names the two built-in ones that do not refuse it.
-/

set_option autoImplicit false

namespace EventPipeline.Rules

variable {σ : Type}

/-- The value is a jump. -/
def Value.IsGoto (v : Value) : Prop :=
  ∃ target, v = .goto target

/-! ### Operators -/

/-- The result of arithmetic is a number. -/
theorem not_isGoto_of_arithmetic {op : Op} {left right w : Value}
    (h : arithmetic op left right = .ok w) : ¬w.IsGoto := by
  rintro ⟨target, rfl⟩
  have hfit : ∀ n, fitInteger op n ≠ .ok (.goto target) := by
    intro n hn
    rw [fitInteger] at hn
    split at hn <;> cases hn
  have hinteger : ∀ a b, integerArithmetic op a b ≠ .ok (.goto target) := by
    intro a b hab
    cases op <;> simp only [integerArithmetic] at hab
    case div =>
      split at hab
      · cases hab
      · exact hfit _ hab
    all_goals first | exact hfit _ hab | cases hab
  have hfloat : ∀ a b, floatArithmetic op a b ≠ .ok (.goto target) := by
    intro a b hab
    cases op <;> simp only [floatArithmetic] at hab
    case div => split at hab <;> cases hab
    all_goals cases hab
  unfold arithmetic at h
  split at h
  · exact hinteger _ _ h
  · split at h
    · exact hfloat _ _ h
    · cases h

/-- No result of an operator is a jump. -/
theorem not_isGoto_of_applyOperands {op : Op} {left right w : Value}
    (h : applyOperands op left right = .ok w) : ¬w.IsGoto := by
  have hmap : ∀ {α : Type} {x : Except EvalError α} {f : α → Bool},
      x.map (fun a => Value.bool (f a)) = .ok w → ¬w.IsGoto := by
    rintro α x f hx ⟨target, rfl⟩
    obtain ⟨a, -, ha⟩ := exists_of_map_eq_ok hx
    cases ha
  cases op with
  | add =>
    unfold applyOperands at h
    dsimp only at h
    split at h
    · cases h
      rintro ⟨_, h⟩
      cases h
    · cases h
      rintro ⟨_, h⟩
      cases h
    · exact not_isGoto_of_arithmetic h
  | sub | mul | div => exact not_isGoto_of_arithmetic h
  | gt | ge | lt | le | mem => exact hmap h
  | _ =>
    rintro ⟨target, rfl⟩
    cases h

/-- A unary operator takes no jump, and makes none. -/
theorem not_isGoto_of_applyUnary {op : Op} {v w : Value} (h : applyUnary op v = .ok w) :
    ¬v.IsGoto ∧ ¬w.IsGoto := by
  constructor
  · rintro ⟨target, rfl⟩
    cases h
  · rintro ⟨target, rfl⟩
    unfold applyUnary at h
    split at h
    · cases h
    · split at h <;> cases h

/-- An operator between two operands takes no jump, and makes none. -/
theorem not_isGoto_of_applyBinary {op : Op} {left right w : Value}
    (h : applyBinary op left right = .ok w) : ¬left.IsGoto ∧ ¬right.IsGoto ∧ ¬w.IsGoto := by
  unfold applyBinary at h
  split at h
  · cases h
  · cases h
  · rename_i hleft hright
    refine ⟨?_, ?_, not_isGoto_of_applyOperands h⟩
    · rintro ⟨target, rfl⟩
      exact hleft target rfl
    · rintro ⟨target, rfl⟩
      exact hright target rfl

namespace Level

/-- What an operator leaves on the stack: its own result is no jump, and no jump below it is
lost. -/
theorem applyTo_cases {op : Op} {operands rest : List Value} (h : applyTo op operands = .ok rest) :
    (∃ w others, rest = w :: others ∧ ¬w.IsGoto) ∧ ∀ v ∈ operands, v.IsGoto → v ∈ rest := by
  unfold applyTo at h
  split at h
  · match operands, h with
    | u :: operands, h =>
      obtain ⟨w, happly, rfl⟩ := exists_of_map_eq_ok h
      obtain ⟨hu, hw⟩ := not_isGoto_of_applyUnary happly
      refine ⟨⟨w, operands, rfl, hw⟩, ?_⟩
      intro v hv hgoto
      cases hv with
      | head => exact absurd hgoto hu
      | tail _ hmem => exact List.mem_cons_of_mem _ hmem
  · match operands, h with
    | right :: left :: operands, h =>
      obtain ⟨w, happly, rfl⟩ := exists_of_map_eq_ok h
      obtain ⟨hleft, hright, hw⟩ := not_isGoto_of_applyBinary happly
      refine ⟨⟨w, operands, rfl, hw⟩, ?_⟩
      intro v hv hgoto
      cases hv with
      | head => exact absurd hgoto hright
      | tail _ hmem =>
        cases hmem with
        | head => exact absurd hgoto hleft
        | tail _ hmem => exact List.mem_cons_of_mem _ hmem

/-- Reducing loses no jump. -/
theorem mem_reduceWhile {p : Op → Bool} {ops : List Op} {operands : List Value} {level : Level}
    (h : reduceWhile p ops operands = .ok level) {v : Value} (hgoto : v.IsGoto)
    (hv : v ∈ operands) : v ∈ level.operands := by
  induction ops generalizing operands with
  | nil =>
    cases h
    exact hv
  | cons op ops ih =>
    rw [reduceWhile] at h
    split at h
    · obtain ⟨rest, happly, hrest⟩ := exists_of_bind_eq_ok h
      exact ih hrest ((applyTo_cases happly).2 v hv hgoto)
    · cases h
      exact hv

/-- Reducing leaves a result on top that is no jump, if it starts with one. -/
theorem head_reduceWhile {p : Op → Bool} {ops : List Op} {operands : List Value} {level : Level}
    (h : reduceWhile p ops operands = .ok level)
    (hoperands : ∃ w others, operands = w :: others ∧ ¬w.IsGoto) :
    ∃ w others, level.operands = w :: others ∧ ¬w.IsGoto := by
  induction ops generalizing operands with
  | nil =>
    cases h
    exact hoperands
  | cons op ops ih =>
    rw [reduceWhile] at h
    split at h
    · obtain ⟨rest, happly, hrest⟩ := exists_of_bind_eq_ok h
      exact ih hrest (applyTo_cases happly).1
    · cases h
      exact hoperands

/-- A level that has a value and holds a jump holds nothing else. -/
theorem eq_singleton_of_flush {level : Level} {v w : Value} (h : level.flush = .ok w)
    (hgoto : v.IsGoto) (hv : v ∈ level.operands) :
    level = { operands := [v], operators := [] } ∧ w = v := by
  obtain ⟨reduced, hreduced, hvalue⟩ := exists_of_bind_eq_ok h
  have hmem := mem_reduceWhile hreduced hgoto hv
  have hoperands : reduced.operands = [w] := by
    split at hvalue
    · rename_i u hu
      cases hvalue
      exact hu
    · cases hvalue
    · cases hvalue
  rw [hoperands, List.mem_singleton] at hmem
  subst hmem
  obtain ⟨operands, operators⟩ := level
  cases operators with
  | nil =>
    cases hreduced
    cases hoperands
    exact ⟨rfl, rfl⟩
  | cons op ops =>
    -- the last operator that is applied puts its result on top, and that is no jump
    rw [reduceWhile_cons rfl] at hreduced
    obtain ⟨rest, happly, hrest⟩ := exists_of_bind_eq_ok hreduced
    obtain ⟨u, others, hu, hnot⟩ := head_reduceWhile hrest (applyTo_cases happly).1
    rw [hoperands] at hu
    cases hu
    exact absurd hgoto hnot

/-- Adding an operator loses no jump, and leaves the operator on the level. -/
theorem mem_pushOperator {level level' : Level} {op : Op} (h : level.pushOperator op = .ok level')
    {v : Value} (hgoto : v.IsGoto) (hv : v ∈ level.operands) : v ∈ level'.operands := by
  rw [pushOperator] at h
  split at h
  · cases h
    exact hv
  · obtain ⟨reduced, hreduced, rfl⟩ := exists_of_map_eq_ok h
    exact mem_reduceWhile hreduced hgoto hv

theorem operators_pushOperator {level level' : Level} {op : Op}
    (h : level.pushOperator op = .ok level') : level'.operators ≠ [] := by
  rw [pushOperator] at h
  split at h
  · cases h
    exact List.cons_ne_nil _ _
  · obtain ⟨reduced, -, rfl⟩ := exists_of_map_eq_ok h
    exact List.cons_ne_nil _ _

/-- A level that consists of a value that was added to it was empty before, and the value is that
one. -/
theorem eq_of_pushOperand_eq {level : Level} {v w : Value}
    (h : level.pushOperand w = { operands := [v], operators := [] }) : level = {} ∧ w = v := by
  obtain ⟨operands, operators⟩ := level
  cases h
  exact ⟨rfl, rfl⟩

/-- A value is still held when the innermost level has changed and has not lost it. -/
theorem exists_holding {level level' : Level} {outer : List Level} {v : Value}
    (hkeeps : v ∈ level.operands → v ∈ level'.operands)
    (h : ∃ l ∈ level :: outer, v ∈ l.operands) : ∃ l ∈ level' :: outer, v ∈ l.operands := by
  obtain ⟨l, hl, hv⟩ := h
  cases hl with
  | head => exact ⟨level', List.mem_cons_self, hkeeps hv⟩
  | tail _ hl => exact ⟨l, List.mem_cons_of_mem _ hl, hv⟩

/-- No value was held before one was added that now stands alone. -/
theorem not_holding_of_alone {level : Level} {outer : List Level} {u v w : Value}
    (halone : level.pushOperand u = { operands := [w], operators := [] })
    (houter : ∀ l ∈ outer, l = {}) : ¬∃ l ∈ level :: outer, v ∈ l.operands := by
  rintro ⟨l, hl, hv⟩
  obtain ⟨rfl, -⟩ := eq_of_pushOperand_eq halone
  have hempty : ∀ l ∈ ({} : Level) :: outer, l = {} := List.forall_mem_cons.mpr ⟨rfl, houter⟩
  rw [hempty l hl] at hv
  cases hv

end Level

/-! ### Arguments -/

/-- The built-in actions that answer to a jump among their arguments: for `exist` it is a value
like any other, and for `re_match` it is no string. -/
theorem Builtin.answer_of_goto {b : Builtin} {args : List Value} {w : Value}
    (h : b.run args = .ok w) (hgoto : ∃ v ∈ args, v.IsGoto) :
    b = .exist ∧ w = .bool true ∨ b = .reMatch ∧ w = .bool false := by
  obtain ⟨_, hmem, target, rfl⟩ := hgoto
  unfold run at h
  cases b with
  | exist =>
    dsimp only at h
    split at h
    · rw [List.mem_singleton] at hmem
      subst hmem
      cases h
      exact .inl ⟨rfl, rfl⟩
    · cases h
  | reMatch =>
    dsimp only at h
    split at h
    · simp at hmem
    · cases h
      exact .inr ⟨rfl, rfl⟩
    · cases h
  | numInRange =>
    dsimp only at h
    split at h
    · split at h
      · rename_i hx hlow hhigh
        simp only [List.mem_cons, List.not_mem_nil, or_false] at hmem
        obtain rfl | rfl | rfl := hmem
        · cases hx
        · cases hlow
        · cases hhigh
      · cases h
    · cases h
  | ipInNet =>
    dsimp only at h
    split at h
    · simp at hmem
    · cases h
    · cases h
  | goto =>
    dsimp only at h
    split at h
    · simp at hmem
    · cases h
    · cases h

/-! ### Tokens -/

section

variable {caller : Caller σ} {env : Environment}

/-- Evaluation that holds a jump on one of its levels can only succeed with the jump as its value:
nothing else is on any level, and only the parentheses that are open are closed. -/
theorem isWhole_of_holds {level : Level} {outer : List Level} {ts : List Token} {s s' : σ}
    {v w : Value} (h : (evaluateFrom caller env level outer ts).Gives s w s') (hgoto : v.IsGoto)
    (hholds : ∃ l ∈ level :: outer, v ∈ l.operands) :
    level = { operands := [v], operators := [] } ∧ (∀ l ∈ outer, l = {}) ∧
      ts = List.replicate outer.length .rightParen ∧ w = v := by
  induction ts generalizing level outer s with
  | nil =>
    obtain ⟨rfl, hflush⟩ := flush_of_gives h
    obtain ⟨l, hl, hv⟩ := hholds
    rw [List.mem_singleton] at hl
    subst hl
    obtain ⟨hlevel, rfl⟩ := Level.eq_singleton_of_flush hflush hgoto hv
    exact ⟨hlevel, List.forall_mem_nil _, rfl, rfl⟩
  | cons t ts ih =>
    obtain ⟨level', outer', s₁, hread, hrest⟩ := exists_readsTo_of_gives h
    cases hread with
    | opening =>
      obtain ⟨l, hl, hv⟩ := hholds
      obtain ⟨hlevel, -⟩ := ih hrest ⟨l, List.mem_cons_of_mem _ hl, hv⟩
      cases hlevel
    | @closing parent _ u houter hflush =>
      subst houter
      obtain ⟨l, hl, hv⟩ := hholds
      cases hl with
      | head =>
        obtain ⟨hlevel, rfl⟩ := Level.eq_singleton_of_flush hflush hgoto hv
        obtain ⟨hparent, hfurther, rfl, rfl⟩ :=
          ih hrest ⟨_, List.mem_cons_self, List.mem_cons_self⟩
        obtain ⟨rfl, -⟩ := Level.eq_of_pushOperand_eq hparent
        exact ⟨hlevel, List.forall_mem_cons.mpr ⟨rfl, hfurther⟩, rfl, rfl⟩
      | tail _ hl =>
        -- the value of the level would stand next to the jump
        have hbefore : ∃ l ∈ parent :: outer', v ∈ l.operands := ⟨l, hl, hv⟩
        obtain ⟨hparent, hfurther, -⟩ :=
          ih hrest (Level.exists_holding (List.mem_cons_of_mem _) hbefore)
        exact absurd hbefore (Level.not_holding_of_alone hparent hfurther)
    | operator hpush =>
      obtain ⟨rfl, -⟩ :=
        ih hrest (Level.exists_holding (Level.mem_pushOperator hpush hgoto) hholds)
      exact absurd rfl (Level.operators_pushOperator hpush)
    | operand ht hu =>
      obtain ⟨hlevel, houter, -⟩ :=
        ih hrest (Level.exists_holding (List.mem_cons_of_mem _) hholds)
      exact absurd hholds (Level.not_holding_of_alone hlevel houter)

/-- Only opening parentheses leave every level bare. -/
theorem eq_replicate_of_bare {level level' : Level} {outer outer' : List Level} {ts : List Token}
    {s s' : σ} (h : (readFrom caller env level outer ts).Gives s (level', outer') s')
    (hbare : ∀ l ∈ level' :: outer', l = {}) :
    (∀ l ∈ level :: outer, l = {}) ∧ ts = List.replicate ts.length .leftParen ∧
      outer'.length = outer.length + ts.length := by
  induction ts generalizing level outer s with
  | nil =>
    obtain ⟨h, -⟩ := Eval.gives_pure h
    cases h
    exact ⟨hbare, rfl, rfl⟩
  | cons t ts ih =>
    obtain ⟨⟨next, around⟩, s₁, hread, hrest⟩ := Eval.gives_bind h
    obtain ⟨hnext, hts, hlength⟩ := ih hrest
    obtain ⟨hlevel, -⟩ := List.forall_mem_cons.mp hnext
    cases readsTo_of_readToken hread with
    | opening =>
      refine ⟨fun l hl => hnext l (List.mem_cons_of_mem _ hl), ?_, ?_⟩
      · rw [List.length_cons, List.replicate_succ, ← hts]
      · rw [hlength, List.length_cons, List.length_cons]
        omega
    | closing houter hflush => cases hlevel
    | operator hpush =>
      subst hlevel
      exact absurd rfl (Level.operators_pushOperator hpush)
    | operand ht hv => cases hlevel

/-- An operand that is a jump is the whole of a sequence that has a value: there is nothing but
parentheses around it, and the value is the jump. Everywhere else a jump is an error. -/
theorem isWhole_of_goto {pre post : List Token} {t : Token} (ht : t.isOperand = true)
    {level : Level} {outer : List Level} {s s₁ s₂ s' : σ} {v w : Value}
    (hpre : (readFrom caller env {} [] pre).Gives s (level, outer) s₁)
    (hv : (t.eval caller env).Gives s₁ v s₂) (hgoto : v.IsGoto)
    (h : (evaluate caller env (pre ++ t :: post)).Gives s w s') :
    w = v ∧ ∃ depth, pre = List.replicate depth .leftParen ∧
      post = List.replicate depth .rightParen := by
  rw [evaluate, evaluateFrom_append] at h
  obtain ⟨read, r₁, hread, hrest⟩ := Eval.gives_bind h
  obtain ⟨rfl, rfl⟩ := hpre.unique hread
  rw [evaluateFrom_operand caller env ht] at hrest
  obtain ⟨u, r₂, hu, hpost⟩ := Eval.gives_bind hrest
  obtain ⟨rfl, rfl⟩ := hv.unique hu
  obtain ⟨hlevel, houter, rfl, rfl⟩ :=
    isWhole_of_holds hpost hgoto ⟨_, List.mem_cons_self, List.mem_cons_self⟩
  obtain ⟨rfl, -⟩ := Level.eq_of_pushOperand_eq hlevel
  obtain ⟨-, hopening, hlength⟩ :=
    eq_replicate_of_bare hpre (List.forall_mem_cons.mpr ⟨rfl, houter⟩)
  refine ⟨rfl, pre.length, hopening, ?_⟩
  rw [hlength, List.length_nil, Nat.zero_add]

end

end EventPipeline.Rules
