import EventPipeline.Proofs.Rules.Reading

/-!
# `EventPipeline.Proofs.Rules.Counting`: what a token sequence with a value looks like

Evaluation keeps operands and operators on two stacks and forgets which stood in front of which.
What it can still tell is how many there are. `wellCounted` is that test, made on the tokens alone:
every parenthesis is matched, and on each nesting level there is one operand more than there are
operators between two operands. The theorems:

* `wellCounted_or_error`: only well-counted sequences have a value, whatever the environment is
  and whatever the actions do. What one token does to the count of its level is what it does to
  the stacks, and reducing never changes the count.
* `wellCounted_of_spelled`: the tokens of an expression are well-counted.

The two do not meet: `1 2 +` is well-counted, and it has a value though it spells no expression.
-/

set_option autoImplicit false

namespace EventPipeline.Rules

variable {σ : Type}

/-! ### The counts -/

/-- How many of the values on its level an operator uses up for good. -/
def Op.uses (op : Op) : Int :=
  if op.isUnary then 0 else 1

/-- The tokens that follow are well-counted. `count` is the number of operands so far on the level,
less what the operators so far use up, and `outer` are the counts on the levels around it. -/
def wellCountedFrom (count : Int) (outer : List Int) : List Token → Bool
  | [] => outer.isEmpty && count = 1
  | .leftParen :: ts => wellCountedFrom 0 (count :: outer) ts
  | .rightParen :: ts =>
    match outer with
    | [] => false
    | parent :: further => count = 1 && wellCountedFrom (parent + 1) further ts
  | .operator op :: ts => wellCountedFrom (count - op.uses) outer ts
  | _ :: ts => wellCountedFrom (count + 1) outer ts

/-- Every parenthesis is matched, and on each level there is one operand more than there are
operators between operands. -/
def wellCounted (ts : List Token) : Bool :=
  wellCountedFrom 0 [] ts

theorem wellCountedFrom_operand {t : Token} (h : t.isOperand) (count : Int) (outer : List Int)
    (ts : List Token) :
    wellCountedFrom count outer (t :: ts) = wellCountedFrom (count + 1) outer ts := by
  cases t <;> first | rfl | cases h

namespace Level

/-- The values that are left on the level when the operators that are kept back are applied. -/
def count (level : Level) : Int :=
  level.operands.length - level.operators.countP (!·.isUnary)

@[simp] theorem count_pushOperand (level : Level) (v : Value) :
    (level.pushOperand v).count = level.count + 1 := by
  simp only [count, pushOperand, List.length_cons]
  omega

theorem count_cons (operands : List Value) (op : Op) (ops : List Op) :
    count { operands := operands, operators := op :: ops } =
      count { operands := operands, operators := ops } - op.uses := by
  simp only [count, List.countP_cons, Op.uses]
  cases op.isUnary <;> simp <;> omega

/-- Applying an operator uses up what it says. -/
theorem length_applyTo {op : Op} {operands rest : List Value}
    (h : applyTo op operands = .ok rest) : (rest.length : Int) = operands.length - op.uses := by
  unfold applyTo at h
  rw [Op.uses]
  split at h
  · rename_i hunary
    rw [if_pos hunary]
    cases operands with
    | nil => cases h
    | cons v operands =>
      obtain ⟨w, -, rfl⟩ := exists_of_map_eq_ok h
      simp
  · rename_i hbinary
    rw [if_neg hbinary]
    match operands, h with
    | right :: left :: operands, h =>
      obtain ⟨w, -, rfl⟩ := exists_of_map_eq_ok h
      simp

/-- Reducing does not change the count. -/
theorem count_reduceWhile {p : Op → Bool} {ops : List Op} {operands : List Value} {level : Level}
    (h : reduceWhile p ops operands = .ok level) :
    level.count = count { operands := operands, operators := ops } := by
  induction ops generalizing operands with
  | nil =>
    cases h
    rfl
  | cons op ops ih =>
    rw [reduceWhile] at h
    split at h
    · obtain ⟨rest, happly, hrest⟩ := exists_of_bind_eq_ok h
      have hlength := length_applyTo happly
      rw [ih hrest, count_cons, count, count]
      dsimp only
      omega
    · cases h
      rfl

/-- An operator lowers the count by what it is going to use up, whatever it makes the level
reduce. -/
theorem count_pushOperator {level level' : Level} {op : Op}
    (h : level.pushOperator op = .ok level') : level'.count = level.count - op.uses := by
  rw [pushOperator] at h
  split at h
  · cases h
    exact count_cons level.operands op level.operators
  · obtain ⟨reduced, hreduced, rfl⟩ := exists_of_map_eq_ok h
    rw [count_cons, ← count_reduceWhile hreduced]

/-- Nothing is kept back when everything has been reduced. -/
theorem operators_reduceWhile {ops : List Op} {operands : List Value} {level : Level}
    (h : reduceWhile (fun _ => true) ops operands = .ok level) : level.operators = [] := by
  induction ops generalizing operands with
  | nil =>
    cases h
    rfl
  | cons op ops ih =>
    rw [reduceWhile_cons rfl] at h
    obtain ⟨rest, -, hrest⟩ := exists_of_bind_eq_ok h
    exact ih hrest

/-- A level with a value counts one. -/
theorem count_of_flush {level : Level} {v : Value} (h : level.flush = .ok v) : level.count = 1 := by
  obtain ⟨reduced, hreduced, hvalue⟩ := exists_of_bind_eq_ok h
  have hops := operators_reduceWhile hreduced
  have hcount := count_reduceWhile hreduced
  obtain ⟨operands, operators⟩ := reduced
  subst hops
  match operands, hvalue with
  | [w], _ => exact hcount.symm

end Level

section

variable (caller : Caller σ) (env : Environment)

/-- Tokens that have a value where they stand are well-counted there. -/
theorem wellCountedFrom_of_gives {level : Level} {outer : List Level} {ts : List Token}
    {s s' : σ} {v : Value} (h : (evaluateFrom caller env level outer ts).Gives s v s') :
    wellCountedFrom level.count (outer.map Level.count) ts = true := by
  induction ts generalizing level outer s with
  | nil =>
    obtain ⟨rfl, hflush⟩ := flush_of_gives h
    rw [List.map_nil, wellCountedFrom, Level.count_of_flush hflush]
    rfl
  | cons t ts ih =>
    obtain ⟨level', outer', s₁, hread, hrest⟩ := exists_readsTo_of_gives h
    have hcounted := ih hrest
    cases hread with
    | opening => exact hcounted
    | closing houter hflush =>
      subst houter
      rw [Level.count_pushOperand] at hcounted
      rw [List.map_cons, wellCountedFrom, Level.count_of_flush hflush, hcounted]
      rfl
    | operator hpush =>
      rw [Level.count_pushOperator hpush] at hcounted
      exact hcounted
    | operand ht _ =>
      rw [Level.count_pushOperand] at hcounted
      rw [wellCountedFrom_operand ht]
      exact hcounted

/-- Only well-counted tokens have a value. All others give an error, whatever the environment
holds and whatever the actions do. -/
theorem wellCounted_or_error (ts : List Token) (s : σ) :
    wellCounted ts = true ∨ ∃ e s', (evaluate caller env ts).run s = (.error e, s') := by
  rcases hrun : (evaluate caller env ts).run s with ⟨e | v, s'⟩
  · exact .inr ⟨e, s', rfl⟩
  · exact .inl (wellCountedFrom_of_gives caller env hrun)

end

/-! ### Expressions -/

/-- A written expression counts as one operand. -/
theorem wellCountedFrom_spelled {floor : Nat} {e : Expr} {ts : List Token} (h : e.Spelled floor ts)
    (count : Int) (outer : List Int) (rest : List Token) :
    wellCountedFrom count outer (ts ++ rest) = wellCountedFrom (count + 1) outer rest := by
  induction h generalizing count outer rest with
  | @operand _ t isOperand => exact wellCountedFrom_operand isOperand count outer rest
  | not _ _ ih =>
    rw [List.cons_append, wellCountedFrom, ih]
    show wellCountedFrom (count - 0 + 1) outer rest = _
    rw [Int.sub_zero]
  | @binary _ op isBinary _ _ _ _ _ _ _ ihl ihr =>
    rw [List.append_assoc, List.cons_append, ihl, wellCountedFrom, ihr, Op.uses,
      Op.isUnary_of_isBinary isBinary]
    show wellCountedFrom (count + 1 - 1 + 1) outer rest = _
    rw [Int.sub_add_cancel]
  | parens _ ih =>
    rw [List.cons_append, List.cons_append, List.append_assoc, wellCountedFrom, ih,
      List.singleton_append, wellCountedFrom]
    rfl

/-- The tokens of an expression are well-counted. -/
theorem wellCounted_of_spelled {e : Expr} {ts : List Token} (h : e.Spelled 0 ts) :
    wellCounted ts = true := by
  have hcount := wellCountedFrom_spelled h 0 [] []
  rw [List.append_nil] at hcount
  rw [wellCounted, hcount]
  rfl

/-- The count cannot tell an operator behind its operands from one between them. -/
example :
    wellCounted [.integer 1, .integer 2, .operator .add] = true ∧
      ((evaluate Actions.call {} [.integer 1, .integer 2, .operator .add]).run {}).1 =
        .ok (.int 3) :=
  ⟨by decide, rfl⟩

end EventPipeline.Rules
