import EventPipeline.Proofs.Rules.Precedence

/-!
# `EventPipeline.Proofs.Rules.Reading`: one token of an evaluation

`evaluateFrom` reads the tokens from the left. What it has read is in the levels: the one that is
open, and those around it. `readToken` is what one token does to them; `readToken_cases` says once
everything that it can do, and `evaluateFrom_append` splits an evaluation where one likes.
-/

set_option autoImplicit false

namespace EventPipeline.Rules

variable {σ : Type}

/-! ### Evaluations that succeed -/

/-- The evaluation has the value in a state, and leaves another state behind. -/
def Eval.Gives {α : Type} (eval : Eval σ α) (s : σ) (a : α) (s' : σ) : Prop :=
  eval.run s = (.ok a, s')

namespace Eval

variable {α β : Type} {s s' : σ}

theorem gives_pure {a b : α} (h : Gives (pure a : Eval σ α) s b s') : a = b ∧ s = s' := by
  cases h
  exact ⟨rfl, rfl⟩

theorem not_gives_throw {e : EvalError} {a : α} : ¬Gives (throw e : Eval σ α) s a s' := by
  intro h
  cases h

theorem gives_ofExcept {x : Except EvalError α} {a : α} (h : (ofExcept x).Gives s a s') :
    x = .ok a ∧ s = s' := by
  cases h
  exact ⟨rfl, rfl⟩

/-- Both steps of an evaluation that succeeds do. -/
theorem gives_bind {x : Eval σ α} {f : α → Eval σ β} {b : β} (h : (x >>= f).Gives s b s') :
    ∃ a t, x.Gives s a t ∧ (f a).Gives t b s' := by
  change ExceptT.bindCont f (x.run s).1 (x.run s).2 = _ at h
  rcases hx : x.run s with ⟨_ | a, t⟩
  · rw [hx] at h
    cases h
  · rw [hx] at h
    exact ⟨a, t, hx, h⟩

/-- An evaluation gives one value only. -/
theorem Gives.unique {x : Eval σ α} {a b : α} {t : σ} (ha : x.Gives s a s') (hb : x.Gives s b t) :
    a = b ∧ s' = t := by
  have h := ha.symm.trans hb
  cases h
  exact ⟨rfl, rfl⟩

end Eval

/-- A changed result comes from a result. -/
theorem exists_of_map_eq_ok {ε α β : Type} {x : Except ε α} {f : α → β} {b : β}
    (h : x.map f = .ok b) : ∃ a, x = .ok a ∧ f a = b := by
  cases x with
  | error e => cases h
  | ok a =>
    cases h
    exact ⟨a, rfl, rfl⟩

/-- A result that depends on another one comes from both. -/
theorem exists_of_bind_eq_ok {ε α β : Type} {x : Except ε α} {f : α → Except ε β} {b : β}
    (h : x.bind f = .ok b) : ∃ a, x = .ok a ∧ f a = .ok b := by
  cases x with
  | error e => cases h
  | ok a => exact ⟨a, rfl, h⟩

/-! ### One token -/

section

variable (caller : Caller σ) (env : Environment)

/-- What a token does to the open level and the levels around it. -/
def readToken (level : Level) (outer : List Level) : Token → Eval σ (Level × List Level)
  | .leftParen => pure ({}, level :: outer)
  | .rightParen =>
    match outer with
    | [] => throw (unbalanced "unexpected ')'")
    | parent :: further => do
      let v ← Eval.ofExcept level.flush
      pure (parent.pushOperand v, further)
  | .operator op => do
    let level ← Eval.ofExcept (level.pushOperator op)
    pure (level, outer)
  | t => do
    let v ← t.eval caller env
    pure (level.pushOperand v, outer)

theorem evaluateFrom_cons (level : Level) (outer : List Level) (t : Token) (ts : List Token) :
    evaluateFrom caller env level outer (t :: ts) =
      readToken caller env level outer t >>= fun read =>
        evaluateFrom caller env read.1 read.2 ts := by
  cases t with
  | leftParen => rfl
  | rightParen => cases outer <;> simp only [evaluateFrom, readToken, bind_assoc, pure_bind] <;> rfl
  | _ => simp only [evaluateFrom, readToken, bind_assoc, pure_bind]

/-- Reads tokens, up to the levels they lead to. -/
def readFrom (level : Level) (outer : List Level) : List Token → Eval σ (Level × List Level)
  | [] => pure (level, outer)
  | t :: ts => do
    let read ← readToken caller env level outer t
    readFrom read.1 read.2 ts

/-- Evaluating some tokens and then others. -/
theorem evaluateFrom_append (level : Level) (outer : List Level) (pre post : List Token) :
    evaluateFrom caller env level outer (pre ++ post) =
      readFrom caller env level outer pre >>= fun read =>
        evaluateFrom caller env read.1 read.2 post := by
  induction pre generalizing level outer with
  | nil => rw [List.nil_append, readFrom, pure_bind]
  | cons t pre ih => simp only [List.cons_append, evaluateFrom_cons, readFrom, bind_assoc, ih]

/-- Everything that a token can do to the open level and the levels around it. -/
inductive ReadsTo (level : Level) (outer : List Level) (s : σ) :
    Token → Level → List Level → σ → Prop where
  | opening : ReadsTo level outer s .leftParen {} (level :: outer) s
  | closing {parent : Level} {further : List Level} {v : Value} (houter : outer = parent :: further)
    (hflush : level.flush = .ok v) :
    ReadsTo level outer s .rightParen (parent.pushOperand v) further s
  | operator {op : Op} {level' : Level} (hpush : level.pushOperator op = .ok level') :
    ReadsTo level outer s (.operator op) level' outer s
  | operand {t : Token} {v : Value} {s' : σ} (ht : t.isOperand = true)
    (hv : (t.eval caller env).Gives s v s') :
    ReadsTo level outer s t (level.pushOperand v) outer s'

variable {caller env} {level level' : Level} {outer outer' : List Level} {s s' : σ}

theorem readsTo_of_readToken {t : Token}
    (h : (readToken caller env level outer t).Gives s (level', outer') s') :
    ReadsTo caller env level outer s t level' outer' s' := by
  cases t with
  | leftParen =>
    cases h
    exact .opening
  | rightParen =>
    cases outer with
    | nil => exact absurd h Eval.not_gives_throw
    | cons parent further =>
      obtain ⟨v, s₁, hv, hrest⟩ := Eval.gives_bind h
      obtain ⟨hflush, rfl⟩ := Eval.gives_ofExcept hv
      cases hrest
      exact .closing rfl hflush
  | operator op =>
    obtain ⟨next, s₁, hnext, hrest⟩ := Eval.gives_bind h
    obtain ⟨hpush, rfl⟩ := Eval.gives_ofExcept hnext
    cases hrest
    exact .operator hpush
  | _ =>
    obtain ⟨v, s₁, hv, hrest⟩ := Eval.gives_bind h
    cases hrest
    exact .operand rfl hv

/-- An evaluation that succeeds, up to behind its first token. -/
theorem exists_readsTo_of_gives {t : Token} {ts : List Token} {v : Value}
    (h : (evaluateFrom caller env level outer (t :: ts)).Gives s v s') :
    ∃ level' outer' s₁, ReadsTo caller env level outer s t level' outer' s₁ ∧
      (evaluateFrom caller env level' outer' ts).Gives s₁ v s' := by
  rw [evaluateFrom_cons] at h
  obtain ⟨⟨level', outer'⟩, s₁, hread, hrest⟩ := Eval.gives_bind h
  exact ⟨level', outer', s₁, readsTo_of_readToken hread, hrest⟩

/-- An evaluation that succeeds at the end of the tokens. -/
theorem flush_of_gives {v : Value} (h : (evaluateFrom caller env level outer []).Gives s v s') :
    outer = [] ∧ level.flush = .ok v := by
  cases outer with
  | nil => exact ⟨rfl, (Eval.gives_ofExcept h).1⟩
  | cons parent further => exact absurd h Eval.not_gives_throw

end

end EventPipeline.Rules
