import EventPipeline.Rules.Environment

/-!
# `EventPipeline.Proofs.Rules.Scopes`: what bindings and scopes do to lookups

`Environment.lookup?_set` is what one binding does to the lookup of every plain name, whatever
scopes there are: the bound name has the new value, and all other names have what they had. Two
rules of the language limit this for `Environment.get?`, which reads dotted paths. `null` is not
stored, so binding it uncovers or removes nothing, and an older value of the name still shows
(`set_of_isNull`). A path is cut at its dots, so what is bound under a dotted name is not found by
any path (`get?_set_of_dot`). `get?_set_cases` puts the cases together, and
`null_and_dots_not_yielded` shows that the limits are needed.

An event is judged in scopes of its own, which are closed when it has been judged. `Change` is
what can happen to an environment, and `Environment.run` a sequence of changes. A `Bracket` opens a
scope and comes back to the depth at which it started only at its end. What lies under the scope is
not touched in between: `Above` says so of one environment and another, `Above.apply` keeps it step
by step, and `run_bracket` is the result for a whole bracket, with any nesting of scopes in it.
-/

set_option autoImplicit false

namespace EventPipeline.Rules.Environment

/-! ## Lookups after a binding -/

variable {env base : Environment} {name other path : String} {value : Value}

/-- `null` binds nothing and unbinds nothing. -/
theorem set_of_isNull (env : Environment) (name : String) (h : value.isNull = true) :
    env.set name value = env :=
  if_pos h

/-- A value that is stored is the innermost binding of its name, and no other name notices. -/
theorem lookup?_set (env : Environment) (name other : String) (h : value.isNull = false) :
    (env.set name value).lookup? other = if name = other then some value else env.lookup? other := by
  have hput (scope : Scope) :
      (scope.put name value).get? other = if name = other then some value else scope.get? other := by
    split
    · rename_i hname
      rw [← hname, Fields.get?_put_self]
    · rename_i hname
      exact Fields.get?_put_of_ne scope value hname
  obtain ⟨globals, scopes⟩ := env
  -- the binding goes to the innermost scope, or to the globals where there is none
  cases scopes with
  | nil => simpa [set, h, setGlobal, lookup?] using hput globals
  | cons inner outer =>
    simp only [set, h, lookup?, List.findSome?_cons, hput, Bool.false_eq_true, if_false]
    by_cases hname : name = other
    · simp [hname]
    · simp [hname]

/-- A name without a dot is a path of one segment. -/
theorem segments_of_not_mem (h : '.' ∉ name.toList) : segments name = [name] := by
  rw [segments, List.splitOn_eq_singleton h, List.map_singleton, String.ofList_toList]

/-- No piece of a list that is split at an element has the element. -/
theorem not_mem_of_mem_splitOn {c : Char} {cs piece : List Char} (h : piece ∈ cs.splitOn c) :
    c ∉ piece := by
  induction cs generalizing piece with
  | nil =>
    obtain rfl : piece = [] := by simpa using h
    exact List.not_mem_nil
  | cons d ds ih =>
    rw [List.splitOn_cons_eq_if_modifyHead] at h
    split at h
    · rcases List.mem_cons.mp h with rfl | h
      · exact List.not_mem_nil
      · exact ih h
    · rename_i hd
      -- only the first piece is longer than before, by an element that is no separator
      cases hpieces : ds.splitOn c with
      | nil => exact absurd hpieces (List.splitOn_ne_nil c ds)
      | cons first rest =>
        rw [hpieces] at h ih
        rcases List.mem_cons.mp h with rfl | h
        · have hfirst : c ∉ first := ih List.mem_cons_self
          have hne : c ≠ d := fun heq => hd (by simp [heq])
          simp [hne, hfirst]
        · exact ih (List.mem_cons_of_mem first h)

/-- The segments of a path have no dots. -/
theorem not_mem_of_mem_segments {segment : String} (h : segment ∈ segments path) :
    '.' ∉ segment.toList := by
  obtain ⟨piece, hpiece, rfl⟩ := List.mem_map.mp h
  rw [String.toList_ofList]
  exact not_mem_of_mem_splitOn hpiece

/-- A path is looked up by its first segment. -/
theorem get?_congr {later : Environment}
    (h : ∀ head ∈ (segments path).head?, later.lookup? head = env.lookup? head) :
    later.get? path = env.get? path := by
  unfold get?
  cases hsegments : segments path with
  | nil => rfl
  | cons head keys =>
    have hhead : later.lookup? head = env.lookup? head := h head (by simp [hsegments])
    simp only [hhead]

/-- A path that begins with another name has the value it had. -/
theorem get?_set_of_ne (env : Environment) (value : Value)
    (h : (segments path).head? ≠ some name) : (env.set name value).get? path = env.get? path := by
  cases hnull : value.isNull with
  | true => rw [set_of_isNull env name hnull]
  | false =>
    refine get?_congr fun head hhead => ?_
    have hne : name ≠ head := fun heq => h (heq ▸ hhead)
    rw [lookup?_set env name head hnull, if_neg hne]

/-- What is bound under a dotted name is found by no path. -/
theorem get?_set_of_dot (env : Environment) (value : Value) (path : String)
    (h : '.' ∈ name.toList) : (env.set name value).get? path = env.get? path := by
  refine get?_set_of_ne env value fun hhead => ?_
  exact not_mem_of_mem_segments (List.mem_of_head? hhead) h

/-- A value that is stored under a plain name is found by it. -/
theorem get?_set_self (env : Environment) (hnull : value.isNull = false)
    (hdot : '.' ∉ name.toList) : (env.set name value).get? name = some value := by
  simp [get?, segments_of_not_mem hdot, lookup?_set env name name hnull, descend?]

/-- A plain name yields the value that was bound to it last, whatever was bound before in this
scope, in an outer one or in the globals. `null` is the exception, since binding it changes nothing,
and so are dotted names, since no path finds them. Every path that begins with another name has the
value it had. -/
theorem get?_set_cases (env : Environment) (name : String) (value : Value) :
    (value.isNull = false → '.' ∉ name.toList → (env.set name value).get? name = some value) ∧
      (value.isNull = true → env.set name value = env) ∧
      ('.' ∈ name.toList → ∀ path, (env.set name value).get? path = env.get? path) ∧
      ∀ path, (segments path).head? ≠ some name →
        (env.set name value).get? path = env.get? path :=
  ⟨get?_set_self env, set_of_isNull env name, fun hdot path => get?_set_of_dot env value path hdot,
    fun _ hpath => get?_set_of_ne env value hpath⟩

/-- An environment in which `x` is bound in the globals and in two scopes, and `y` in one. -/
def shadowing : Environment where
  globals := [("x", .int 1)]
  scopes := [[("x", .int 3)], [("x", .int 2), ("y", .str "kept")]]

/-- A binding in the innermost scope of three that all have the name. -/
theorem get?_set_shadowing :
    ((.int 4 : Value).isNull = false ∧ '.' ∉ "x".toList ∧
        (shadowing.set "x" (.int 4)).get? "x" = some (.int 4)) ∧
      ((.null : Value).isNull = true ∧ shadowing.set "x" .null = shadowing) ∧
      ('.' ∈ "x.y".toList ∧ (shadowing.set "x.y" (.int 4)).get? "x.y" = shadowing.get? "x.y") ∧
      (segments "y").head? ≠ some "x" ∧
        (shadowing.set "x" (.int 4)).get? "y" = shadowing.get? "y" := by
  have hplain : '.' ∉ "x".toList := by decide
  have hdotted : '.' ∈ "x.y".toList := by decide
  have hother : (segments "y").head? ≠ some "x" := by
    rw [segments_of_not_mem (by decide)]
    decide
  exact ⟨⟨rfl, hplain, (get?_set_cases shadowing "x" (.int 4)).1 rfl hplain⟩,
    ⟨rfl, (get?_set_cases shadowing "x" .null).2.1 rfl⟩,
    ⟨hdotted, (get?_set_cases shadowing "x.y" (.int 4)).2.2.1 hdotted "x.y"⟩,
    hother, (get?_set_cases shadowing "x" (.int 4)).2.2.2 "y" hother⟩

/-- After `null` is bound to a name its older value is still found, and a value bound to a dotted
name is not found. -/
theorem null_and_dots_not_yielded :
    (shadowing.set "x" .null).get? "x" ≠ none ∧
      (shadowing.set "x.y" (.int 4)).get? "x.y" ≠ some (.int 4) := by
  have hplain : shadowing.get? "x" = some (.int 3) := by
    rw [get?, segments_of_not_mem (by decide)]
    rfl
  have hdotted : shadowing.get? "x.y" = none := by
    rw [get?, show segments "x.y" = ["x", "y"] from by decide]
    rfl
  rw [set_of_isNull shadowing "x" rfl, hplain, get?_set_of_dot shadowing (.int 4) "x.y" (by decide),
    hdotted]
  exact ⟨nofun, nofun⟩

/-! ## Scopes that are opened and closed again -/

/-- What can happen to an environment. -/
inductive Change where
  | push
  | pop
  | set (name : String) (value : Value)
  | setGlobal (name : String) (value : Value)
  | clearGlobal (name : String)

/-- The change is about scopes: it opens or closes one, or binds a name in the innermost one. -/
def Change.isScoped : Change → Bool
  | push | pop | set .. => true
  | setGlobal .. | clearGlobal _ => false

/-- An environment after a change. -/
def apply (env : Environment) : Change → Environment
  | .push => env.push
  | .pop => env.pop.2
  | .set name value => env.set name value
  | .setGlobal name value => env.setGlobal name value
  | .clearGlobal name => env.clearGlobal name

/-- An environment after changes, in their order. -/
def run (env : Environment) (changes : List Change) : Environment :=
  changes.foldl apply env

/-- The changes open a scope and come back to the depth at which they began only at their end. In
between, scopes are opened and closed and names are bound, in any order. -/
structure Bracket (env : Environment) (changes : List Change) : Prop where
  opens : changes.head? = some .push
  kinds : ∀ change ∈ changes, change.isScoped = true
  inside : ∀ n < changes.length, 0 < n → env.depth < (env.run (changes.take n)).depth
  back : (env.run changes).depth = env.depth

/-- The scopes of an environment lie under those of another one, over the same globals. -/
structure Above (base env : Environment) : Prop where
  globals : env.globals = base.globals
  scopes : base.scopes <:+ env.scopes

/-- Every environment lies under what a push makes of it. -/
theorem above_push (env : Environment) : Above env env.push :=
  ⟨rfl, List.suffix_cons [] env.scopes⟩

/-- At the same depth there is nothing above an environment but itself. -/
theorem Above.eq_of_depth (h : Above base env) (hdepth : env.depth = base.depth) : env = base := by
  have hlength : base.scopes.length = env.scopes.length := by
    simpa [depth] using hdepth.symm
  obtain ⟨globals, scopes⟩ := env
  obtain ⟨hglobals, hscopes⟩ := h
  simp only at hglobals hscopes hlength
  rw [hglobals, ← hscopes.eq_of_length hlength]

/-- While a scope is open above an environment, a change is made in it or above it. -/
theorem Above.apply {change : Change} (h : Above base env) (hdepth : base.depth < env.depth)
    (hscoped : change.isScoped = true) : Above base (env.apply change) := by
  obtain ⟨globals, scopes⟩ := env
  obtain ⟨hglobals, hscopes⟩ := h
  have hlength : base.scopes.length < scopes.length := by simpa [depth] using hdepth
  cases scopes with
  | nil => simp at hlength
  | cons inner outer =>
    -- the innermost scope is none of those below
    have houter : base.scopes <:+ outer := by
      rcases List.suffix_cons_iff.mp hscopes with heq | houter
      · exact absurd (congrArg List.length heq) (Nat.ne_of_lt hlength)
      · exact houter
    cases change with
    | push => exact ⟨hglobals, hscopes.trans (List.suffix_cons [] _)⟩
    | pop => exact ⟨hglobals, houter⟩
    | set name value =>
      show Above base (Environment.set _ name value)
      unfold Environment.set
      split
      · exact ⟨hglobals, hscopes⟩
      · exact ⟨hglobals, houter.trans (List.suffix_cons _ outer)⟩
    | setGlobal | clearGlobal => cases hscoped

/-- Changes that leave a scope open above an environment until their end do not touch it. -/
theorem Above.run {changes : List Change} (h : Above base env)
    (hscoped : ∀ change ∈ changes, change.isScoped = true)
    (hinside : ∀ n < changes.length, base.depth < (env.run (changes.take n)).depth) :
    Above base (env.run changes) := by
  induction changes generalizing env with
  | nil => exact h
  | cons change changes ih =>
    have hnow : base.depth < env.depth := hinside 0 (Nat.succ_pos _)
    refine ih (h.apply hnow (hscoped change List.mem_cons_self))
      (fun later hlater => hscoped later (List.mem_cons_of_mem change hlater)) fun n hn => ?_
    exact hinside (n + 1) (Nat.succ_lt_succ hn)

/-- After a bracket the environment is the one from before. -/
theorem Bracket.run_eq {changes : List Change} (h : Bracket env changes) :
    env.run changes = env := by
  obtain ⟨hopens, hscoped, hinside, hback⟩ := h
  obtain ⟨rest, rfl⟩ := List.head?_eq_some_iff.mp hopens
  have habove : Above env (env.push.run rest) := by
    refine (above_push env).run (fun change hchange => ?_) fun n hn => ?_
    · exact hscoped change (List.mem_cons_of_mem _ hchange)
    · exact hinside (n + 1) (Nat.succ_lt_succ hn) (Nat.succ_pos n)
  exact habove.eq_of_depth hback

/-- A bracket leaves every lookup, the globals and the depth as they were. Whatever happens to an
environment, it has at least the global scope. -/
theorem run_bracket (env : Environment) :
    (∀ changes, Bracket env changes →
      (∀ path, (env.run changes).get? path = env.get? path) ∧
        (env.run changes).globals = env.globals ∧ (env.run changes).depth = env.depth) ∧
      ∀ changes, 1 ≤ (env.run changes).depth := by
  constructor
  · intro changes hbracket
    rw [hbracket.run_eq]
    exact ⟨fun _ => rfl, rfl, rfl⟩
  · intro changes
    exact Nat.succ_pos _

/-- Two scopes are opened one in the other, and both rebind a name from below. -/
theorem run_bracket_nested :
    Bracket shadowing [.push, .set "x" (.int 5), .push, .set "y" .null, .set "x" (.int 6), .pop,
        .set "z" (.int 7), .pop] ∧
      (shadowing.run [.push, .set "x" (.int 5), .push, .set "y" .null, .set "x" (.int 6), .pop,
        .set "z" (.int 7), .pop]).get? "x" = shadowing.get? "x" := by
  have hbracket : Bracket shadowing [.push, .set "x" (.int 5), .push, .set "y" .null,
      .set "x" (.int 6), .pop, .set "z" (.int 7), .pop] := by
    refine ⟨rfl, by simp [Change.isScoped], ?_, by decide⟩
    decide
  exact ⟨hbracket, ((run_bracket shadowing).1 _ hbracket).1 "x"⟩

end EventPipeline.Rules.Environment
