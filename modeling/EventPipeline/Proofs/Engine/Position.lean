import EventPipeline.Proofs.Engine.Workers

/-!
# `EventPipeline.Proofs.Engine.Position`: how far a start or a stop has come

A stream is started and stopped by one thread, one part after the other: the units from the
tail to the head, then the sources; and the sources, then the units from the head to the
tail. A position says how far this has come, and with it the phase of every unit and every
source.

Two facts about the order of phases carry the proofs: as long as some unit was not started,
no source was (`source_of_unstarted`), and once some unit begins to stop, all sources and
the units of all nodes before it have come to their end (`source_of_stopping`,
`phase_of_stopping`).

`Leads` says from which position to which one a task of the main thread leads when it
succeeds, and `Plan` the same of an agenda.
-/

set_option autoImplicit false

namespace EventPipeline

/-- The phase of a unit. -/
inductive Phase where
  | fresh
  /-- it was started, and its worker is not known to be ready -/
  | launching
  | up
  /-- it is done with its events, and gets no more -/
  | idle
  | stopped
deriving DecidableEq

/-- The phase of a source. -/
inductive SourcePhase where
  | absent
  /-- it has a thread, which its trigger is not or not any more responsible for -/
  | launched (thread : Nat)
  | registered
deriving DecidableEq

/-- What the outline of a unit shows in a phase. -/
def Phase.Holds (unit : UnitOutline) : Phase → Prop
  | fresh => unit.signs.queued = true →
    unit.signs.alive = false ∧ unit.signs.ready = false ∧ unit.signs.dismissed = false
  | launching => unit.signs.queued = true ∧ unit.signs.connected = true ∧
    unit.signs.dismissed = false ∧ (unit.signs.ready = true → unit.signs.alive = true)
  | up => unit.signs.accepting = true ∧ (unit.signs.queued = true →
    unit.signs.connected = true ∧ unit.signs.dismissed = false ∧ unit.signs.alive = true)
  | idle => unit.signs.queued = true ∧ unit.received = unit.finished
  | stopped => unit.signs.queued = true →
    unit.signs.alive = false ∧ unit.received = unit.finished

/-- How far the main thread has come with starting or stopping a stream. -/
inductive Position where
  /-- so many processors are not started, but the units of the last of them before the given
  one are, and that one may be launching -/
  | rising (processors unit : Nat) (launching : Bool)
  /-- all units are up, and so are the sources of all triggers before the given one and its
  sources before the given one, which may be launched on a thread -/
  | opening (trigger source : Nat) (thread : Option Nat)
  | running
  /-- the sources of all triggers before the given one have ended and so have its sources
  before the given one, which may still be on a thread -/
  | closing (trigger source : Nat) (thread : Option Nat)
  /-- all sources have ended, and the units of all processors before the given one are
  stopped and so are its units before the given one, which may be idle -/
  | falling (processor unit : Nat) (idle : Bool)

namespace Position

/-- The phase of a unit at a position. -/
def phase : Position → Nat → Nat → Phase
  | rising p u launching, n, v =>
    if p ≤ n then .up
    else if n + 1 = p ∧ v < u then .up
    else if n + 1 = p ∧ v = u ∧ launching then .launching
    else .fresh
  | opening .., _, _ | running, _, _ | closing .., _, _ => .up
  | falling m u idle, n, v =>
    if n < m then .stopped
    else if n = m ∧ v < u then .stopped
    else if n = m ∧ v = u ∧ idle then .idle
    else .up

/-- The phase of a source at a position. -/
def source : Position → Nat → Nat → SourcePhase
  | rising .., _, _ | falling .., _, _ => .absent
  | opening t v thread, s, r =>
    if s < t ∨ s = t ∧ r < v then .registered
    else if s = t ∧ r = v then thread.elim .absent .launched
    else .absent
  | running, _, _ => .registered
  | closing t v thread, s, r =>
    if s < t ∨ s = t ∧ r < v then .absent
    else if s = t ∧ r = v then thread.elim .registered .launched
    else .registered

/-- The stream counts as running at a position. -/
def isRunning : Position → Bool
  | running => true
  | _ => false

variable {position : Position} {n u : Nat}

/-- As long as some unit was not started, no source was. -/
theorem source_of_unstarted
    (h : position.phase n u = .fresh ∨ position.phase n u = .launching) (t v : Nat) :
    position.source t v = .absent := by
  cases position with
  | rising => rfl
  | falling => rfl
  | opening | running | closing => simp [phase] at h

/-- Once some unit begins to stop, all sources have ended. -/
theorem source_of_stopping
    (h : position.phase n u = .idle ∨ position.phase n u = .stopped) (t v : Nat) :
    position.source t v = .absent := by
  cases position with
  | rising => rfl
  | falling => rfl
  | opening | running | closing => simp [phase] at h

/-- Once some unit begins to stop, the units of all nodes before its own are stopped. -/
theorem phase_of_stopping
    (h : position.phase n u = .idle ∨ position.phase n u = .stopped) {m : Nat} (hmn : m < n)
    (v : Nat) : position.phase m v = .stopped := by
  cases position with
  | rising p w launching =>
    simp only [phase] at h
    split_ifs at h <;> simp at h
  | opening | running | closing => simp [phase] at h
  | falling k w idle =>
    have hmk : m < k := by
      by_contra hk
      simp only [phase] at h
      split_ifs at h <;> first | omega | simp at h
    simp [phase, hmk]

/-! ### From one place to the next one -/

section

variable (n u t v : Nat)

@[simp] theorem phase_rising (launching : Bool) :
    (rising (n + 1) u launching).phase n u = if launching then .launching else .fresh := by
  have : ¬ n + 1 ≤ n := by omega
  simp [phase, this]

@[simp] theorem phase_risen : (rising (n + 1) (u + 1) false).phase n u = .up := by
  simp [phase]

/-- The other units stay in their phases while one is started. -/
theorem phase_rising_ne {n u m w : Nat} (launching : Bool) (h : ¬ (n = m ∧ u = w)) :
    (rising (n + 1) u launching).phase m w = (rising (n + 1) (u + 1) false).phase m w := by
  simp only [phase, Bool.false_eq_true, and_false, if_false]
  split_ifs <;> first | rfl | omega

@[simp] theorem phase_falling (idle : Bool) :
    (falling n u idle).phase n u = if idle then .idle else .up := by
  simp [phase]

@[simp] theorem phase_fallen : (falling n (u + 1) false).phase n u = .stopped := by
  simp [phase]

/-- The other units stay in their phases while one is stopped. -/
theorem phase_falling_ne {n u m w : Nat} (idle : Bool) (h : ¬ (n = m ∧ u = w)) :
    (falling n u idle).phase m w = (falling n (u + 1) false).phase m w := by
  simp only [phase, Bool.false_eq_true, and_false, if_false]
  split_ifs <;> first | rfl | omega

@[simp] theorem source_opening (thread : Option Nat) :
    (opening t v thread).source t v = thread.elim .absent .launched := by
  simp [source]

@[simp] theorem source_opened : (opening t (v + 1) none).source t v = .registered := by
  simp [source]

/-- The other sources stay in their phases while one is started. -/
theorem source_opening_ne {t v s r : Nat} (thread : Option Nat) (h : ¬ (t = s ∧ v = r)) :
    (opening t v thread).source s r = (opening t (v + 1) none).source s r := by
  simp only [source]
  split_ifs <;> first | rfl | omega

@[simp] theorem source_closing (thread : Option Nat) :
    (closing t v thread).source t v = thread.elim .registered .launched := by
  simp [source]

@[simp] theorem source_closed : (closing t (v + 1) none).source t v = .absent := by
  simp [source]

/-- The other sources stay in their phases while one is stopped. -/
theorem source_closing_ne {t v s r : Nat} (thread : Option Nat) (h : ¬ (t = s ∧ v = r)) :
    (closing t v thread).source s r = (closing t (v + 1) none).source s r := by
  simp only [source]
  split_ifs <;> first | rfl | omega

end

end Position

/-! ## Positions that are the same in a layout -/

/-- All units and sources that exist are in the same phase. -/
structure Position.Same (L : Layout) (a b : Position) : Prop where
  phase : ∀ n u, u < L.units n → a.phase n u = b.phase n u
  source : ∀ t v, v < L.sources t → a.source t v = b.source t v
  isRunning : a.isRunning = b.isRunning

namespace Position.Same

variable {L : Layout} {a b c : Position}

theorem refl : Same L a a := ⟨fun _ _ _ => rfl, fun _ _ _ => rfl, rfl⟩

theorem trans (h : Same L a b) (h' : Same L b c) : Same L a c :=
  ⟨fun n u hu => (h.phase n u hu).trans (h'.phase n u hu),
    fun t v hv => (h.source t v hv).trans (h'.source t v hv), h.isRunning.trans h'.isRunning⟩

/-- A node all of whose units are started. -/
theorem risen {n u : Nat} (hu : L.units n ≤ u) :
    Same L (rising (n + 1) u false) (rising n 0 false) := by
  refine ⟨fun m v hv => ?_, fun _ _ _ => rfl, rfl⟩
  simp only [Position.phase, Bool.false_eq_true, and_false, if_false]
  by_cases hmn : m = n
  · subst hmn
    have : v < u := by omega
    simp [this]
  · split_ifs <;> first | rfl | omega

/-- All processors are started. -/
theorem opened : Same L (rising 0 0 false) (opening 0 0 none) := by
  refine ⟨fun m v _ => ?_, fun t v _ => ?_, rfl⟩
  · simp [Position.phase]
  · simp [Position.source]

/-- A trigger all of whose sources are started. -/
theorem fed {t v : Nat} (hv : L.sources t ≤ v) :
    Same L (opening t v none) (opening (t + 1) 0 none) := by
  refine ⟨fun _ _ _ => rfl, fun s r hr => ?_, rfl⟩
  simp only [Position.source]
  by_cases hst : s = t
  · subst hst
    have : r < v := by omega
    simp [this]
  · split_ifs <;> first | rfl | omega

/-- A trigger all of whose sources are stopped. -/
theorem drained {t v : Nat} (hv : L.sources t ≤ v) :
    Same L (closing t v none) (closing (t + 1) 0 none) := by
  refine ⟨fun _ _ _ => rfl, fun s r hr => ?_, rfl⟩
  simp only [Position.source]
  by_cases hst : s = t
  · subst hst
    have : r < v := by omega
    simp [this]
  · split_ifs <;> first | rfl | omega

/-- All triggers are stopped. -/
theorem closed {t : Nat} (ht : L.triggers.length ≤ t) :
    Same L (closing t 0 none) (falling 0 0 false) := by
  refine ⟨fun m v _ => ?_, fun s r hr => ?_, rfl⟩
  · simp [Position.phase]
  · have : s < t := by
      by_contra hs
      have : L.triggers[s]? = none := List.getElem?_eq_none (by omega)
      simp [Layout.sources, this] at hr
    simp [Position.source, this]

/-- A node all of whose units are stopped. -/
theorem fallen {n u : Nat} (hu : L.units n ≤ u) :
    Same L (falling n u false) (falling (n + 1) 0 false) := by
  refine ⟨fun m v hv => ?_, fun _ _ _ => rfl, rfl⟩
  simp only [Position.phase, Bool.false_eq_true, and_false, if_false]
  by_cases hmn : m = n
  · subst hmn
    have : v < u := by omega
    simp [this]
  · split_ifs <;> first | rfl | omega

end Position.Same
end EventPipeline
