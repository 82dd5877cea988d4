import EventPipeline.Proofs.Engine.Conduct
import EventPipeline.Proofs.Engine.Position

/-!
# `EventPipeline.Proofs.Engine.Plan`: what the main thread is about to do

`Leads` says from which position to which one a task of the main thread leads when it
succeeds, and `Plan` the same of an agenda. A task that is part of a start may fail; then
all that follows it are tasks that look at the answer and undo what was done, and the
start fails as a whole. A thread for which this has happened is `Doomed`: it stays so
(`Doomed.step`), and it does not return with success (`Doomed.not_returned`).
-/

set_option autoImplicit false

namespace EventPipeline

/-- The task does not move the position. -/
def Task.keeps : Task → Bool
  | .answer .ok => true
  | .event (.occupy ..) => true
  | .unit (.stoppedUnit ..) | .unit (.stoppedNode _) => true
  | .source (.halt ..) | .source (.stoppedTrigger _) => true
  | .stream (.stopped _) => true
  | _ => false

/-- From which position to which one a task of the main thread leads, for the stream `s` in
a layout. -/
inductive Leads (L : Layout) (s : Nat) : Task → Position → Position → Prop
  | keep {task : Task} {position : Position} (h : task.keeps) : Leads L s task position position
  | start : Leads L s (.stream (.start s)) (.rising L.nodes.length 0 false) .running
  | startProcessors (p : Nat) (hp : p ≤ L.nodes.length) :
    Leads L s (.stream (.startProcessors s p)) (.rising p 0 false) .running
  | startedProcessor (p : Nat) (hp : p ≤ L.nodes.length) :
    Leads L s (.stream (.startedProcessor s p)) (.rising p 0 false) .running
  | startNode (n : Nat) (hn : n < L.nodes.length) :
    Leads L s (.unit (.startNode n)) (.rising (n + 1) 0 false) (.rising n 0 false)
  | startUnits (n u : Nat) (hn : n < L.nodes.length) :
    Leads L s (.unit (.startUnits n u)) (.rising (n + 1) u false) (.rising n 0 false)
  | startedUnit (n u : Nat) (hn : n < L.nodes.length) :
    Leads L s (.unit (.startedUnit n u)) (.rising (n + 1) (u + 1) false) (.rising n 0 false)
  | startUnit (n u : Nat) (hu : u < L.units n) :
    Leads L s (.unit (.startUnit n u)) (.rising (n + 1) u false)
      (.rising (n + 1) (u + 1) false)
  | prepareInline (n u : Nat) (asked : Bool) (hu : u < L.units n)
    (h : L.isQueued n u = false) :
    Leads L s (.unit (.prepareInline n u asked)) (.rising (n + 1) u false)
      (.rising (n + 1) (u + 1) false)
  | awaitWorker (n u : Nat) :
    Leads L s (.unit (.awaitWorker n u)) (.rising (n + 1) u true)
      (.rising (n + 1) (u + 1) false)
  | startTriggers (t : Nat) :
    Leads L s (.stream (.startTriggers s t)) (.opening t 0 none) .running
  | startedTrigger (t : Nat) :
    Leads L s (.stream (.startedTrigger s t)) (.opening (t + 1) 0 none) .running
  | startTrigger (t : Nat) :
    Leads L s (.source (.startTrigger t)) (.opening t 0 none) (.opening (t + 1) 0 none)
  | startSources (t v : Nat) :
    Leads L s (.source (.startSources t v)) (.opening t v none) (.opening (t + 1) 0 none)
  | startedSource (t v : Nat) :
    Leads L s (.source (.startedSource t v)) (.opening t (v + 1) none)
      (.opening (t + 1) 0 none)
  | startSource (t v : Nat) (hv : v < L.sources t) :
    Leads L s (.source (.startSource t v)) (.opening t v none) (.opening t (v + 1) none)
  | await (t v l i : Nat) :
    Leads L s (.source (.await t v l i)) (.opening t v (some i)) (.opening t (v + 1) none)
  | stop : Leads L s (.stream (.stop s)) .running (.falling L.nodes.length 0 false)
  | stopTrigger (t : Nat) :
    Leads L s (.source (.stopTrigger t)) (.closing t 0 none) (.closing (t + 1) 0 none)
  | stopSource (t v : Nat) :
    Leads L s (.source (.stopSource t v)) (.closing t v none) (.closing t (v + 1) none)
  | join (name : String) (t v i : Nat) :
    Leads L s (.source (.join name i)) (.closing t v (some i)) (.closing t (v + 1) none)
  | stopNode (n : Nat) :
    Leads L s (.unit (.stopNode n)) (.falling n 0 false) (.falling (n + 1) 0 false)
  | stopUnit (n u : Nat) :
    Leads L s (.unit (.stopUnit n u)) (.falling n u false) (.falling n (u + 1) false)
  | finishInline (n u : Nat) (asked : Bool) :
    Leads L s (.unit (.finishInline n u asked)) (.falling n (u + 1) false)
      (.falling n (u + 1) false)
  | drain (n u noted : Nat) (h : L.isQueued n u = true) :
    Leads L s (.unit (.drain n u noted)) (.falling n u false) (.falling n u true)
  | dismiss (n u : Nat) :
    Leads L s (.unit (.dismiss n u)) (.falling n u true) (.falling n u true)
  | close (n u : Nat) :
    Leads L s (.unit (.close n u)) (.falling n u true) (.falling n u true)
  | joinWorker (n u : Nat) :
    Leads L s (.unit (.joinWorker n u)) (.falling n u true) (.falling n (u + 1) false)

/-- From which position to which one an agenda of the main thread leads. All that follows a
task that may fail are tasks that look at the answer. -/
inductive Plan (L : Layout) (s : Nat) : List Task → Position → Position → Prop
  | nil {position : Position} : Plan L s [] position position
  | same {agenda : List Task} {position middle goal : Position}
    (h : position.Same L middle) (hplan : Plan L s agenda middle goal) :
    Plan L s agenda position goal
  | cons {task : Task} {rest : List Task} {position middle goal : Position}
    (h : Leads L s task position middle)
    (hrest : task.mayFail = true → ∀ later ∈ rest, later.resumes = true)
    (hplan : Plan L s rest middle goal) : Plan L s (task :: rest) position goal

namespace Plan

variable {L : Layout} {s : Nat} {position middle goal : Position} {task : Task}
  {agenda rest : List Task}

/-- Nothing to do leads nowhere else. -/
theorem nil_same (h : Plan L s [] position goal) : position.Same L goal := by
  generalize hagenda : [] = agenda at h
  induction h with
  | nil => exact .refl
  | same h _ ih => exact h.trans (ih hagenda)
  | cons => simp at hagenda

/-- The first task of a plan, and the plan after it. -/
theorem cons_inv (h : Plan L s (task :: rest) position goal) :
    ∃ before after, position.Same L before ∧ Leads L s task before after ∧
      (task.mayFail = true → ∀ later ∈ rest, later.resumes = true) ∧
      Plan L s rest after goal := by
  generalize hagenda : task :: rest = agenda at h
  induction h with
  | nil => simp at hagenda
  | same h _ ih =>
    obtain ⟨before, after, hsame, hleads⟩ := ih hagenda
    exact ⟨before, after, h.trans hsame, hleads⟩
  | cons h hrest hplan _ =>
    obtain ⟨rfl, rfl⟩ := List.cons.inj hagenda
    exact ⟨_, _, .refl, h, hrest, hplan⟩

/-- One plan after another one. -/
theorem append {later : List Task} (h : Plan L s agenda position middle)
    (hlater : Plan L s later middle goal)
    (hfail : ∀ task ∈ agenda, task.mayFail = true → ∀ after ∈ later, after.resumes = true) :
    Plan L s (agenda ++ later) position goal := by
  induction h with
  | nil => exact hlater
  | same h _ ih => exact .same h (ih hlater hfail)
  | @cons task rest position middle' middle h hrest _ ih =>
    refine .cons h (fun hmay after hafter => ?_)
      (ih hlater fun task ht => hfail task (by simp [ht]))
    rcases List.mem_append.mp hafter with hafter | hafter
    · exact hrest hmay after hafter
    · exact hfail _ (by simp) hmay after hafter

/-- One task leads from one position to the other. -/
theorem single (h : Leads L s task position goal) : Plan L s [task] position goal :=
  .cons h (fun _ _ hlater => by simp at hlater) .nil

/-- Tasks for the numbers from zero on, each of which leads on from where the one before it
has led. -/
theorem map_range {f : Nat → Task} {p : Nat → Position} {k : Nat}
    (h : ∀ i, i < k → Leads L s (f i) (p i) (p (i + 1)))
    (hfail : ∀ i, (f i).mayFail = false) :
    Plan L s ((List.range k).map f) (p 0) (p k) := by
  induction k with
  | zero => exact .nil
  | succ k ih =>
    rw [List.range_succ, List.map_append]
    refine append (ih fun i hi => h i (by omega)) (single (h k (by omega)))
      fun task htask hmay => ?_
    obtain ⟨i, -, rfl⟩ := List.mem_map.mp htask
    simp [hfail i] at hmay

/-- No event was rejected in a plan. -/
theorem not_rejected (h : Plan L s agenda position goal) : .dispatched .rejected ∉ agenda := by
  induction h with
  | nil => simp
  | same _ _ ih => exact ih
  | cons h _ _ ih =>
    rw [List.mem_cons, not_or]
    refine ⟨?_, ih⟩
    rintro rfl
    cases h with
    | keep h => simp [Task.dispatched, Task.keeps] at h

/-- No start has failed in a plan. -/
theorem not_failed (h : Plan L s agenda position goal) (error : StreamError) :
    .answer (.failed error) ∉ agenda := by
  induction h with
  | nil => simp
  | same _ _ ih => exact ih
  | cons h _ _ ih =>
    rw [List.mem_cons, not_or]
    refine ⟨?_, ih⟩
    rintro rfl
    cases h with
    | keep h => simp [Task.keeps] at h

end Plan

/-! ## Before the start of a unit and after its stop -/

/-- A unit that is not started after a task was not started before it. -/
theorem Leads.fresh_of_fresh {L : Layout} {s n u : Nat} {task : Task} {before after : Position}
    (h : Leads L s task before after) (hphase : after.phase n u = .fresh) :
    before.phase n u = .fresh := by
  cases h with
  | keep => exact hphase
  | start | startProcessors | startedProcessor | startTriggers | startedTrigger | startTrigger
  | startSources | startedSource | startSource | await | stopTrigger | stopSource | join =>
    simp [Position.phase] at hphase
  | startNode m | startUnits m v | startedUnit m v | startUnit m v | prepareInline m v
  | awaitWorker m v =>
    simp only [Position.phase] at hphase ⊢
    split_ifs at hphase ⊢ <;> first | rfl | omega
  | stop | stopNode | stopUnit | finishInline | drain | dismiss | close | joinWorker =>
    simp only [Position.phase] at hphase
    split_ifs at hphase

/-- The task is part of a stop. -/
def Task.stops : Task → Bool
  | .event (.occupy ..) | .answer _ => true
  | .unit (.stopNode _) | .unit (.stoppedNode _) | .unit (.stopUnit ..)
  | .unit (.finishInline ..) | .unit (.drain ..) | .unit (.dismiss ..) | .unit (.close ..)
  | .unit (.joinWorker ..) | .unit (.stoppedUnit ..) => true
  | .source (.stopTrigger _) | .source (.stoppedTrigger _) | .source (.stopSource ..)
  | .source (.halt ..) | .source (.join ..) => true
  | .stream (.stop _) | .stream (.stopped _) => true
  | _ => false

/-- A task that does not move the position is part of a stop. -/
theorem Task.stops_of_keeps {task : Task} (h : task.keeps = true) : task.stops = true := by
  cases task with
  | event task => cases task <;> first | rfl | simp [keeps] at h
  | unit task => cases task <;> first | rfl | simp [keeps] at h
  | source task => cases task <;> first | rfl | simp [keeps] at h
  | stream task => cases task <;> first | rfl | simp [keeps] at h
  | answer => rfl
  | control | timer => simp [keeps] at h

/-- Once some unit is stopped, all tasks are part of a stop, and the unit stays stopped. -/
theorem Leads.stops {L : Layout} {s n u : Nat} {task : Task} {before after : Position}
    (h : Leads L s task before after) (hphase : before.phase n u = .stopped) :
    task.stops = true ∧ after.phase n u = .stopped := by
  cases h with
  | keep hk => exact ⟨Task.stops_of_keeps hk, hphase⟩
  | stopNode m | stopUnit m v | finishInline m v | drain m v | dismiss m v | close m v
  | joinWorker m v =>
    refine ⟨rfl, ?_⟩
    simp only [Position.phase] at hphase ⊢
    split_ifs at hphase ⊢ <;> first | rfl | omega
  | startTriggers | startedTrigger | startTrigger | startSources | startedSource | startSource
  | await | stop | stopTrigger | stopSource | join =>
    simp [Position.phase] at hphase
  | start | startProcessors | startedProcessor | startNode | startUnits | startedUnit | startUnit
  | prepareInline | awaitWorker =>
    simp only [Position.phase] at hphase
    split_ifs at hphase

/-- Once some unit is stopped, the main thread does nothing but stop the stream. -/
theorem Plan.stops {L : Layout} {s n u : Nat} {agenda : List Task} {position goal : Position}
    (h : Plan L s agenda position goal) (hu : u < L.units n)
    (hphase : position.phase n u = .stopped) : ∀ task ∈ agenda, task.stops = true := by
  induction h with
  | nil => simp
  | same hsame _ ih => exact ih ((hsame.phase n u hu).symm.trans hphase)
  | cons hleads _ _ ih =>
    obtain ⟨hstops, hphase⟩ := hleads.stops hphase
    simpa using ⟨hstops, ih hphase⟩

/-- The task gives up a source that did not become ready. -/
def Task.givesUp : Task → Bool
  | .source (.giveUp ..) => true
  | _ => false

/-- The task decides that a start fails. -/
def Task.dooms : Task → Bool
  | .answer (.failed _) => true
  | task => task.givesUp

/-- The thread has broken down, or a start that it is at fails as a whole. -/
inductive Thread.Doomed (thread : Thread) : Prop where
  | broken (h : thread.broken ≠ none)
  | doomed (earlier : List Task) (task : Task) (later : List Task)
    (hagenda : thread.agenda = earlier ++ task :: later) (htask : task.dooms = true)
    (hlater : ∀ task ∈ later, task.resumes = true)
  | failed (error : StreamError) (hanswer : thread.answer = .failed error)
    (hagenda : ∀ task ∈ thread.agenda, task.resumes = true)

end EventPipeline
