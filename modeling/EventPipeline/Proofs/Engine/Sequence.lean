import EventPipeline.Proofs.Engine.Conservation
import EventPipeline.Proofs.Engine.Passage

/-!
# `EventPipeline.Proofs.Engine.Sequence`: one thread at a time

Most tasks do nothing in a line (`Task.isIdle`). In a sequential stream only one thread at a
time has others to do: the main thread as long as some unit is not started, then the thread
of the source (`OnCourse.idle_others`). When the main thread begins to stop units, no worker
has anything left to do at all (`OnCourse.agenda_eq_nil`).
-/

set_option autoImplicit false

namespace EventPipeline

variable {P : Plugins} {k : Nat}

/-! ## Tasks that do nothing in a line -/

/-- The task does nothing in a line of `k` stations. -/
def Task.isIdle (k : Nat) : Task → Bool
  | .event (.leave _) | .event (.send ..) | .event (.occupy ..) | .event (.settle ..) => true
  | .event _ => false
  | .unit (.startNode _) | .unit (.startUnits _ 0) | .unit (.startUnit ..)
  | .unit (.prepareInline ..) => false
  | .stream (.start _) => k == 0
  | .stream (.startProcessors _ p) | .stream (.startedProcessor _ p) => p == 0
  | _ => true

/-- An idle task does nothing in a line. -/
theorem Task.complete_of_idle {task : Task} (h : task.isIdle k = true) (line : Line P) :
    task.complete k line = line := by
  cases task with
  | event task => cases task <;> first | rfl | simp [isIdle] at h
  | unit task =>
    cases task with
    | startUnits n u => cases u <;> first | rfl | simp [isIdle] at h
    | _ => first | rfl | simp [isIdle] at h
  | stream task =>
    cases task with
    | start s =>
      obtain rfl : k = 0 := by simpa [isIdle] using h
      rfl
    | startProcessors s p | startedProcessor s p =>
      obtain rfl : p = 0 := by simpa [isIdle] using h
      rfl
    | _ => rfl
  | _ => rfl

/-- A task that is part of a stop is idle. -/
theorem Task.isIdle_of_stops {task : Task} (h : task.stops = true) : task.isIdle k = true := by
  cases task with
  | event task => cases task <;> first | rfl | simp [stops] at h
  | unit task => cases task <;> first | rfl | simp [stops] at h
  | stream task => cases task <;> first | rfl | simp [stops] at h
  | _ => rfl

/-- The task of a loop is idle. -/
theorem Task.isIdle_of_owner {task : Task} {owner : Owner} (h : task.owner? = some owner) :
    task.isIdle k = true := by
  cases task with
  | unit task => cases task <;> first | rfl | simp [owner?] at h
  | source task => rfl
  | _ => simp [owner?] at h

namespace Line

variable {line later : Line P} {agenda rest todo : List Task} {agendas : List (List Task)}
  {task : Task} {me : Nat}

theorem complete_append (agenda agenda' : List Task) :
    line.complete k (agenda ++ agenda') = (line.complete k agenda).complete k agenda' :=
  List.foldl_append

/-- Idle tasks do nothing in a line. -/
theorem complete_of_idle (h : ∀ task ∈ agenda, task.isIdle k = true) :
    line.complete k agenda = line := by
  induction agenda with
  | nil => rfl
  | cons task agenda ih =>
    rw [complete_cons, Task.complete_of_idle (h task (by simp))]
    exact ih fun task htask => h task (by simp [htask])

end Line

/-- A place in a list, and what stands before and after it. -/
theorem exists_append_of_getElem? {α : Type} {l : List α} {i : Nat} {a : α}
    (h : l[i]? = some a) :
    ∃ before after, l = before ++ a :: after ∧ before.length = i ∧
      ∀ f : α → α, l.modify i f = before ++ f a :: after := by
  induction l generalizing i with
  | nil => simp at h
  | cons b l ih =>
    cases i with
    | zero =>
      obtain rfl : b = a := by simpa using h
      exact ⟨[], l, rfl, rfl, fun f => rfl⟩
    | succ i =>
      obtain ⟨before, after, rfl, hlength, hmodify⟩ := ih (i := i) (by simpa using h)
      exact ⟨b :: before, after, rfl, by simp [hlength], fun f => by simp [hmodify]⟩

namespace Line

variable {line later : Line P} {agenda rest todo : List Task} {agendas : List (List Task)}
  {task : Task} {me : Nat}

/-- If no thread has anything to do in a line, nothing is done. -/
theorem complete_flatten_of_idle
    (h : ∀ (i : Nat) agenda, agendas[i]? = some agenda → ∀ task ∈ agenda, task.isIdle k = true) :
    line.complete k agendas.flatten = line := by
  refine complete_of_idle fun task htask => ?_
  obtain ⟨agenda, hagenda, htask⟩ := List.mem_flatten.mp htask
  obtain ⟨i, hi⟩ := List.mem_iff_getElem?.mp hagenda
  exact h i agenda hi task htask

/-- A task is replaced by tasks that do the same in every line. -/
theorem complete_flatten_replace (hme : agendas[me]? = some (task :: rest))
    (htodo : ∀ line : Line P, line.complete k todo = task.complete k line) :
    line.complete k (agendas.modify me (todo ++ ·.tail)).flatten =
      line.complete k agendas.flatten := by
  obtain ⟨before, after, rfl, -, hmodify⟩ := exists_append_of_getElem? hme
  rw [hmodify]
  simp only [List.flatten_append, List.flatten_cons, complete_append, complete_cons, htodo,
    List.tail_cons]

/-- A task is done, and the tasks that follow from it do the rest. Before it no thread has
anything to do in a line. -/
theorem complete_flatten_step (hme : agendas[me]? = some (task :: rest))
    (hidle : ∀ i other, agendas[i]? = some other → i < me → ∀ task ∈ other, task.isIdle k = true)
    (htodo : task.complete k line = later.complete k todo) :
    line.complete k agendas.flatten =
      later.complete k (agendas.modify me (todo ++ ·.tail)).flatten := by
  obtain ⟨before, after, rfl, rfl, hmodify⟩ := exists_append_of_getElem? hme
  have hbefore : line.complete k before.flatten = line :=
    complete_flatten_of_idle fun i agenda hi =>
      have hlt := (List.getElem?_eq_some_iff.mp hi).1
      hidle i agenda (by rw [List.getElem?_append_left hlt, hi]) hlt
  have hlater : later.complete k before.flatten = later :=
    complete_flatten_of_idle fun i agenda hi =>
      have hlt := (List.getElem?_eq_some_iff.mp hi).1
      hidle i agenda (by rw [List.getElem?_append_left hlt, hi]) hlt
  rw [hmodify]
  simp only [List.flatten_append, List.flatten_cons, complete_append, complete_cons,
    hbefore, hlater, htodo, List.tail_cons]

end Line

/-! ## The plan of the main thread -/

/-- A node of a sequential layout has one unit. -/
theorem Layout.IsSequential.units_eq {L : Layout} (h : L.IsSequential) {n : Nat}
    (hn : n < L.nodes.length) : L.units n = 1 := by
  simp [Layout.units, List.getElem?_eq_getElem hn, h.nodes _ (List.getElem_mem hn)]

/-- No unit of a sequential layout has a queue. -/
theorem Layout.IsSequential.isQueued_eq {L : Layout} (h : L.IsSequential) (n u : Nat) :
    L.isQueued n u = false := by
  unfold Layout.isQueued
  cases hnode : L.nodes[n]? with
  | none => rfl
  | some node =>
    rw [Option.bind_some, h.nodes node (List.mem_of_getElem? hnode)]
    cases u <;> rfl

/-- The one source of a sequential layout. -/
theorem Layout.IsSequential.source_eq {L : Layout} (h : L.IsSequential) {t v : Nat}
    (hv : v < L.sources t) : t = 0 ∧ v = 0 := by
  obtain ⟨trigger, htrigger, hsources⟩ : ∃ trigger, L.triggers = [trigger] ∧
      trigger.sources = 1 := by
    have hone := h.triggers
    cases htriggers : L.triggers with
    | nil => simp [htriggers] at hone
    | cons trigger rest => 
      obtain ⟨hsources, rfl⟩ : trigger.sources = 1 ∧ rest = [] := by simpa [htriggers] using hone
      exact ⟨trigger, rfl, hsources⟩
  cases t with
  | zero =>
    have : v < 1 := by simpa [Layout.sources, htrigger, hsources] using hv
    omega
  | succ t => simp [Layout.sources, htrigger] at hv

/-- As long as the main thread has something to do in a line, some unit is not started. -/
theorem Leads.fresh_of_active {L : Layout} {s : Nat} {task : Task} {before after : Position}
    (hsequential : L.IsSequential) (h : Leads L s task before after)
    (hactive : task.isIdle L.nodes.length = false) :
    ∃ n u, u < L.units n ∧ before.phase n u = .fresh := by
  cases h with
  | keep hk => simp [Task.isIdle_of_stops (Task.stops_of_keeps hk)] at hactive
  | start =>
    cases hlength : L.nodes.length with
    | zero => simp [Task.isIdle, hlength] at hactive
    | succ n => exact ⟨n, 0, by simp [hsequential.units_eq (n := n) (by omega)], by simp⟩
  | startProcessors p hp | startedProcessor p hp =>
    cases p with
    | zero => simp [Task.isIdle] at hactive
    | succ n => exact ⟨n, 0, by simp [hsequential.units_eq (n := n) (by omega)], by simp⟩
  | startNode n hn => exact ⟨n, 0, by simp [hsequential.units_eq hn], by simp⟩
  | startUnits n u hn =>
    cases u with
    | zero => exact ⟨n, 0, by simp [hsequential.units_eq hn], by simp⟩
    | succ u => simp [Task.isIdle] at hactive
  | startUnit n u hu | prepareInline n u asked hu => exact ⟨n, u, hu, by simp⟩
  | _ => simp [Task.isIdle] at hactive

/-- As long as some task of the main thread does something in a line, some unit is not
started. -/
theorem Plan.fresh_of_active {L : Layout} {s : Nat} {agenda : List Task} {task : Task}
    {position goal : Position} (hsequential : L.IsSequential) (h : Plan L s agenda position goal)
    (htask : task ∈ agenda) (hactive : task.isIdle L.nodes.length = false) :
    ∃ n u, u < L.units n ∧ position.phase n u = .fresh := by
  induction h with
  | nil => simp at htask
  | same hsame _ ih =>
    obtain ⟨n, u, hu, hfresh⟩ := ih htask
    exact ⟨n, u, hu, (hsame.phase n u hu).trans hfresh⟩
  | cons hleads _ _ ih =>
    rcases List.mem_cons.mp htask with rfl | htask
    · exact hleads.fresh_of_active hsequential hactive
    · obtain ⟨n, u, hu, hfresh⟩ := ih htask
      exact ⟨n, u, hu, hleads.fresh_of_fresh hfresh⟩

namespace World.Conducts

variable {w : World P} {L : Layout} {s me : Nat} {task : Task} {before after : Position}
  {o : Outline} {streams : List Stream} {spawned : List (List Task)} {todo : List Task}

/-- New threads have nothing to do in a line. -/
theorem idle_spawned (h : w.Conducts me task o streams spawned todo) :
    ∀ agenda ∈ spawned, ∀ task ∈ agenda, task.isIdle k = true := by
  cases h <;> simp [Task.isIdle]

/-- Making a processor of an inline unit ready adds no threads. -/
theorem spawned_of_prepareInline {n u : Nat} {asked : Bool}
    (h : w.Conducts me (.unit (.prepareInline n u asked)) o streams spawned todo) :
    spawned = [] := by
  cases h <;> rfl

/-- What follows from a task that is part of a stop is part of the stop. -/
theorem stops (h : w.Conducts me task o streams spawned todo) (hstops : task.stops = true) :
    spawned = [] ∧ ∀ later ∈ todo, later.stops = true := by
  cases h with
  | fail task h =>
    cases task with
    | event | control | timer | answer => simp [Task.mayFail] at h
    | unit task | source task | stream task =>
      cases task <;> simp [Task.mayFail] at h <;> simp [Task.stops] at hstops
  | undo task h =>
    cases task with
    | event | control | timer | answer => simp [Task.resumes] at h
    | unit task | source task | stream task =>
      cases task <;> simp [Task.resumes] at h <;> simp [Task.stops] at hstops
  | stopNode | stopTrigger | stopSource | stop =>
    simp [Task.stops, or_imp, forall_and]
  | _ => first | (simp [Task.stops] at hstops; done) | simp [Task.stops]

/-- What the main thread does next does the same in a line as its task, unless the task
fails. -/
theorem complete_eq (h : w.Conducts me task o streams spawned todo) (hsilent : task.isSilent = true)
    (hleads : Leads L s task before after) (hlayout : w.outline.layout = L)
    (hsequential : L.IsSequential) {running : Bool} (hrecords : L.Records w.streams s running)
    (hgood : ∀ error, .answer (.failed error) ∉ todo) (line : Line P) :
    line.complete L.nodes.length todo = task.complete L.nodes.length line := by
  obtain ⟨record, hrecord, -, hprocessors, -⟩ := hrecords
  cases h with
  | fail task h o error => exact absurd (by simp) (hgood error)
  | undo task h error => exact absurd (by simp) (hgood error)
  | startUnits n u hu =>
    cases hleads with
    | keep hk => simp [Task.keeps] at hk
    | startUnits _ _ hn =>
      obtain rfl : u = 0 := by
        rw [hlayout, hsequential.units_eq hn] at hu
        omega
      rfl
  | startedNode n u hu =>
    cases hleads with
    | keep hk => simp [Task.keeps] at hk
    | startUnits _ _ hn =>
      rw [hlayout, hsequential.units_eq hn] at hu
      cases u with
      | zero => omega
      | succ u => rfl
  | startQueued n u unit hunit hqueued =>
    rw [← Outline.isQueued_eq hunit, hlayout, hsequential.isQueued_eq] at hqueued
    simp at hqueued
  | start _ stream hstream =>
    cases hleads with
    | keep hk => simp [Task.keeps] at hk
    | start =>
      obtain rfl : record = stream := by simpa [hrecord] using hstream
      rw [hprocessors, List.length_range]
      rfl
  | startProcessors _ p n stream hstream hn =>
    cases hleads with
    | keep hk => simp [Task.keeps] at hk
    | startProcessors _ hp =>
      obtain rfl : record = stream := by simpa [hrecord] using hstream
      obtain rfl : p = n := by
        rw [hprocessors, List.getElem?_range (by omega), Option.some.injEq] at hn
        exact hn
      rfl
  | giveUp =>
    cases hleads with
    | keep hk => simp [Task.keeps] at hk
  | stopNode n =>
    refine Line.complete_of_idle fun task htask => Task.isIdle_of_stops ?_
    simp only [List.mem_append, List.mem_map, List.mem_singleton] at htask
    obtain ⟨_, -, rfl⟩ | rfl := htask <;> rfl
  | stopTrigger t =>
    refine Line.complete_of_idle fun task htask => Task.isIdle_of_stops ?_
    simp only [List.mem_append, List.mem_map, List.mem_singleton] at htask
    obtain ⟨_, -, rfl⟩ | rfl := htask <;> rfl
  | stopSource t v name source =>
    refine Line.complete_of_idle fun task htask => Task.isIdle_of_stops ?_
    simp only [List.mem_cons, List.mem_map] at htask
    obtain rfl | ⟨_, -, rfl⟩ := htask <;> rfl
  | stop _ stream =>
    refine Line.complete_of_idle fun task htask => Task.isIdle_of_stops ?_
    simp only [List.mem_append, List.mem_map, List.mem_singleton] at htask
    obtain (⟨_, -, rfl⟩ | ⟨_, -, rfl⟩) | rfl := htask <;> rfl
  | prepareInline | preparedInline | finishInline | finishedInline =>
    simp [Task.isSilent] at hsilent
  | _ => rfl

end World.Conducts

namespace World.OnCourse

variable {w : World P} {L : Layout} {s i : Nat} {goal : Position} {ended : Nat → Nat}
  {thread : Thread} {position : Position} {agenda : List Task}

/-- A worker of a sequential stream that has something to do is the thread of its source. -/
theorem works_for_source (hsequential : L.IsSequential)
    (hc : w.OnCourse L s goal ended thread position) (hagenda : w.agendas[i + 1]? = some agenda)
    (hne : agenda ≠ []) :
    ∃ loop source, Shaped (some loop) agenda ∧ loop.owner? = some (.source 0 0) ∧
      w.outline.source? 0 0 = some source ∧
      (position.source 0 0 = .launched (i + 1) ∨
        position.source 0 0 = .registered ∧ source.worker = some (i + 1)) := by
  obtain ⟨loop, hshaped, hfits⟩ := hc.order.threads i agenda hagenda
  cases loop with
  | none =>
    cases hshaped
    exact absurd rfl hne
  | some loop =>
    obtain ⟨owner, howner⟩ := hshaped.exists_owner
    have hfits := hfits loop rfl
    cases owner with
    | worker n u =>
      exact absurd hfits (hc.order.not_owned (hsequential.isQueued_eq n u) howner)
    | source t v =>
      cases hfits with
      | prepareWorker | receive | checkDismissed | finishWorker => simp [Task.owner?] at howner
      | ofSource _ t' v' source howner' hsource hphase =>
        obtain ⟨rfl, rfl⟩ : t' = 0 ∧ v' = 0 := by
          refine hsequential.source_eq ?_
          have hsome := w.outline.source?_isSome t' v'
          rw [hsource, hc.order.layout] at hsome
          simpa using hsome.symm
        exact ⟨loop, source, hshaped, howner', hsource, hphase⟩

/-- As long as a worker has something to do, its source has a phase in which it has a
thread. -/
theorem source_ne_absent (hsequential : L.IsSequential)
    (hc : w.OnCourse L s goal ended thread position) (hagenda : w.agendas[i + 1]? = some agenda)
    (hne : agenda ≠ []) : position.source 0 0 ≠ .absent := by
  obtain ⟨loop, source, -, -, -, hphase | ⟨hphase, -⟩⟩ :=
    hc.works_for_source hsequential hagenda hne <;> simp [hphase]

/-- As long as a worker has something to do, no other thread does anything in a line. -/
theorem idle_others (hsequential : L.IsSequential)
    (hc : w.OnCourse L s goal ended thread position) (hagenda : w.agendas[i + 1]? = some agenda)
    (hne : agenda ≠ []) {j : Nat} {other : List Task} (hother : w.agendas[j]? = some other)
    (hj : j ≠ i + 1) : ∀ task ∈ other, task.isIdle L.nodes.length = true := by
  intro task htask
  cases j with
  | zero =>
    obtain rfl : thread.agenda = other := by simpa [agendas, hc.main] using hother
    by_contra hactive
    obtain ⟨n, u, hu, hfresh⟩ :=
      hc.plan.fresh_of_active hsequential htask (by simpa using hactive)
    exact hc.source_ne_absent hsequential hagenda hne
      (Position.source_of_unstarted (.inl hfresh) 0 0)
  | succ j =>
    have hne' : other ≠ [] := List.ne_nil_of_mem htask
    obtain ⟨-, source, -, -, hsource, hphase⟩ := hc.works_for_source hsequential hagenda hne
    obtain ⟨-, source', -, -, hsource', hphase'⟩ := hc.works_for_source hsequential hother hne'
    obtain rfl : source = source' := by simpa [hsource] using hsource'
    rcases hphase with hphase | ⟨hphase, hworker⟩ <;>
      rcases hphase' with hphase' | ⟨hphase', hworker'⟩ <;>
      simp_all

/-- Once a unit is stopped no worker has anything to do. -/
theorem agenda_eq_nil (hsequential : L.IsSequential)
    (hc : w.OnCourse L s goal ended thread position) {n u : Nat}
    (hstopped : position.phase n u = .stopped) (hagenda : w.agendas[i + 1]? = some agenda) :
    agenda = [] := by
  by_contra hne
  exact hc.source_ne_absent hsequential hagenda hne
    (Position.source_of_stopping (.inr hstopped) 0 0)

end World.OnCourse

end EventPipeline
