import EventPipeline.Proofs.Lifecycle.Reach

/-!
# `EventPipeline.Proofs.Lifecycle.Turn`: one move, seen from one plugin

A move is a turn of one thread, or it touches neither units nor agendas (`move_cases`). A
turn of a thread with another plugin leaves a plugin alone: its unit, its life on record, and
who takes care of it. `World.Tasks` states facts about all tasks of all threads, and
`Turn.tasks` carries them over a turn.
-/

set_option autoImplicit false

namespace EventPipeline

variable {P : Plugins}

/-- What the thread that has made the progress has to do, if `rest` comes after its task. -/
def Progress.next (rest : List Task) : Progress P → List Task
  | goOn _ todo => todo ++ rest
  | breakDown .. => []

/-- The task is on the way of an event, or takes note of an answer. -/
def Task.isErrand : Task → Bool
  | .event _ | .answer _ => true
  | _ => false

/-- What is on the way of an event starts and stops no unit. -/
theorem Task.summons?_of_errand {task : Task} (h : task.isErrand = true) :
    task.summons? = none := by
  cases task with
  | event | answer => rfl
  | _ => cases h

namespace World

variable {w w' : World P} {me : Nat} {task : Task} {rest : List Task} {progress : Progress P}
  {expired : Bool} {i : Instance}

/-- There is an agenda for every thread. -/
theorem length_agendas (w : World P) : w.agendas.length = w.threads.length := List.length_map ..

/-- A thread is back at what comes later when that is all it has to do. -/
theorem isBack_iff {j : Nat} {later : List Task} :
    w.IsBack j later ↔ w.agendas[j]? = some later := by
  simp [IsBack, agendas]

/-- A thread that has something else to do is not back. -/
theorem not_isBack {j : Nat} {agenda later : List Task} (h : w.agendas[j]? = some agenda)
    (hne : agenda ≠ later) : ¬ w.IsBack j later :=
  fun hback => hne (Option.some.inj (h.symm.trans (isBack_iff.mp hback)))

/-- The thread `me` does the task, after which it has the rest to do. -/
structure Turn (w : World P) (me : Nat) (expired : Bool) (task : Task) (rest : List Task)
    (progress : Progress P) (w' : World P) : Prop where
  agenda : w.agendas[me]? = some (task :: rest)
  performs : w.perform me expired task = some progress
  resumes : w' = progress.resume me
  deeds : w.deeds (.step me) = w.deedsOf me expired task
  starts : w.starts? (.step me) = task.starts?

/-- A step is a turn. -/
theorem step_turn (h : w.step me = some w') :
    ∃ expired task rest progress, w.Turn me expired task rest progress w' := by
  obtain ⟨thread, task, rest, progress, hthread, hagenda, hperform, rfl⟩ := step_perform h
  refine ⟨w.expired thread, task, rest, progress, ?_, hperform, rfl, ?_, ?_⟩
  · rw [agendas, List.getElem?_map, hthread, Option.map_some, hagenda]
  · simp [World.deeds, hthread, hagenda]
  · simp [World.starts?, hthread, hagenda]

namespace Turn

variable (h : w.Turn me expired task rest progress w')
include h

theorem reaches : w.Reaches task progress := perform_reaches h.performs

theorem me_lt : me < w.agendas.length := (List.getElem?_eq_some_iff.mp h.agenda).1

theorem nodes : w'.nodes = progress.world.nodes := by
  rw [h.resumes]
  cases progress <;> rfl

theorem triggers : w'.triggers = progress.world.triggers := by
  rw [h.resumes]
  cases progress <;> rfl

theorem launches : w'.launches = progress.world.launches := by
  rw [h.resumes]
  cases progress <;> rfl

theorem streams : w'.streams = progress.world.streams := by
  rw [h.resumes]
  cases progress <;> rfl

theorem unit? (n u : Nat) : w'.unit? n u = progress.world.unit? n u := by
  simp only [World.unit?, h.nodes]

theorem source? (t u : Nat) : w'.source? t u = progress.world.source? t u := by
  simp only [World.source?, h.triggers]

/-- The agendas after a turn. -/
theorem agendas : w'.agendas =
    progress.world.agendas.modify me fun agenda => progress.next agenda.tail := by
  rw [h.resumes]
  cases progress with
  | goOn v todo => exact agendas_resume
  | breakDown v text => exact agendas_breakDown rfl

/-- What the thread has to do after its turn. -/
theorem agenda_me : w'.agendas[me]? = some (progress.next rest) := by
  obtain ⟨spawned, hspawned, -⟩ := h.reaches.agendas
  rw [h.agendas, List.getElem?_modify_eq, hspawned, List.getElem?_append_left h.me_lt, h.agenda]
  rfl

/-- Other threads have the same to do after a turn. -/
theorem agenda_ne {j : Nat} {agenda : List Task} (hj : j ≠ me)
    (hagenda : w.agendas[j]? = some agenda) : w'.agendas[j]? = some agenda := by
  obtain ⟨spawned, hspawned, -⟩ := h.reaches.agendas
  rw [h.agendas, List.getElem?_modify_ne _ _ hj.symm, hspawned,
    List.getElem?_append_left (List.getElem?_eq_some_iff.mp hagenda).1, hagenda]

/-- What another thread has to do after a turn it had to do before, unless it is new. -/
theorem agenda_of_ne {j : Nat} {agenda : List Task} (hj : j ≠ me)
    (hagenda : w'.agendas[j]? = some agenda) :
    w.agendas[j]? = some agenda ∨
      w.agendas.length ≤ j ∧ ∀ next ∈ agenda, task.Spawns w.launches.length next := by
  obtain ⟨spawned, hspawned, hstems⟩ := h.reaches.agendas
  rw [h.agendas, List.getElem?_modify_ne _ _ hj.symm, hspawned] at hagenda
  by_cases hlt : j < w.agendas.length
  · rw [List.getElem?_append_left hlt] at hagenda
    exact .inl hagenda
  · have hle : w.agendas.length ≤ j := Nat.le_of_not_lt hlt
    rw [List.getElem?_append_right hle] at hagenda
    exact .inr ⟨hle, hstems agenda (List.mem_of_getElem? hagenda)⟩

/-- A turn leaves the units of all other plugins alone. -/
theorem unit?_eq (hplain : task.isPlain = true) {n u : Nat}
    (hne : task.subject? ≠ some (.processor n u)) : w'.unit? n u = w.unit? n u :=
  (h.unit? n u).trans (h.reaches.units hplain n u hne)

/-- A turn leaves the sources of all other plugins alone. -/
theorem source?_eq (hplain : task.isPlain = true) {t u : Nat}
    (hne : task.subject? ≠ some (.source t u)) : w'.source? t u = w.source? t u :=
  (h.source? t u).trans (h.reaches.sources hplain t u hne)

/-- No source is lost by a turn. -/
theorem remains {t u : Nat} (hsource : (w.source? t u).isSome = true) :
    (w'.source? t u).isSome = true := by
  rw [h.source?]
  exact h.reaches.remains t u hsource

/-- A turn leaves all other launches alone. -/
theorem launch_eq {l : Nat} (hl : l < w.launches.length) (hne : task.launch? ≠ some l) :
    w'.launches[l]? = w.launches[l]? := by
  rw [h.launches]
  exact h.reaches.launches l hl hne

end Turn

/-- Neither units nor agendas differ between two worlds. -/
structure Same (w w' : World P) : Prop where
  nodes : w'.nodes = w.nodes
  triggers : w'.triggers = w.triggers
  launches : w'.launches = w.launches
  streams : w'.streams = w.streams
  threads : w'.threads = w.threads

namespace Same

variable (h : Same w w')
include h

theorem agendas : w'.agendas = w.agendas := agendas_congr h.threads

theorem unit? (n u : Nat) : w'.unit? n u = w.unit? n u := by
  simp only [World.unit?, h.nodes]

theorem source? (t u : Nat) : w'.source? t u = w.source? t u := by
  simp only [World.source?, h.triggers]

end Same

/-- A move is a turn of a thread, or it leaves everything that matters alone. -/
theorem move_cases {move : Move P} (h : w.move move = some w') :
    (∃ me expired task rest progress, move = .step me ∧
      w.Turn me expired task rest progress w') ∨ w.deeds move = [] ∧ Same w w' := by
  cases move with
  | step me =>
    obtain ⟨expired, task, rest, progress, hturn⟩ := step_turn h
    exact .inl ⟨me, expired, task, rest, progress, rfl, hturn⟩
  | pass nanos =>
    obtain rfl : _ = w' := by simpa [World.move] using h
    exact .inr ⟨rfl, rfl, rfl, rfl, rfl, rfl⟩
  | outside change =>
    obtain rfl : _ = w' := by simpa [World.move] using h
    exact .inr ⟨rfl, rfl, rfl, rfl, rfl, rfl⟩

/-! ## Errands -/

/-- Handling an event leads to nothing but what is on its way. -/
theorem errands_of_handles {o o' : Outline} {task : EventTask} {ended : Option Nat}
    {todo : List Task} (h : o.Handles (.event task) ended o' todo) :
    ∀ next ∈ todo, next.isErrand = true := by
  have honward (kind : NodeKind) (n : Nat) (event : Event) :
      ∀ next ∈ onward kind n event, next.isErrand = true := by
    cases kind <;> simp [onward, Task.isErrand, Task.dispatched]
  cases h with
  | takeInline n u event node unit =>
    intro next hnext
    rcases List.mem_append.mp hnext with hnext | hnext
    · obtain rfl | rfl | rfl := by simpa using hnext
      all_goals rfl
    · exact honward node.kind n event next hnext
  | enqueue n u event node unit => exact honward node.kind n event
  | _ => simp [Task.isErrand, Task.dispatched]

/-- An errand leads to nothing but errands. -/
theorem Turn.errands (h : w.Turn me expired task rest progress w')
    (herrand : task.isErrand = true) :
    ∃ v todo, progress = .goOn v todo ∧ ∀ next ∈ todo, next.isErrand = true := by
  cases task with
  | event task =>
    cases performEvent_handles h.performs with
    | goOn handles => exact ⟨_, _, rfl, errands_of_handles handles⟩
  | answer answer =>
    obtain rfl := Option.some.inj h.performs
    exact ⟨_, [], rfl, by simp⟩
  | _ => cases herrand

/-! ## All tasks of all threads -/

/-- The fact holds for every task of every thread, which is named by its number. -/
def Tasks (p : Nat → Task → Prop) (w : World P) : Prop :=
  ∀ j agenda, w.agendas[j]? = some agenda → ∀ task ∈ agenda, p j task

variable {p : Nat → Task → Prop}

/-- A fact holds for all tasks after a turn if it does before, and for what can follow from
the task that is done. -/
theorem Turn.tasks (h : w.Turn me expired task rest progress w') (hp : w.Tasks p)
    (htodo : ∀ next ∈ progress.todo, task.StemsFrom w.launches.length next → p me next)
    (hspawned : ∀ j next, w.agendas.length ≤ j → task.Spawns w.launches.length next →
      p j next) : w'.Tasks p := by
  intro j agenda hagenda next hnext
  by_cases hj : j = me
  · subst hj
    obtain rfl : progress.next rest = agenda := Option.some.inj (h.agenda_me ▸ hagenda)
    cases progress with
    | goOn v todo =>
      rcases List.mem_append.mp hnext with hnext | hnext
      · exact htodo next hnext (h.reaches.todo next hnext)
      · exact hp j _ h.agenda next (List.mem_cons_of_mem _ hnext)
    | breakDown => cases hnext
  · obtain hbefore | ⟨hle, hstems⟩ := h.agenda_of_ne hj hagenda
    · exact hp j agenda hbefore next hnext
    · exact hspawned j next hle (hstems next hnext)

/-- A fact holds for all tasks after a turn if it does before, and for what the thread and the
new threads have to do. -/
theorem Turn.tasks_spawned (h : w.Turn me expired task rest progress w')
    {spawned : List (List Task)}
    (hagendas : progress.world.agendas = w.agendas ++ spawned) (hp : w.Tasks p)
    (htodo : ∀ next ∈ progress.todo, p me next)
    (hspawned : ∀ j agenda, spawned[j]? = some agenda → ∀ next ∈ agenda,
      p (w.agendas.length + j) next) : w'.Tasks p := by
  intro j agenda hagenda next hnext
  by_cases hj : j = me
  · subst hj
    obtain rfl := Option.some.inj (h.agenda_me.symm.trans hagenda)
    cases progress with
    | goOn v todo =>
      rcases List.mem_append.mp hnext with hnext | hnext
      · exact htodo next hnext
      · exact hp j _ h.agenda next (List.mem_cons_of_mem _ hnext)
    | breakDown => cases hnext
  rw [h.agendas, List.getElem?_modify_ne _ _ (Ne.symm hj), hagendas] at hagenda
  by_cases hlt : j < w.agendas.length
  · rw [List.getElem?_append_left hlt] at hagenda
    exact hp j agenda hagenda next hnext
  · have hle : w.agendas.length ≤ j := Nat.le_of_not_lt hlt
    rw [List.getElem?_append_right hle] at hagenda
    have hnew := hspawned _ agenda hagenda next hnext
    rwa [Nat.add_sub_cancel' hle] at hnew

/-- A fact holds for all tasks after a turn that adds no thread if it does before, and for what
the thread has to do. -/
theorem Turn.tasks_alone (h : w.Turn me expired task rest progress w')
    (hagendas : progress.world.agendas = w.agendas) (hp : w.Tasks p)
    (htodo : ∀ next ∈ progress.todo, p me next) : w'.Tasks p :=
  h.tasks_spawned (by rw [hagendas, List.append_nil]) hp htodo (by simp)

/-- What the thread has to do that a turn adds. -/
theorem Turn.agenda_spawned (h : w.Turn me expired task rest progress w') {worker : Task}
    (hagendas : progress.world.agendas = w.agendas ++ [[worker]]) :
    w'.agendas[w.threads.length]? = some [worker] := by
  have hne : me ≠ w.threads.length := Nat.ne_of_lt (w.length_agendas ▸ h.me_lt)
  rw [h.agendas, List.getElem?_modify_ne _ _ hne, hagendas, ← w.length_agendas,
    List.getElem?_concat_length]

/-- A fact holds for all tasks after a turn that adds one thread with one task if it does
before, and for what the two threads have to do. -/
theorem Turn.tasks_worker (h : w.Turn me expired task rest progress w') {worker : Task}
    (hagendas : progress.world.agendas = w.agendas ++ [[worker]]) (hp : w.Tasks p)
    (htodo : ∀ next ∈ progress.todo, p me next) (hworker : p w.threads.length worker) :
    w'.Tasks p := by
  refine h.tasks_spawned hagendas hp htodo fun j agenda hagenda next hnext => ?_
  obtain ⟨hlt, rfl⟩ := List.getElem?_eq_some_iff.mp hagenda
  obtain rfl : j = 0 := Nat.lt_one_iff.mp hlt
  obtain rfl := List.mem_singleton.mp hnext
  rwa [w.length_agendas]

/-- The fact holds for the task that is done. -/
theorem Turn.task_holds (h : w.Turn me expired task rest progress w') (hp : w.Tasks p) :
    p me task :=
  hp me _ h.agenda task (List.mem_cons_self ..)

theorem Same.tasks (h : Same w w') (hp : w.Tasks p) : w'.Tasks p := by
  unfold Tasks
  rw [h.agendas]
  exact hp

/-- Nobody but the thread `k` takes care of the life of the plugin. -/
def HeldBy (k : Nat) (i : Instance) (w : World P) : Prop :=
  w.Tasks fun j task => task.charge? = some i → j = k

/-- Nobody else takes care of the life of a plugin after a turn that summons nobody. -/
theorem HeldBy.turn {k : Nat} (hheld : w.HeldBy k i)
    (h : w.Turn me expired task rest progress w') (hsummons : task.summons? ≠ some i) :
    w'.HeldBy k i := by
  refine h.tasks hheld (fun next _ hstems hnext => ?_) fun j next _ hspawns hnext => ?_
  · obtain hnone | hsame | hsummoned := hstems.2.1
    · exact absurd (hnone.symm.trans hnext) (by simp)
    · exact h.task_holds hheld (hsame.symm.trans hnext)
    · exact absurd (hsummoned.symm.trans hnext) hsummons
  · obtain hnone | hsummoned := hspawns.2.1
    · exact absurd (hnone.symm.trans hnext) (by simp)
    · exact absurd (hsummoned.symm.trans hnext) hsummons

/-! ## The life on record -/

end World

section

variable {counts : Hook → Bool} {i : Instance} {record later : List Deed}

@[simp] theorem eventsOf_append :
    eventsOf counts i (record ++ later) = eventsOf counts i record ++ eventsOf counts i later := by
  simp [eventsOf]

@[simp] theorem eventsOf_nil : eventsOf counts i [] = [] := rfl

@[simp] theorem lifeOf_append : lifeOf i (record ++ later) = lifeOf i record ++ lifeOf i later :=
  eventsOf_append

@[simp] theorem lifeOf_nil : lifeOf i [] = [] := rfl

@[simp] theorem haltsOf_append :
    haltsOf i (record ++ later) = haltsOf i record ++ haltsOf i later := eventsOf_append

@[simp] theorem haltsOf_nil : haltsOf i [] = [] := rfl

/-- The record has nothing of a plugin none of whose hooks was called. -/
theorem eventsOf_eq_nil (h : ∀ deed ∈ record, deed.subject ≠ i) :
    eventsOf counts i record = [] := by
  rw [eventsOf, List.filter_eq_nil_iff.mpr fun deed hdeed => by simp [h deed hdeed], List.map_nil]

theorem lifeOf_eq_nil (h : ∀ deed ∈ record, deed.subject ≠ i) : lifeOf i record = [] :=
  eventsOf_eq_nil h

theorem haltsOf_eq_nil (h : ∀ deed ∈ record, deed.subject ≠ i) : haltsOf i record = [] :=
  eventsOf_eq_nil h

/-- All events of a call are about its hook. -/
theorem HookCall.hook_of_mem {call : HookCall} {upshot : Option Upshot} {event : HookEvent}
    (h : event ∈ call.events upshot) : event.hook = call.hook := by
  rcases List.mem_append.mp h with h | h
  · split at h
    · cases h
    · obtain rfl := List.mem_singleton.mp h
      rfl
  · obtain ⟨upshot, -, rfl⟩ := List.mem_map.mp h
    rfl

/-- What is on record of a call that has not ended, if it was made. -/
def Hook.entered (hook : Hook) (made : Bool) : List HookEvent :=
  if made then [.calls hook] else []

/-- A call that ends. -/
theorem Hook.entered_append_some (hook : Hook) (i : Instance) (made : Bool) (upshot : Upshot) :
    hook.entered made ++ HookCall.events ⟨i, hook, made⟩ (some upshot) = hook.call upshot := by
  cases made <;> rfl

/-- A call that waits. -/
theorem Hook.entered_append_none (hook : Hook) (i : Instance) (made : Bool) :
    hook.entered made ++ HookCall.events ⟨i, hook, made⟩ none = hook.entered true := by
  cases made <;> rfl

/-- What the record has of one call. -/
theorem eventsOf_call (counts : Hook → Bool) (i : Instance) (me : Nat) (call : HookCall)
    (upshot : Option Upshot) :
    eventsOf counts i ((call.events upshot).map fun event =>
      { thread := me, subject := call.subject, event }) =
      if call.subject = i ∧ counts call.hook = true then call.events upshot else [] := by
  have hcounts : ∀ event ∈ call.events upshot, counts event.hook = counts call.hook :=
    fun event hevent => congrArg counts (HookCall.hook_of_mem hevent)
  rw [eventsOf, List.filter_map, List.map_map, Function.comp_def]
  split
  case isTrue h =>
    rw [List.filter_eq_self.mpr fun event hevent => by simp [h, hcounts event hevent], List.map_id']
  case isFalse h =>
    rw [List.filter_eq_nil_iff.mpr fun event hevent => by simpa [hcounts event hevent] using h,
      List.map_nil]

end

namespace World

variable {w : World P} {me : Nat} {task : Task} {expired : Bool} {i : Instance}

/-- What a task adds to what the record has of some hooks of a plugin. -/
theorem eventsOf_deedsOf (counts : Hook → Bool) (i : Instance) (w : World P) (me : Nat)
    (expired : Bool) (task : Task) :
    eventsOf counts i (w.deedsOf me expired task) =
      (task.call?).elim [] fun call =>
        if call.subject = i ∧ counts call.hook = true then call.events (w.upshot? expired task)
        else [] := by
  unfold deedsOf
  cases task.call? with
  | none => rfl
  | some call => exact eventsOf_call ..

/-- What a task adds to the life of a plugin that is about a call of one of its hooks. -/
theorem lifeOf_deedsOf {hook : Hook} {made : Bool} (hcall : task.call? = some ⟨i, hook, made⟩)
    (hvital : hook.isVital = true) :
    lifeOf i (w.deedsOf me expired task) =
      HookCall.events ⟨i, hook, made⟩ (w.upshot? expired task) := by
  rw [lifeOf, eventsOf_deedsOf, hcall]
  exact if_pos ⟨rfl, hvital⟩

/-- A task that calls no hook adds nothing to the record. -/
theorem lifeOf_deedsOf_none (h : task.call? = none) :
    lifeOf i (w.deedsOf me expired task) = [] := by
  rw [lifeOf, eventsOf_deedsOf, h]
  rfl

/-- A task that does not take care of the life of a plugin adds nothing to the record of
it. -/
theorem lifeOf_deedsOf_ne (h : task.charge? ≠ some i) :
    lifeOf i (w.deedsOf me expired task) = [] := by
  rw [lifeOf, eventsOf_deedsOf]
  cases task with
  | event task => cases task <;> simp [Task.call?, Hook.isVital]
  | unit task =>
    cases task <;> simp [Task.call?] <;> exact fun hsame => absurd (congrArg some hsame) h
  | source task =>
    cases task <;> simp [Task.call?, Hook.isVital] <;>
      exact fun hsame => absurd (congrArg some hsame) h
  | _ => rfl

/-- A task that is about another plugin adds nothing to the record of it. -/
theorem haltsOf_deedsOf_ne (h : ∀ t u asked, i = .source t u → task ≠ .source (.halt t u asked)) :
    haltsOf i (w.deedsOf me expired task) = [] := by
  rw [haltsOf, eventsOf_deedsOf]
  cases task with
  | event task => cases task <;> simp [Task.call?]
  | unit task => cases task <;> simp [Task.call?]
  | source task =>
    cases task with
    | halt t u asked =>
      have hne : Instance.source t u ≠ i := fun hsame => h t u asked hsame.symm rfl
      simp [Task.call?, hne]
    | _ => simp [Task.call?]
  | _ => rfl

/-- What a thread does with a hook it does with the plugin that its task calls. -/
theorem mem_deedsOf {deed : Deed} (h : deed ∈ w.deedsOf me expired task) :
    deed.thread = me ∧ ∃ call, task.call? = some call ∧ deed.subject = call.subject ∧
      deed.event ∈ call.events (w.upshot? expired task) := by
  unfold deedsOf at h
  cases hcall : task.call? with
  | none =>
    rw [hcall] at h
    cases h
  | some call =>
    rw [hcall] at h
    obtain ⟨event, hevent, rfl⟩ := List.mem_map.mp h
    exact ⟨rfl, call, rfl, rfl, hevent⟩

/-- The end of a call is on record. -/
theorem mem_deedsOf_of_upshot {call : HookCall} {upshot : Upshot} (hcall : task.call? = some call)
    (h : w.upshot? expired task = some upshot) :
    { thread := me, subject := call.subject, event := .ends call.hook upshot } ∈
      w.deedsOf me expired task := by
  unfold deedsOf
  rw [hcall, h]
  exact List.mem_map_of_mem (by simp [HookCall.events])

/-! ## Courses -/

variable {v : World P} {before later : List (Move P)}

/-- The record of a course that begins with another one. -/
theorem record_append (h : w.follow before = some v) :
    w.record (before ++ later) = w.record before ++ v.record later := by
  induction before generalizing w with
  | nil =>
    obtain rfl := Option.some.inj h
    rfl
  | cons move before ih =>
    obtain ⟨z, hmove, hbefore⟩ := Option.bind_eq_some_iff.mp h
    simp only [List.cons_append, record, hmove, Option.elim_some, List.append_assoc, ih hbefore]

/-- What is started on a course that begins with another one. -/
theorem started_append (h : w.follow before = some v) :
    w.started (before ++ later) = w.started before ++ v.started later := by
  induction before generalizing w with
  | nil =>
    obtain rfl := Option.some.inj h
    rfl
  | cons move before ih =>
    obtain ⟨z, hmove, hbefore⟩ := Option.bind_eq_some_iff.mp h
    simp only [List.cons_append, started, hmove, Option.elim_some, List.append_assoc, ih hbefore]

/-- A thread that is not back yet stays away with the first move of a course. -/
theorem StaysAway.cons {rest : List Task} {move : Move P} {moves : List (Move P)}
    (hback : ¬ w.IsBack me rest) (hmove : w.move move = some v) (h : StaysAway me rest v moves) :
    StaysAway me rest w (move :: moves) := by
  refine ⟨fun _ => hback, fun z hz => ?_⟩
  obtain rfl : v = z := Option.some.inj (hmove.symm.trans hz)
  exact h

/-- What is not started on a course is not started with its first move. -/
theorem starts?_ne {move : Move P} (h : i ∉ w.started (move :: later)) :
    w.starts? move ≠ some i := by
  intro hstarts
  rw [started, hstarts] at h
  exact h (by simp)

/-- What is not started on a course is not started after its first move. -/
theorem not_started_tail {move : Move P} (h : i ∉ w.started (move :: later))
    (hmove : w.move move = some v) : i ∉ v.started later := by
  rw [started, hmove, Option.elim_some] at h
  exact fun hlater => h (List.mem_append_right _ hlater)

end World
end EventPipeline
