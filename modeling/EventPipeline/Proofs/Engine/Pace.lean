import EventPipeline.Proofs.Engine.Sequence

/-!
# `EventPipeline.Proofs.Engine.Pace`: a stream keeps pace with its line

A world keeps pace with a line (`InStep`) if the line is what the line of the world becomes
once all agendas are completed. A step moves a task from the agendas into the world, and
what is left completes to the same line; only when the source emits an event, the line
takes one more event as well.

From the moment the main thread finishes the first processor the two are no longer in step,
since lines finish nothing. But then all events have come to their ends (`Ended`), and
nothing that shows changes any more. `Tracks.move` puts the two together.
-/

set_option autoImplicit false

namespace EventPipeline

variable {P : Plugins} {k : Nat}

namespace World

variable {w w' : World P} {me : Nat} {output : Bool} {run : List P.Shared → Line P}
  {task : Task} {rest todo : List Task} {spawned : List (List Task)} {progress : Progress P}

/-- The world keeps pace with a line, which depends on what plugins share at the calls of
processors that are to come. -/
structure InStep (w : World P) (k : Nat) (output : Bool) (run : List P.Shared → Line P)
    (wake : Wake) : Prop where
  keeps : w.Keeps output wake
  line : ∀ supply, run supply = (w.line wake supply).complete k w.agendas.flatten

/-- All events have come to their ends, nobody makes new ones, and the world shows the same
as a line. -/
structure Ended (w : World P) (output : Bool) (line : Line P) : Prop where
  main : ∀ agenda, w.agendas[0]? = some agenda → ∀ task ∈ agenda, task.stops = true
  workers : ∀ i agenda, w.agendas[i + 1]? = some agenda → agenda = []
  shows : w.Shows output line

/-- The world keeps pace with a line, or it shows the same as the line and will do so. -/
inductive Tracks (w : World P) (k : Nat) (output : Bool) (run : List P.Shared → Line P) : Prop
  | inStep (wake : Wake) (h : w.InStep k output run wake)
  | ended (h : w.Ended output (run []))

/-! ## What a step of a thread leaves -/

/-- Nothing that concerns events depends on what threads have to do. -/
theorem silent_resume (progress : Progress P) (me : Nat) :
    Silent progress.world (progress.resume me) := by
  cases progress <;> exact Silent.refl.changeThread ..

/-- The agendas after the last task of a thread. -/
theorem agendas_resume_last (hagendas : progress.world.agendas = w.agendas)
    (hme : w.agendas[me]? = some [task]) :
    (progress.resume me).agendas = w.agendas.modify me fun _ => progress.todo := by
  cases progress with
  | goOn v todo =>
    obtain ⟨before, after, -, -, hmodify⟩ := exists_append_of_getElem? hme
    rw [agendas_resume, show v.agendas = w.agendas from hagendas, hmodify, hmodify]
    simp [Progress.todo]
  | breakDown v text =>
    rw [← hagendas]
    exact agendas_breakDown rfl

namespace InStep

variable {wake : Wake}

/-- A step on the way of an event, or one that makes a processor ready. Before its thread no
thread has anything to do in a line. -/
theorem completes {v : World P} (h : w.InStep k output run wake)
    (hme : w.agendas[me]? = some (task :: rest))
    (hidle : ∀ (i : Nat) other, w.agendas[i]? = some other → i < me →
      ∀ task ∈ other, task.isIdle k = true)
    (hcompletes : w.Completes k output task (.goOn v todo)) (hagendas : v.agendas = w.agendas) :
    ∃ later, ((Progress.goOn v todo).resume me).InStep k output
      (fun supply => run (task.sees w ++ supply)) later := by
  obtain ⟨later, hkeeps, htodo⟩ := hcompletes
  refine ⟨later wake, (hkeeps wake h.keeps).silent (silent_resume _ me), fun supply => ?_⟩
  rw [h.line, agendas_resume, hagendas, (silent_resume _ me).line_eq,
    Line.complete_flatten_step hme hidle (htodo wake supply)]
  rfl

/-- A step that concerns no event, whose further tasks do the same in every line as its
task. New threads have nothing to do in a line. -/
theorem silent {v : World P} (h : w.InStep k output run wake)
    (hme : w.agendas[me]? = some (task :: rest)) (hsilent : Silent w v)
    (hagendas : v.agendas = w.agendas ++ spawned)
    (hspawned : ∀ agenda ∈ spawned, ∀ task ∈ agenda, task.isIdle k = true)
    (htodo : ∀ line : Line P, line.complete k todo = task.complete k line) :
    ((Progress.goOn v todo).resume me).InStep k output run wake := by
  have hlater := hsilent.trans (silent_resume (.goOn v todo) me)
  refine ⟨h.keeps.silent hlater, fun supply => ?_⟩
  have hlength : me < w.agendas.length := (List.getElem?_eq_some_iff.mp hme).1
  rw [h.line, agendas_resume, hagendas, hlater.line_eq, Line.complete_flatten_replace
    (by rw [List.getElem?_append_left hlength, hme]) htodo, List.flatten_append,
    Line.complete_append]
  refine (Line.complete_of_idle fun task htask => ?_).symm
  obtain ⟨agenda, hagenda, htask⟩ := List.mem_flatten.mp htask
  exact hspawned agenda hagenda task htask

/-- The last task of a thread, when no thread has anything to do in a line. -/
theorem last (h : w.InStep k output run wake) (hme : w.agendas[me]? = some [task])
    (hidle : ∀ (i : Nat) other, w.agendas[i]? = some other →
      ∀ task ∈ other, task.isIdle k = true)
    (hsilent : Silent w progress.world) (hagendas : progress.world.agendas = w.agendas) :
    (progress.resume me).InStep k output
      (fun supply => (run supply).complete k progress.todo) wake := by
  have hlater := hsilent.trans (silent_resume progress me)
  refine ⟨h.keeps.silent hlater, fun supply => ?_⟩
  obtain ⟨before, after, heq, -, hmodify⟩ := exists_append_of_getElem? hme
  have hside (side : List (List Task)) (hside : ∀ other ∈ side, other ∈ w.agendas)
      (line : Line P) : line.complete k side.flatten = line := by
    refine Line.complete_of_idle fun task htask => ?_
    obtain ⟨other, hother, htask⟩ := List.mem_flatten.mp htask
    obtain ⟨i, hi⟩ := List.mem_iff_getElem?.mp (hside other hother)
    exact hidle i other hi task htask
  rw [h.line, agendas_resume_last hagendas hme, hlater.line_eq, hmodify,
    hside w.agendas fun _ h => h]
  simp only [List.flatten_append, List.flatten_cons, Line.complete_append]
  rw [hside before fun other hother => by simp [heq, hother],
    hside after fun other hother => by simp [heq, hother]]

end InStep

/-! ## Moves and what they show -/

section

variable {thread : Thread}

/-- What plugins share at a step is what its task sees. -/
theorem sees?_step (hthread : w.threads[me]? = some thread)
    (hagenda : thread.agenda = task :: rest) : (w.sees? (.step me)).toList = task.sees w := by
  simp only [sees?, hthread, hagenda, Option.bind_eq_bind, Option.bind_some]
  cases task with
  | event task => cases task <;> rfl
  | unit task => cases task <;> rfl
  | _ => rfl

/-- Only the loop of a source emits events. -/
theorem emits?_step (hthread : w.threads[me]? = some thread)
    (hagenda : thread.agenda = task :: rest) (howner : task.owner? = none) :
    w.emits? (.step me) = none := by
  simp only [emits?, hthread, hagenda, Option.bind_eq_bind, Option.bind_some]
  cases task with
  | source task => cases task <;> first | rfl | simp [Task.owner?] at howner
  | _ => rfl

/-- What the loop of a source does next is to make the event that it emits. -/
theorem emits?_loop {t v : Nat} (hthread : w.threads[me]? = some thread)
    (hagenda : thread.agenda = task :: rest) (howner : task.owner? = some (.source t v))
    (h : w.perform me (w.expired thread) task = some progress) (line : Line P) :
    line.complete k progress.todo = line.makeAll (w.emits? (.step me)).toList := by
  cases task with
  | source task =>
    simp only [emits?, hthread, hagenda, Option.bind_eq_bind, Option.bind_some]
    cases task with
    | prepare t v l asked =>
      simp only [perform, performSource, prepareSource, Option.bind_eq_bind,
        Option.bind_eq_some_iff] at h
      obtain ⟨unit, -, ⟨reply, called⟩, -, h⟩ := h
      cases reply with
      | waiting limit =>
        dsimp only at h
        split at h
        · simp at h
        · obtain rfl := Option.some.inj h
          rfl
      | panicked text | failed error =>
        obtain rfl := Option.some.inj h
        rfl
      | returned =>
        obtain ⟨launch, -, h⟩ := Option.bind_eq_some_iff.mp h
        obtain rfl := Option.some.inj h
        rfl
    | begin t v l delivered =>
      simp only [perform, performSource, beginSource, Option.bind_eq_bind,
        Option.bind_eq_some_iff] at h
      obtain ⟨launch, -, h⟩ := h
      split at h <;>
      · obtain rfl := Option.some.inj h
        rfl
    | advance t v made resting =>
      simp only [perform, performSource, advanceSource, Option.bind_eq_bind,
        Option.bind_eq_some_iff] at h
      obtain ⟨unit, -, ⟨reply, called⟩, hcall, h⟩ := h
      dsimp only
      rw [hcall]
      cases reply with
      | waiting limit =>
        dsimp only at h
        split at h
        · simp at h
        · obtain rfl := Option.some.inj h
          rfl
      | panicked text | failed error =>
        obtain rfl := Option.some.inj h
        rfl
      | returned move =>
        cases move <;>
        · obtain rfl := Option.some.inj h
          rfl
    | finish t v asked =>
      simp only [perform, performSource, finishSource, Option.bind_eq_bind,
        Option.bind_eq_some_iff] at h
      obtain ⟨⟨reply, called⟩, -, h⟩ := h
      cases reply with
      | waiting limit =>
        dsimp only at h
        split at h
        · simp at h
        · obtain rfl := Option.some.inj h
          rfl
      | panicked text | failed error | returned =>
        obtain rfl := Option.some.inj h
        rfl
    | _ => simp [Task.owner?] at howner
  | unit task => cases task <;> simp [Task.owner?] at howner
  | _ => simp [Task.owner?] at howner

/-- The task of a loop sees nothing of what plugins share. -/
theorem sees_of_owner {owner : Owner} (howner : task.owner? = some owner) : task.sees w = [] := by
  cases task with
  | unit task => cases task <;> first | rfl | simp [Task.owner?] at howner
  | source task => rfl
  | _ => simp [Task.owner?] at howner

/-- A task that is part of a stop sees nothing of what plugins share. -/
theorem sees_of_stops (hstops : task.stops = true) : task.sees w = [] := by
  cases task with
  | event task => cases task <;> first | rfl | simp [Task.stops] at hstops
  | unit task => cases task <;> first | rfl | simp [Task.stops] at hstops
  | _ => rfl

/-- A silent task sees nothing of what plugins share. -/
theorem sees_of_silent (hsilent : task.isSilent = true) : task.sees w = [] := by
  cases task with
  | event => simp [Task.isSilent] at hsilent
  | unit task => cases task <;> first | rfl | simp [Task.isSilent] at hsilent
  | _ => rfl

end

/-- The line that a world keeps pace with after a move. -/
def runAfter (w : World P) (m : Move P) (run : List P.Shared → Line P) :
    List P.Shared → Line P :=
  fun supply => (run ((w.sees? m).toList ++ supply)).makeAll (w.emits? m).toList

/-! ## Steps of workers -/

variable {L : Layout} {s i : Nat} {goal position : Position} {ended : Nat → Nat}
  {thread worker : Thread} {wake : Wake}

/-- A step on the way of an event makes the stream go on in step. -/
theorem InStep.step_event {task : EventTask} (hsequential : L.IsSequential)
    (hchain : L.IsChain (if output then .output true else .tail))
    (hc : w.OnCourse L s goal ended thread position) (hworker : w.threads[i + 1]? = some worker)
    (hagenda : worker.agenda = .event task :: rest)
    (hperform : w.perform (i + 1) (w.expired worker) (.event task) = some progress)
    (h : w.InStep L.nodes.length output run wake) :
    ∃ later, (progress.resume (i + 1)).InStep L.nodes.length output
      (fun supply => run (Task.sees w (.event task) ++ supply)) later := by
  have hme : w.agendas[i + 1]? = some (.event task :: rest) := by
    simp [agendas, hworker, hagenda]
  have hlayout := hc.order.layout
  have hlength : w.nodes.length = L.nodes.length := by
    rw [← hlayout, Outline.length_layout, outline, List.length_map]
  obtain ⟨loop, owner, rank, -, -, -, hrank, -, -⟩ := hc.order.of_event hme
  have hcompletes : w.Completes L.nodes.length output (.event task) progress := by
    refine performEvent_completes hlength (hlayout ▸ hsequential) (hlayout ▸ hchain) hrank
      ?_ ?_ hperform
    · rintro n u event rfl unit hunit
      have hup := hc.order.units n u unit hunit
      rw [hc.order.phase_eq_up hme rfl (hc.order.unit_lt hunit)] at hup
      exact hup.1
    · rintro n u event rfl
      have hqueued := hc.order.sends i _ n u event hme (by simp)
      simp [hsequential.isQueued_eq] at hqueued
  have hagendas : progress.world.agendas = w.agendas := by
    obtain ⟨-, threads, -⟩ := performEvent_handles hperform
    exact agendas_congr threads
  cases hcompletes with
  | goOn later hkeeps htodo =>
    refine h.completes hme (fun j other hother hj => ?_) (.goOn later hkeeps htodo) hagendas
    exact hc.idle_others hsequential hme (by simp) hother (by omega)

/-- A turn of the loop of the source makes the stream go on in step. -/
theorem InStep.step_loop (hsequential : L.IsSequential)
    (hc : w.OnCourse L s goal ended thread position) (hworker : w.threads[i + 1]? = some worker)
    (hagenda : worker.agenda = [task]) (howner : task.owner? = some (.source 0 0))
    (hperform : w.perform (i + 1) (w.expired worker) task = some progress)
    (h : w.InStep L.nodes.length output run wake) :
    (progress.resume (i + 1)).InStep L.nodes.length output
      (fun supply => (run supply).makeAll (w.emits? (.step (i + 1))).toList) wake := by
  have hme : w.agendas[i + 1]? = some [task] := by simp [agendas, hworker, hagenda]
  have hsilent : task.isSilent = true := by
    cases task with
    | unit task => cases task <;> simp [Task.owner?] at howner
    | source => rfl
    | _ => simp [Task.owner?] at howner
  have hagendas : progress.world.agendas = w.agendas := by
    obtain ⟨-, threads, -⟩ | hturns := loop_turns howner hperform
    · exact agendas_congr threads
    · cases hturns with
      | goOn _ threads | breakDown _ _ threads => exact agendas_congr threads
  simp only [← emits?_loop hworker hagenda howner hperform (k := L.nodes.length)]
  refine h.last hme (fun j other hother => ?_) (perform_silent hsilent hperform) hagendas
  by_cases hj : j = i + 1
  · subst hj
    obtain rfl : [task] = other := by simpa [hme] using hother
    simpa using Task.isIdle_of_owner howner
  · exact hc.idle_others hsequential hme (by simp) hother hj

/-- A step of a worker makes the stream go on in step. -/
theorem InStep.step_worker (hsequential : L.IsSequential)
    (hchain : L.IsChain (if output then .output true else .tail))
    (hc : w.OnCourse L s goal ended thread position) (hworker : w.threads[i + 1]? = some worker)
    (hagenda : worker.agenda = task :: rest)
    (hperform : w.perform (i + 1) (w.expired worker) task = some progress)
    (h : w.InStep L.nodes.length output run wake) :
    ∃ later, (progress.resume (i + 1)).InStep L.nodes.length output
      (w.runAfter (.step (i + 1)) run) later := by
  have hme : w.agendas[i + 1]? = some (task :: rest) := by simp [agendas, hworker, hagenda]
  unfold runAfter
  rw [sees?_step hworker hagenda]
  obtain ⟨loop, source, hshaped, howner, -, -⟩ := hc.works_for_source hsequential hme (by simp)
  obtain ⟨hloop, rfl, -⟩ | ⟨last, owner, -, -, hfollows, -, -⟩ := hshaped.cons_cases
  · obtain rfl := Option.some.inj hloop
    rw [sees_of_owner howner]
    exact ⟨wake, h.step_loop hsequential hc hworker hagenda howner hperform⟩
  · have hnone : task.owner? = none := by
      cases task <;> first | rfl | exact hfollows.elim
    rw [emits?_step hworker hagenda hnone]
    cases task with
    | event task => exact h.step_event hsequential hchain hc hworker hagenda hperform
    | answer answer =>
      obtain rfl : _ = progress := by simpa [perform, done] using hperform
      exact ⟨wake, h.silent hme (Silent.refl.changeThread ..)
        ((agendas_answer ..).trans (List.append_nil _).symm) (by simp) fun _ => rfl⟩
    | _ => exact hfollows.elim

/-! ## Steps of the main thread -/

/-- When no thread has anything to do in a line, the world shows the same as the line that it
keeps pace with. -/
theorem InStep.shows (h : w.InStep k output run wake)
    (hidle : ∀ (i : Nat) other, w.agendas[i]? = some other →
      ∀ task ∈ other, task.isIdle k = true) : w.Shows output (run []) := by
  rw [h.line, Line.complete_flatten_of_idle hidle]
  exact ⟨h.keeps.exits, rfl, h.keeps.told, (List.map_map ..).symm⟩

/-- A task that is part of a stop belongs to no loop. -/
theorem owner?_of_stops (hstops : task.stops = true) : task.owner? = none := by
  cases task with
  | unit task => cases task <;> first | rfl | simp [Task.stops] at hstops
  | source task => cases task <;> first | rfl | simp [Task.stops] at hstops
  | _ => rfl

/-- A task that is part of a stop does not show. -/
theorem Shows.stop {expired : Bool} {line : Line P} (hshows : w.Shows output line)
    (hstops : task.stops = true) (hperform : w.perform me expired task = some progress) :
    progress.world.Shows output line := by
  cases task with
  | event task =>
    cases task with
    | occupy n u =>
      obtain ⟨w', rfl, hsilent⟩ := occupy_silent hperform
      exact hsilent.shows hshows
    | _ => simp [Task.stops] at hstops
  | unit task =>
    cases task with
    | finishInline n u asked => exact hshows.finishInline hperform
    | prepareInline | prepareWorker | receive | finishWorker => simp [Task.stops] at hstops
    | _ => exact (perform_silent rfl hperform).shows hshows
  | source task | stream task | answer task => exact (perform_silent rfl hperform).shows hshows
  | control | timer => simp [Task.stops] at hstops

/-- A task that is part of a stop leads to nothing but others that are. -/
theorem todo_of_stops {expired : Bool} (hstops : task.stops = true)
    (hperform : w.perform me expired task = some progress) :
    progress.world.agendas = w.agendas ∧ ∀ later ∈ progress.todo, later.stops = true := by
  have hplain : task.isPlain = true := by
    cases task <;> first | rfl | simp [Task.stops] at hstops
  obtain hhandles | hturns | hconducts | ⟨answer, rfl, rfl⟩ := perform_cases hplain hperform
  · obtain @⟨v, todo, handles, threads, -⟩ := hhandles
    refine ⟨agendas_congr threads, ?_⟩
    generalize w.endedBy? task = e, v.outline = o at handles
    cases handles with
    | occupy => simp [Progress.todo]
    | _ => simp [Task.stops] at hstops
  · have hnone := owner?_of_stops hstops
    cases hturns with
    | goOn turns =>
      obtain ⟨owner, howner⟩ := turns.exists_owner
      simp [hnone] at howner
    | breakDown howner => simp [hnone] at howner
  · cases hconducts with
    | goOn conducts threads =>
      obtain ⟨rfl, htodo⟩ := conducts.stops hstops
      exact ⟨agendas_congr (threads.trans (by simp)), htodo⟩
    | breakDown halts threads => exact ⟨agendas_congr threads, by simp [Progress.todo]⟩
  · exact ⟨agendas_answer .., by simp [Progress.todo]⟩

/-- If the main thread breaks down, it is doomed. -/
theorem isDoomed_of_breakDown {v : World P} {text : String} {agenda : List Task}
    (h : v.agendas[0]? = some agenda) : ((Progress.breakDown v text).resume 0).IsDoomed := by
  obtain ⟨main, h, -⟩ := exists_thread h
  refine ⟨main.breakDown text v.clock, ?_, .broken (by simp [Thread.breakDown])⟩
  simp [Progress.resume, changeThread, List.getElem?_modify_eq, h]

/-- Stopping a stream does not show once all events have come to their ends. -/
theorem Ended.step_main {line : Line P} (hthread : w.threads[0]? = some thread)
    (hagenda : thread.agenda = task :: rest)
    (hperform : w.perform 0 (w.expired thread) task = some progress)
    (hgood : ¬ (progress.resume 0).IsDoomed) (h : w.Ended output line) :
    (progress.resume 0).Ended output line := by
  have hmain : w.agendas[0]? = some (task :: rest) := by simp [agendas, hthread, hagenda]
  have hstops := h.main _ hmain
  have hshows := h.shows.stop (hstops task (by simp)) hperform
  obtain ⟨hagendas, htodo⟩ := todo_of_stops (hstops task (by simp)) hperform
  cases progress with
  | breakDown v text => exact absurd (isDoomed_of_breakDown (hagendas ▸ hmain)) hgood
  | goOn v todo =>
    have hlater : ((Progress.goOn v todo).resume 0).agendas =
        w.agendas.modify 0 (todo ++ ·.tail) := by
      rw [agendas_resume, show v.agendas = w.agendas from hagendas]
    refine ⟨fun agenda hagenda later hlater' => ?_, fun i agenda hagenda => ?_,
      (silent_resume _ 0).shows hshows⟩
    · rw [hlater, List.getElem?_modify_eq, hmain] at hagenda
      obtain rfl : todo ++ rest = agenda := by simpa using hagenda
      rcases List.mem_append.mp hlater' with hlater' | hlater'
      · exact htodo later hlater'
      · exact hstops later (by simp [hlater'])
    · rw [hlater, List.getElem?_modify_ne _ _ (by omega)] at hagenda
      exact h.workers i agenda hagenda

/-- Handling an event is not silent. -/
theorem not_silent_of_handles {o o' : Outline} {e : Option Nat}
    (h : o.Handles task e o' todo) : task.isSilent = false := by
  cases h <;> rfl

/-- What the main thread does is silent, unless it calls a processor or waits for one. -/
theorem isSilent_of_leads {before after : Position} (hleads : Leads L s task before after) :
    task.isSilent = true ∨ (∃ n u, task = .event (.occupy n u)) ∨
      (∃ n u asked, task = .unit (.prepareInline n u asked)) ∨
      ∃ n u asked, task = .unit (.finishInline n u asked) := by
  cases hleads with
  | keep hk =>
    cases task with
    | event task => cases task <;> first | simp [Task.keeps] at hk; done | simp
    | unit task => cases task <;> first | simp [Task.keeps] at hk; done | simp [Task.isSilent]
    | source | stream | answer => exact .inl rfl
    | control | timer => simp [Task.keeps] at hk
  | prepareInline n u asked => exact .inr (.inr (.inl ⟨n, u, asked, rfl⟩))
  | finishInline n u asked => exact .inr (.inr (.inr ⟨n, u, asked, rfl⟩))
  | _ => exact .inl rfl

/-- When the main thread finishes a processor, all events have come to their ends. -/
theorem InStep.finishing {n u : Nat} {asked : Bool} {expired : Bool} (hsequential : L.IsSequential)
    (hc : w.OnCourse L s goal ended thread position)
    (hagenda : thread.agenda = .unit (.finishInline n u asked) :: rest)
    (hperform : w.perform 0 expired (.unit (.finishInline n u asked)) = some progress)
    (h : w.InStep L.nodes.length output run wake) : w.Ended output (run []) := by
  obtain ⟨unit, hunit, -⟩ := Option.bind_eq_some_iff.mp
    (show w.finishInline n u asked = some progress from hperform)
  have hu : u < L.units n := hc.order.unit_lt (show w.outline.unit? n u = some unit.outline by
    rw [outline_unit?, hunit]
    rfl)
  obtain ⟨before, after, hsame, hleads, -⟩ := (hagenda ▸ hc.plan).cons_inv
  have hstopped : position.phase n u = .stopped := by
    rw [hsame.phase n u hu]
    cases hleads with
    | keep hk => simp [Task.keeps] at hk
    | finishInline => simp [Position.phase]
  have hstops := hc.plan.stops hu hstopped
  have hmain : w.agendas[0]? = some thread.agenda := by simp [agendas, hc.main]
  have hworkers (i : Nat) (agenda : List Task) (hi : w.agendas[i + 1]? = some agenda) :
      agenda = [] := hc.agenda_eq_nil hsequential hstopped hi
  refine ⟨fun agenda hagenda => ?_, hworkers, h.shows fun i other hother task htask => ?_⟩
  · obtain rfl : thread.agenda = agenda := by simpa [hmain] using hagenda
    exact hstops
  · cases i with
    | zero =>
      obtain rfl : thread.agenda = other := by simpa [hmain] using hother
      exact Task.isIdle_of_stops (hstops task htask)
    | succ i => simp [hworkers i other hother] at htask

/-- A step of the main thread that makes a processor ready makes the stream go on in step. -/
theorem InStep.step_prepare {n u : Nat} {asked expired : Bool} (hsequential : L.IsSequential)
    (hc : w.OnCourse L s goal ended thread position)
    (hagenda : thread.agenda = .unit (.prepareInline n u asked) :: rest)
    (hperform : w.perform 0 expired (.unit (.prepareInline n u asked)) = some progress)
    (h : w.InStep L.nodes.length output run wake) :
    ∃ later, (progress.resume 0).InStep L.nodes.length output
      (fun supply => run (Task.sees w (.unit (.prepareInline n u asked)) ++ supply)) later := by
  have hme : w.agendas[0]? = some (.unit (.prepareInline n u asked) :: rest) := by
    simp [agendas, hc.main, hagenda]
  have hcompletes : w.Completes L.nodes.length output (.unit (.prepareInline n u asked)) progress :=
    prepareInline_completes (hc.order.layout ▸ hsequential) hperform
  have hagendas : progress.world.agendas = w.agendas := by
    have hconducts : w.ConductsTask 0 (.unit (.prepareInline n u asked)) progress :=
      prepareInline_conducts hperform
    cases hconducts with
    | goOn conducts threads =>
      have hspawned : _ = [] := conducts.spawned_of_prepareInline
      exact agendas_congr (threads.trans (by simp [hspawned]))
    | breakDown halts => simp at halts
  cases hcompletes with
  | goOn later hkeeps htodo =>
    exact h.completes hme (fun j other _ hj => absurd hj (by omega)) (.goOn later hkeeps htodo)
      hagendas

/-- A silent step of the main thread makes the stream go on in step, unless it dooms the main
thread. -/
theorem InStep.step_silent {goal' position' before after : Position} {ended' : Nat → Nat}
    {main : Thread} (hsequential : L.IsSequential)
    (hc : w.OnCourse L s goal ended thread position) (hagenda : thread.agenda = task :: rest)
    (hsilent : task.isSilent = true) (hleads : Leads L s task before after)
    (hperform : w.perform 0 (w.expired thread) task = some progress)
    (hgood : ¬ (progress.resume 0).IsDoomed)
    (hc' : (progress.resume 0).OnCourse L s goal' ended' main position')
    (h : w.InStep L.nodes.length output run wake) :
    (progress.resume 0).InStep L.nodes.length output run wake := by
  have hme : w.agendas[0]? = some (task :: rest) := by simp [agendas, hc.main, hagenda]
  have hworld := perform_silent hsilent hperform
  have hplain : task.isPlain = true := by
    cases task <;> first | rfl | simp [Task.isSilent] at hsilent
  obtain ⟨handles, -, -⟩ | hturns | hconducts | ⟨answer, rfl, rfl⟩ :=
    perform_cases hplain hperform
  · simp [not_silent_of_handles handles] at hsilent
  · have hnone := hleads.owner?_eq
    cases hturns with
    | goOn turns =>
      obtain ⟨owner, howner⟩ := turns.exists_owner
      simp [hnone] at howner
    | breakDown howner => simp [hnone] at howner
  · cases hconducts with
    | breakDown halts threads =>
      exact absurd (isDoomed_of_breakDown (agendas_congr threads ▸ hme)) hgood
    | @goOn v todo spawned conducts threads =>
      have hagendas : v.agendas = w.agendas ++ spawned := by
        simp [agendas, threads, Function.comp_def]
      have hlater : ((Progress.goOn v todo).resume 0).agendas[0]? = some (todo ++ rest) := by
        rw [agendas_resume, List.getElem?_modify_eq, hagendas,
          List.getElem?_append_left (List.getElem?_eq_some_iff.mp hme).1, hme]
        rfl
      have htodo (error : StreamError) : .answer (.failed error) ∉ todo := fun hfailed => by
        have hmain : main.agenda = todo ++ rest := by simpa [agendas, hc'.main] using hlater
        exact hc'.plan.not_failed error (by simp [hmain, hfailed])
      exact h.silent hme hworld hagendas conducts.idle_spawned
        (conducts.complete_eq hsilent hleads hc.order.layout hsequential hc.records htodo)
  · exact h.silent hme hworld ((agendas_answer ..).trans (List.append_nil _).symm) (by simp)
      fun _ => rfl

/-- A step of the main thread keeps pace with the line, unless it dooms the main thread. -/
theorem Tracks.step_main {goal' position' : Position} {ended' : Nat → Nat} {main : Thread}
    (hsequential : L.IsSequential) (hc : w.OnCourse L s goal ended thread position)
    (hagenda : thread.agenda = task :: rest)
    (hperform : w.perform 0 (w.expired thread) task = some progress)
    (hgood : ¬ (progress.resume 0).IsDoomed)
    (hc' : (progress.resume 0).OnCourse L s goal' ended' main position')
    (h : w.Tracks L.nodes.length output run) :
    (progress.resume 0).Tracks L.nodes.length output (w.runAfter (.step 0) run) := by
  have hwhole := hc.plan
  rw [hagenda] at hwhole
  obtain ⟨before, after, hsame, hleads, -⟩ := hwhole.cons_inv
  have hme : w.agendas[0]? = some (task :: rest) := by simp [agendas, hc.main, hagenda]
  unfold runAfter
  rw [sees?_step hc.main hagenda, emits?_step hc.main hagenda hleads.owner?_eq]
  cases h with
  | ended h =>
    have hstops := h.main _ hme task (by simp)
    rw [sees_of_stops hstops]
    exact .ended (h.step_main hc.main hagenda hperform hgood)
  | inStep wake h =>
    obtain hsilent | ⟨n, u, rfl⟩ | ⟨n, u, asked, rfl⟩ | ⟨n, u, asked, rfl⟩ :=
      isSilent_of_leads hleads
    · rw [sees_of_silent hsilent]
      exact .inStep wake (h.step_silent hsequential hc hagenda hsilent hleads hperform hgood hc')
    · obtain ⟨v, rfl, hsilent⟩ := occupy_silent hperform
      obtain ⟨hagendas, -⟩ := todo_of_stops rfl hperform
      exact .inStep wake (h.silent hme hsilent (hagendas.trans (List.append_nil _).symm)
        (by simp) fun _ => rfl)
    · obtain ⟨later, h⟩ := h.step_prepare hsequential hc hagenda hperform
      exact .inStep later h
    · exact .ended ((h.finishing hsequential hc hagenda hperform).step_main hc.main hagenda
        hperform hgood)

/-! ## Courses -/

/-- Every move keeps pace with the line, unless the main thread is doomed after it. -/
theorem Tracks.move {m : Move P} (hsequential : L.IsSequential)
    (hchain : L.IsChain (if output then .output true else .tail)) (hplain : w.Plain)
    (hc : w.OnCourse L s goal ended thread position) (h : w.move m = some w')
    (hgood : ¬ w'.IsDoomed) (ht : w.Tracks L.nodes.length output run) :
    w'.Tracks L.nodes.length output (w.runAfter m run) := by
  cases m with
  | pass nanos | outside change =>
    obtain rfl := Option.some.inj h
    cases ht with
    | inStep wake h => exact .inStep wake ⟨⟨h.keeps.exits, h.keeps.told⟩, h.line⟩
    | ended h =>
      exact .ended ⟨h.main, h.workers, h.shows.exits, h.shows.fates, h.shows.told, h.shows.counts⟩
  | step me =>
    obtain ⟨worker, task, rest, progress, hworker, hagenda, hperform, rfl⟩ := step_perform h
    cases me with
    | zero =>
      obtain rfl : thread = worker := by simpa [hc.main] using hworker
      cases (Fares.onCourse hc).move hchain hplain h with
      | doomed hdoomed => exact absurd hdoomed hgood
      | onCourse hc' => exact ht.step_main hsequential hc hagenda hperform hgood hc'
    | succ i =>
      cases ht with
      | inStep wake h =>
        obtain ⟨later, h⟩ := h.step_worker hsequential hchain hc hworker hagenda hperform
        exact .inStep later h
      | ended h =>
        have hnil := h.workers i _ (by simp [agendas, hworker] : _ = some worker.agenda)
        simp [hagenda] at hnil

/-- Every course keeps pace with the line, unless the main thread is doomed after it. -/
theorem Tracks.follow {moves : List (Move P)} (hsequential : L.IsSequential)
    (hchain : L.IsChain (if output then .output true else .tail)) (hplain : w.Plain)
    (hf : w.Fares L s goal ended) (h : w.follow moves = some w') (hgood : ¬ w'.IsDoomed)
    (ht : w.Tracks L.nodes.length output run) :
    w'.Tracks L.nodes.length output
      fun supply => (run (w.seen moves ++ supply)).makeAll (w.emitted moves) := by
  induction moves generalizing w ended run with
  | nil =>
    obtain rfl := Option.some.inj h
    exact ht
  | cons m moves ih =>
    obtain ⟨v, hv, h⟩ := Option.bind_eq_some_iff.mp h
    have hplain' := hplain.move hv
    have hgood' : ¬ v.IsDoomed := fun hdoomed => hgood (hdoomed.follow hplain' h)
    cases hf with
    | doomed hdoomed => exact absurd (hdoomed.move hplain hv) hgood'
    | onCourse hc =>
      have hf' := (Fares.onCourse hc).move hchain hplain hv
      have hlater := ih hplain' hf' h (ht.move hsequential hchain hplain hc hv hgood')
      simpa only [runAfter, seen, emitted, hv, Option.elim_some, List.append_assoc,
        Line.makeAll, List.foldl_append] using hlater

end World
end EventPipeline
