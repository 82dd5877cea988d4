import EventPipeline.Proofs.Engine.Handling

/-!
# `EventPipeline.Proofs.Engine.Workers`: what worker threads have to do

Every thread but the main one works for a queued unit or for a source. At the end of its
agenda stands the one task of its loop; before it stands what is left of the way of one
event. `Shaped` says so, and that the event is on its way down: a task for a node has a
rank, and no rank is below the place of the unit or the source that sent the event.

`Outline.Turns` lists what the task of a loop can do, in outline, and `loop_turns` shows
that the steps of a world do nothing else.
-/

set_option autoImplicit false

namespace EventPipeline

/-- Whom a worker thread works for. -/
inductive Owner where
  | worker (node unit : Nat)
  | source (trigger unit : Nat)

/-- Whom the task of a loop belongs to. -/
def Task.owner? : Task → Option Owner
  | .unit (.prepareWorker n u _) | .unit (.receive n u) | .unit (.checkDismissed n u)
  | .unit (.finishWorker n u _) => some (.worker n u)
  | .source (.prepare t v _ _) | .source (.begin t v _ _) | .source (.advance t v _ _)
  | .source (.finish t v _) => some (.source t v)
  | _ => none

/-- The lowest rank of a task on the way of an event that an owner sends. -/
def Owner.floor : Owner → Nat
  | .worker n _ => 2 * n + 2
  | .source .. => 0

/-- How far down a task is on the way of an event, if triggers make the events. -/
def EventTask.rank? : EventTask → Option Nat
  | .make (.node _) _ _ => none
  | .make (.trigger _) _ _ | .emit (.trigger _) _ | .leave (.trigger _) => some 0
  | .enter n _ | .offer n _ _ | .send n _ _ | .occupy n _ => some (2 * n + 1)
  | .process n _ _ _ | .settle n _ | .emit (.node n) _ | .leave (.node n) => some (2 * n + 2)

/-- The task is part of the way of an event that its owner has sent, and no event was
rejected on it. -/
def Task.Follows (owner : Owner) : Task → Prop
  | .event task => ∃ rank, task.rank? = some rank ∧ owner.floor ≤ rank
  | .answer (.dispatched dispatch) => dispatch ≠ .rejected
  | _ => False

/-- The agenda of a worker thread with the given task of its loop, or of one that has come
to its end. -/
inductive Shaped : Option Task → List Task → Prop
  | ended : Shaped none []
  | loop {task : Task} {owner : Owner} (h : task.owner? = some owner) :
    Shaped (some task) [task]
  | cons {task loop : Task} {owner : Owner} {rest : List Task}
    (howner : loop.owner? = some owner) (h : task.Follows owner)
    (hrest : Shaped (some loop) rest) : Shaped (some loop) (task :: rest)

namespace Shaped

variable {loop : Task} {owner : Owner} {agenda : List Task}

/-- The task of the loop belongs to some owner. -/
theorem exists_owner (h : Shaped (some loop) agenda) :
    ∃ owner, loop.owner? = some owner := by
  cases h with
  | loop h => exact ⟨_, h⟩
  | cons howner => exact ⟨_, howner⟩

/-- The task of the loop is the last one. -/
theorem getLast?_eq {loop? : Option Task} (h : Shaped loop? agenda) :
    agenda.getLast? = loop? := by
  induction h with
  | ended => rfl
  | loop => rfl
  | cons _ _ _ ih =>
    rw [List.getLast?_cons, ih]
    rfl

/-- Further tasks on the way of the event. -/
theorem append {todo : List Task} (howner : loop.owner? = some owner)
    (htodo : ∀ task ∈ todo, task.Follows owner) (h : Shaped (some loop) agenda) :
    Shaped (some loop) (todo ++ agenda) := by
  induction todo with
  | nil => exact h
  | cons task todo ih =>
    exact .cons howner (htodo task (by simp)) (ih fun task ht => htodo task (by simp [ht]))

/-- No event has just been rejected in the thread. -/
theorem not_rejected {loop? : Option Task} (h : Shaped loop? agenda) :
    .dispatched .rejected ∉ agenda := by
  induction h with
  | ended => simp
  | @loop task owner howner =>
    rw [List.mem_singleton]
    rintro rfl
    simp [Task.dispatched, Task.owner?] at howner
  | @cons task loop owner rest howner h hrest ih =>
    rw [List.mem_cons, not_or]
    refine ⟨?_, ih⟩
    rintro rfl
    exact h rfl

end Shaped

/-- What the task of a loop can do without taking an event from a queue: the outline after
it, and what the thread does next. -/
inductive Outline.Turns (o : Outline) : Task → Outline → List Task → Prop
  | prepareAgain (n u : Nat) (asked : Bool) :
    Turns o (.unit (.prepareWorker n u asked)) o [.unit (.prepareWorker n u true)]
  | ready (n u : Nat) (asked : Bool) :
    Turns o (.unit (.prepareWorker n u asked))
      (o.sign n u (.ofQueue ({ · with ready := true, alive := true })))
      [.unit (.receive n u)]
  | unfit (n u : Nat) (asked : Bool) :
    Turns o (.unit (.prepareWorker n u asked))
      (o.sign n u (.ofQueue ({ · with ready := false, alive := false }))) []
  | disconnected (n u : Nat) (unit : UnitOutline) (h : o.unit? n u = some unit)
    (hsigns : unit.signs.connected = false) :
    Turns o (.unit (.receive n u)) o [.unit (.finishWorker n u false)]
  | look (n u : Nat) : Turns o (.unit (.receive n u)) o [.unit (.checkDismissed n u)]
  | dismissed (n u : Nat) (unit : UnitOutline) (h : o.unit? n u = some unit)
    (hsigns : unit.signs.dismissed = true) :
    Turns o (.unit (.checkDismissed n u)) o [.unit (.finishWorker n u false)]
  | stay (n u : Nat) : Turns o (.unit (.checkDismissed n u)) o [.unit (.receive n u)]
  | finishAgain (n u : Nat) (asked : Bool) :
    Turns o (.unit (.finishWorker n u asked)) o [.unit (.finishWorker n u true)]
  | finished (n u : Nat) (asked : Bool) :
    Turns o (.unit (.finishWorker n u asked))
      (o.sign n u (.ofQueue ({ · with alive := false }))) []
  | goOn (t v : Nat) (task next : Task) (h : task.owner? = some (.source t v))
    (hnext : next.owner? = some (.source t v)) : Turns o task o [next]
  | emit (t v : Nat) (payload : Json) (continuation : Option Continuation)
    (task next : Task) (h : task.owner? = some (.source t v))
    (hnext : next.owner? = some (.source t v)) :
    Turns o task o [.event (.make (.trigger t) payload continuation), next]
  | ended (t v : Nat) (task : Task) (h : task.owner? = some (.source t v)) : Turns o task o []

namespace World

variable {P : Plugins} {w : World P}

/-- A step that is a turn of a loop: apart from what shows in the outline it leaves threads
and streams alone. Only sources can break down. -/
inductive TurnsLoop (w : World P) (task : Task) : Progress P → Prop
  | goOn {w' : World P} {todo : List Task} (turns : w.outline.Turns task w'.outline todo)
    (threads : w'.threads = w.threads) (streams : w'.streams = w.streams) :
    TurnsLoop w task (.goOn w' todo)
  | breakDown {w' : World P} {text : String} {t v : Nat}
    (owner : task.owner? = some (.source t v)) (outline : w'.outline = w.outline)
    (threads : w'.threads = w.threads) (streams : w'.streams = w.streams) :
    TurnsLoop w task (.breakDown w' text)

/-- A worker that has said whether it is ready. -/
theorem outline_answered {n u : Nat} {result : Except NodeError Unit} {alive : Bool} :
    (w.changeUnit n u (·.changeQueue fun s =>
      { s with ready := some result, alive })).outline =
    w.outline.sign n u (.ofQueue ({ · with ready := result.toBool, alive })) :=
  outline_changeQueue (fun _ => by simp [UnitState.signs]) fun _ => rfl

/-- A worker that has come to its end. -/
theorem outline_ended {n u : Nat} :
    (w.changeUnit n u (·.changeQueue fun s => { s with alive := false })).outline =
      w.outline.sign n u (.ofQueue ({ · with alive := false })) :=
  outline_changeQueue (fun _ => rfl) fun _ => rfl

/-- Making the processor of a queued unit ready. -/
theorem prepareWorker_turns {n u : Nat} {asked : Bool} {progress : Progress P}
    (h : w.prepareWorker n u asked = some progress) :
    w.TurnsLoop (.unit (.prepareWorker n u asked)) progress := by
  simp only [prepareWorker, Option.bind_eq_bind, Option.bind_eq_some_iff] at h
  obtain ⟨unit, hunit, ⟨reply, called⟩, hcall, h⟩ := h
  obtain ⟨houtline, hthreads, hstreams⟩ := callProcessor_eq hcall
  cases reply with
  | waiting limit =>
    cases asked with
    | true => exact absurd h (by simp)
    | false =>
      obtain rfl : _ = progress := by simpa [andThen] using h
      refine .goOn ?_ hthreads hstreams
      rw [houtline]
      exact .prepareAgain n u false
  | returned value =>
    obtain rfl : _ = progress := by simpa [initError, Except.toBool, andThen] using h
    refine .goOn ?_ (by simpa using hthreads) (by simpa using hstreams)
    rw [outline_answered, houtline]
    exact .ready n u asked
  | failed error =>
    obtain rfl : _ = progress := by simpa [initError, Except.toBool, done] using h
    refine .goOn ?_ (by simpa using hthreads) (by simpa using hstreams)
    rw [outline_answered, houtline]
    exact .unfit n u asked
  | panicked text =>
    obtain rfl : _ = progress := by simpa [initError, Except.toBool, done] using h
    refine .goOn ?_ (by simpa using hthreads) (by simpa using hstreams)
    rw [outline_answered, houtline]
    exact .unfit n u asked

/-- Looking whether a worker was dismissed. -/
theorem checkDismissed_turns {n u : Nat} {progress : Progress P}
    (h : w.checkDismissed n u = some progress) :
    w.TurnsLoop (.unit (.checkDismissed n u)) progress := by
  simp only [checkDismissed, Option.bind_eq_bind, Option.bind_eq_some_iff] at h
  obtain ⟨unit, hunit, h⟩ := h
  split at h
  case h_1 => exact absurd h (by simp)
  case h_2 state hstate =>
    split at h
    case isTrue hdismissed =>
      obtain rfl : _ = progress := by simpa [andThen] using h
      refine .goOn (.dismissed n u unit.outline (by simp [outline_unit?, hunit]) ?_) rfl rfl
      simp [ExecutionUnit.outline, hstate, UnitState.signs, hdismissed]
    case isFalse =>
      obtain rfl : _ = progress := by simpa [andThen] using h
      exact .goOn (.stay n u) rfl rfl

/-- Finishing the processor of a queued unit. -/
theorem finishWorker_turns {n u : Nat} {asked : Bool} {progress : Progress P}
    (h : w.finishWorker n u asked = some progress) :
    w.TurnsLoop (.unit (.finishWorker n u asked)) progress := by
  simp only [finishWorker, Option.bind_eq_bind, Option.bind_eq_some_iff] at h
  obtain ⟨unit, hunit, ⟨reply, called⟩, hcall, h⟩ := h
  obtain ⟨houtline, hthreads, hstreams⟩ := callProcessor_eq hcall
  cases reply with
  | waiting limit =>
    cases asked with
    | true => exact absurd h (by simp)
    | false =>
      obtain rfl : _ = progress := by simpa [andThen] using h
      refine .goOn ?_ hthreads hstreams
      rw [houtline]
      exact .finishAgain n u false
  | returned | failed | panicked =>
    obtain rfl : _ = progress := by simpa [done] using h
    refine .goOn ?_ (by simpa using hthreads) (by simpa using hstreams)
    rw [outline_ended, outline_logAll, houtline]
    exact .finished n u asked

/-- A call of a hook of a source does not show. -/
theorem callSource_eq {α : Type} {t v : Nat}
    {hook : P.Source → P.Shared → Call P.Source P.Shared NodeError α}
    {reply : Reply NodeError α} {called : World P}
    (h : w.callSource t v hook = some (reply, called)) :
    called.outline = w.outline ∧ called.threads = w.threads ∧ called.streams = w.streams := by
  obtain ⟨unit, hunit, heq⟩ := by simpa [callSource] using h
  obtain ⟨-, rfl⟩ := heq
  refine ⟨?_, rfl, rfl⟩
  rw [outline_logAll]
  exact outline_changeSource_eq (w := { w with shared := _ }) fun _ => rfl

/-- A source that goes on with its loop. -/
theorem TurnsLoop.goOn_source {task next : Task} {t v : Nat} {w' : World P}
    (h : task.owner? = some (.source t v)) (hnext : next.owner? = some (.source t v))
    (houtline : w'.outline = w.outline) (hthreads : w'.threads = w.threads)
    (hstreams : w'.streams = w.streams) : w.TurnsLoop task (.goOn w' [next]) :=
  .goOn (houtline ▸ .goOn t v task next h hnext) hthreads hstreams

/-- A source that comes to its end. -/
theorem TurnsLoop.end_source {task : Task} {t v : Nat} {w' : World P}
    (h : task.owner? = some (.source t v)) (houtline : w'.outline = w.outline)
    (hthreads : w'.threads = w.threads) (hstreams : w'.streams = w.streams) :
    w.TurnsLoop task (.goOn w' []) :=
  .goOn (houtline ▸ .ended t v task h) hthreads hstreams

/-- Making a source ready. -/
theorem prepareSource_turns {t v l : Nat} {asked : Bool} {progress : Progress P}
    (h : w.prepareSource t v l asked = some progress) :
    w.TurnsLoop (.source (.prepare t v l asked)) progress := by
  simp only [prepareSource, Option.bind_eq_bind, Option.bind_eq_some_iff] at h
  obtain ⟨unit, hunit, ⟨reply, called⟩, hcall, h⟩ := h
  obtain ⟨houtline, hthreads, hstreams⟩ := callSource_eq hcall
  cases reply with
  | waiting limit =>
    cases asked with
    | true => exact absurd h (by simp)
    | false =>
      obtain rfl : _ = progress := by simpa [andThen] using h
      exact .goOn_source rfl rfl houtline hthreads hstreams
  | panicked text =>
    obtain rfl : _ = progress := by simpa using h
    exact .breakDown rfl houtline hthreads hstreams
  | failed error =>
    obtain rfl : _ = progress := by simpa [done] using h
    exact .end_source rfl houtline hthreads hstreams
  | returned value =>
    simp only [Option.bind_eq_some_iff] at h
    obtain ⟨launch, hlaunch, h⟩ := h
    obtain rfl : _ = progress := by simpa [andThen] using h
    exact .goOn_source rfl rfl houtline hthreads hstreams

/-- Letting a source run. -/
theorem beginSource_turns {t v l : Nat} {delivered : Bool} {progress : Progress P}
    (h : w.beginSource t v l delivered = some progress) :
    w.TurnsLoop (.source (.begin t v l delivered)) progress := by
  simp only [beginSource, Option.bind_eq_bind, Option.bind_eq_some_iff] at h
  obtain ⟨launch, hlaunch, h⟩ := h
  split at h
  · obtain rfl : _ = progress := by simpa [andThen] using h
    exact .goOn_source rfl rfl rfl rfl rfl
  · obtain rfl : _ = progress := by simpa [andThen] using h
    exact .goOn_source rfl rfl rfl rfl rfl

/-- Having a running source do its next move. -/
theorem advanceSource_turns {expired : Bool} {t v made : Nat}
    {resting : Option (Option Duration)} {progress : Progress P}
    (h : w.advanceSource expired t v made resting = some progress) :
    w.TurnsLoop (.source (.advance t v made resting)) progress := by
  simp only [advanceSource, Option.bind_eq_bind, Option.bind_eq_some_iff] at h
  obtain ⟨unit, hunit, ⟨reply, called⟩, hcall, h⟩ := h
  obtain ⟨houtline, hthreads, hstreams⟩ := callSource_eq hcall
  cases reply with
  | waiting limit =>
    cases resting with
    | some rest => exact absurd h (by simp)
    | none =>
      obtain rfl : _ = progress := by simpa [andThen] using h
      exact .goOn_source rfl rfl houtline hthreads hstreams
  | panicked text =>
    obtain rfl : _ = progress := by simpa using h
    exact .breakDown rfl houtline hthreads hstreams
  | failed error =>
    obtain rfl : _ = progress := by simpa [andThen] using h
    exact .goOn_source rfl rfl houtline (by simpa using hthreads) (by simpa using hstreams)
  | returned move =>
    cases move with
    | done =>
      obtain rfl : _ = progress := by simpa [andThen] using h
      exact .goOn_source rfl rfl houtline hthreads hstreams
    | emit payload continuation =>
      obtain rfl : _ = progress := by simpa [andThen] using h
      exact .goOn (houtline ▸ .emit t v payload continuation _ _ rfl rfl) hthreads hstreams

/-- Finishing a source. -/
theorem finishSource_turns {t v : Nat} {asked : Bool} {progress : Progress P}
    (h : w.finishSource t v asked = some progress) :
    w.TurnsLoop (.source (.finish t v asked)) progress := by
  simp only [finishSource, Option.bind_eq_bind, Option.bind_eq_some_iff] at h
  obtain ⟨⟨reply, called⟩, hcall, h⟩ := h
  obtain ⟨houtline, hthreads, hstreams⟩ := callSource_eq hcall
  cases reply with
  | waiting limit =>
    cases asked with
    | true => exact absurd h (by simp)
    | false =>
      obtain rfl : _ = progress := by simpa [andThen] using h
      exact .goOn_source rfl rfl houtline hthreads hstreams
  | panicked text =>
    obtain rfl : _ = progress := by simpa using h
    exact .breakDown rfl houtline hthreads hstreams
  | returned | failed =>
    obtain rfl : _ = progress := by simpa [done] using h
    exact .end_source rfl houtline hthreads hstreams

/-- The task of a loop takes an event from a queue, or it does a turn of the loop. -/
theorem loop_turns {me : Nat} {expired : Bool} {task : Task} {owner : Owner}
    {progress : Progress P} (howner : task.owner? = some owner)
    (h : w.perform me expired task = some progress) :
    w.HandlesEvent task progress ∨ w.TurnsLoop task progress := by
  cases task with
  | unit task =>
    cases task with
    | prepareWorker n u asked => exact .inr (prepareWorker_turns h)
    | receive n u =>
      obtain hreceive | ⟨rfl, unit, hunit, hsigns⟩ | rfl := receive_handles h
      · exact .inl hreceive
      · exact .inr (.goOn (.disconnected n u unit.outline (by simp [outline_unit?, hunit])
          hsigns) rfl rfl)
      · exact .inr (.goOn (.look n u) rfl rfl)
    | checkDismissed n u => exact .inr (checkDismissed_turns h)
    | finishWorker n u asked => exact .inr (finishWorker_turns h)
    | _ => simp [Task.owner?] at howner
  | source task =>
    cases task with
    | prepare t v l asked => exact .inr (prepareSource_turns h)
    | begin t v l delivered => exact .inr (beginSource_turns h)
    | advance t v made resting => exact .inr (advanceSource_turns h)
    | finish t v asked => exact .inr (finishSource_turns h)
    | _ => simp [Task.owner?] at howner
  | _ => simp [Task.owner?] at howner

end World
end EventPipeline
