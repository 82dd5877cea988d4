import EventPipeline.Proofs.Engine.Pace

/-!
# `EventPipeline.Proofs.Engine.Sequential`: a sequential stream is a line

`shows_of_stopped` is the result about streams whose nodes all run in the mode `single` and
whose events come from one source. Take any course on which such a stream starts and stops.
Then the events that left it, the fates of its events and the counters of its nodes are
those of its line, which brings one event after the other to the end of its way.

`Line.leaves_of_run` says what an event looks like that leaves a line: it has entered every
station, and it still has the number and the continuation that it was made with. It holds
by induction on the stations that are ahead of an event (`Line.Carries.travel`).
-/

set_option autoImplicit false

namespace EventPipeline

variable {P : Plugins}

/-! ## Events that leave a line -/

namespace Line

/-- The event has entered so many stations, and it is one of the events that were made from
these payloads: it has the number and the continuation of one of them. -/
def IsMadeFrom (payloads : List (Json × Option Continuation)) (hops : Nat) (event : Event) :
    Prop :=
  event.hops = hops ∧ ∃ i entry, payloads[i]? = some entry ∧ event.correlation = i + 1 ∧
    event.continuation = entry.2

/-- The line has `k` stations, all of its events were made from these payloads, and every
event that has left it, and every one of which it is on record that it was completed, has
entered all stations. -/
structure Carries (line : Line P) (k : Nat) (payloads : List (Json × Option Continuation)) :
    Prop where
  stations : line.stations.length = k
  made : line.made = payloads.length
  exits : ∀ event ∈ line.exits, IsMadeFrom payloads k event
  fates : ∀ report ∈ line.fates, report.fate = .completed → IsMadeFrom payloads k report.event

/-- The two lines have as many stations, as many events were made for them, the same events
have left them, and they have the same fates on record. -/
structure Alike (line later : Line P) : Prop where
  stations : later.stations.length = line.stations.length
  made : later.made = line.made
  exits : later.exits = line.exits
  fates : later.fates = line.fates

variable {line later : Line P} {k hops n : Nat} {event : Event}
  {payloads : List (Json × Option Continuation)}

/-- The same payloads with further ones behind them. -/
theorem IsMadeFrom.append (h : IsMadeFrom payloads hops event)
    (more : List (Json × Option Continuation)) : IsMadeFrom (payloads ++ more) hops event := by
  obtain ⟨hhops, i, entry, hentry, hmade⟩ := h
  refine ⟨hhops, i, entry, ?_, hmade⟩
  rw [List.getElem?_append_left (List.getElem?_eq_some_iff.mp hentry).1, hentry]

theorem Alike.trans {last : Line P} (h : Alike line later) (h' : Alike later last) :
    Alike line last :=
  ⟨h'.stations.trans h.stations, h'.made.trans h.made, h'.exits.trans h.exits,
    h'.fates.trans h.fates⟩

/-- Changing a station leaves the rest of a line alone. -/
theorem alike_changeStation (line : Line P) (n : Nat) (f : Station P → Station P) :
    Alike line (line.changeStation n f) :=
  ⟨List.length_modify .., rfl, rfl, rfl⟩

/-- Alike lines carry the same. -/
theorem Carries.congr (h : line.Carries k payloads) (halike : Alike line later) :
    later.Carries k payloads :=
  ⟨halike.stations.trans h.stations, halike.made.trans h.made, halike.exits ▸ h.exits,
    halike.fates ▸ h.fates⟩

/-- Changing a station leaves what a line carries. -/
theorem Carries.changeStation (h : line.Carries k payloads) (n : Nat)
    (f : Station P → Station P) : (line.changeStation n f).Carries k payloads :=
  h.congr (line.alike_changeStation n f)

/-- A report of a fate that is no completion. -/
theorem Carries.report {fate : Fate} (hfate : fate ≠ .completed) (h : line.Carries k payloads) :
    (line.report event fate).Carries k payloads := by
  unfold Line.report
  split
  · refine ⟨h.stations, h.made, h.exits, fun report hreport hcompleted => ?_⟩
    rcases List.mem_append.mp hreport with hreport | hreport
    · exact h.fates report hreport hcompleted
    · obtain rfl := List.mem_singleton.mp hreport
      exact absurd hcompleted hfate
  · exact ⟨h.stations, h.made, h.exits, h.fates⟩
  · exact h

/-- An event that has entered all stations leaves the line. -/
theorem Carries.leave (hevent : IsMadeFrom payloads k event) (h : line.Carries k payloads) :
    (line.leave event).Carries k payloads := by
  have hexits : ∀ left ∈ line.exits ++ [event], IsMadeFrom payloads k left := by
    intro left hleft
    rcases List.mem_append.mp hleft with hleft | hleft
    · exact h.exits left hleft
    · exact List.mem_singleton.mp hleft ▸ hevent
  unfold Line.leave Line.report
  split
  · refine ⟨h.stations, h.made, hexits, fun report hreport hcompleted => ?_⟩
    rcases List.mem_append.mp hreport with hreport | hreport
    · exact h.fates report hreport hcompleted
    · exact List.mem_singleton.mp hreport ▸ hevent
  · exact ⟨h.stations, h.made, hexits, h.fates⟩
  · exact ⟨h.stations, h.made, hexits, h.fates⟩

/-- A call of a hook changes at most the processor of a station. -/
theorem alike_callOnce {α : Type} (line : Line P) (n : Nat)
    (hook : P.Processor → P.Shared → Call P.Processor P.Shared NodeError α) :
    Alike line (line.callOnce n hook).2 := by
  unfold callOnce
  split
  · exact ⟨List.length_modify .., rfl, rfl, rfl⟩
  · exact ⟨rfl, rfl, rfl, rfl⟩

/-- A call of a hook that may wait changes at most the processor of a station. -/
theorem alike_call {α : Type} (line : Line P) (n : Nat) (asked : Bool)
    (hook : Bool → P.Processor → P.Shared → Call P.Processor P.Shared NodeError α) :
    Alike line (line.call n asked hook).2 := by
  have honce := line.alike_callOnce n (hook asked)
  unfold call
  split
  case h_1 waited heq =>
    rw [heq] at honce
    split
    · exact honce
    · exact honce.trans (waited.alike_callOnce n (hook true))
  case h_2 => exact honce

/-- What follows from how a processor ended: an event that goes on is the one that came, up
to its payload. -/
theorem Carries.conclude (hevent : IsMadeFrom payloads hops event)
    (h : line.Carries k payloads) (reply : Option (Reply NodeError Outcome)) :
    (line.conclude n event reply).2.Carries k payloads ∧
      ∀ next, (line.conclude n event reply).1 = some next → IsMadeFrom payloads hops next := by
  have hfail (error : NodeError) : (line.fail n event error).Carries k payloads := by
    unfold Line.fail
    exact (h.changeStation n _).report (by simp)
  unfold Line.conclude
  split
  · exact ⟨hfail _, by simp⟩
  · exact ⟨hfail _, by simp⟩
  · split
    · exact ⟨h, fun next hnext => Option.some.inj hnext ▸ hevent⟩
    · exact ⟨h, fun next hnext => Option.some.inj hnext ▸ hevent⟩
    · exact ⟨h.report (by simp), by simp⟩
    · exact ⟨h, by simp⟩
    · exact ⟨h, by simp⟩
  · exact ⟨h, by simp⟩
  · exact ⟨h, by simp⟩

/-- Processing an accepted event: if an event goes on, it is the one that came, up to its
payload. -/
theorem Carries.accept (hevent : IsMadeFrom payloads hops event) (h : line.Carries k payloads) :
    (line.accept n event).2.Carries k payloads ∧
      ∀ next, (line.accept n event).1 = some next → IsMadeFrom payloads hops next := by
  have hcalled := h.congr (line.alike_call n false fun again =>
    P.processor.process again event.payload)
  have hprocess : (line.process n event false).2.Carries k payloads ∧
      ∀ next, (line.process n event false).1 = some next → IsMadeFrom payloads hops next :=
    hcalled.conclude hevent _
  unfold Line.accept
  dsimp only
  split
  · exact ⟨hprocess.1, fun next hnext => Option.some.inj hnext ▸ hevent⟩
  · exact hprocess
  · exact hprocess

/-- An event on its way enters one station after the other, and leaves the line only behind
the last one. -/
theorem Carries.travel {ahead : List Nat} (hevent : IsMadeFrom payloads hops event)
    (hk : hops + ahead.length = k) (h : line.Carries k payloads) :
    (line.travel ahead event).Carries k payloads := by
  induction ahead generalizing hops event line with
  | nil =>
    obtain rfl : hops = k := by simpa using hk
    exact h.leave hevent
  | cons n ahead ih =>
    have hentered : IsMadeFrom payloads (hops + 1) { event with hops := event.hops + 1 } :=
      ⟨by rw [hevent.1], hevent.2⟩
    have hahead : hops + 1 + ahead.length = k := by
      rw [← hk, List.length_cons]
      omega
    have hreceive : (line.receive n).Carries k payloads := h.changeStation n _
    have hdrop (event : Event) (reason : String) :
        ((line.receive n).drop n event reason).Carries k payloads := by
      unfold Line.drop
      exact (hreceive.changeStation n _).report (by simp)
    unfold Line.travel
    split
    · exact h
    · dsimp only
      split
      · exact hdrop _ _
      · exact hdrop _ _
      · exact ih hentered hahead (hreceive.changeStation n _)
      · obtain ⟨haccept, hnext⟩ := Carries.accept (n := n) hentered hreceive
        split
        case h_1 heq =>
          rw [heq] at haccept
          exact haccept
        case h_2 next passed heq =>
          rw [heq] at haccept hnext
          exact ih (hnext next rfl) hahead (haccept.changeStation n _)

/-- Making an event and bringing it to the end of its way. -/
theorem Carries.make (h : line.Carries k payloads) (payload : Json)
    (continuation : Option Continuation) :
    (line.make payload continuation).Carries k (payloads ++ [(payload, continuation)]) := by
  have hcounted : ({ line with made := line.made + 1 } : Line P).Carries k
      (payloads ++ [(payload, continuation)]) :=
    ⟨h.stations, by simp [h.made], fun event hevent => (h.exits event hevent).append _,
      fun report hreport hcompleted => (h.fates report hreport hcompleted).append _⟩
  have hmade : IsMadeFrom (payloads ++ [(payload, continuation)]) 0
      { payload, correlation := line.made + 1, continuation } :=
    ⟨rfl, line.made, (payload, continuation), by simp [h.made], rfl, rfl⟩
  exact hcounted.travel hmade (by simp [h.stations])

/-- Bringing one event after the other through the line. -/
theorem Carries.makeAll (h : line.Carries k payloads)
    (more : List (Json × Option Continuation)) :
    (line.makeAll more).Carries k (payloads ++ more) := by
  induction more generalizing line payloads with
  | nil => simpa [Line.makeAll] using h
  | cons entry more ih =>
    have hrest := ih (h.make entry.1 entry.2)
    rw [List.append_assoc, List.singleton_append] at hrest
    exact hrest

/-- Making processors ready moves no event. -/
theorem Carries.prepareAll (h : line.Carries k payloads) (p : Nat) :
    (line.prepareAll p).Carries k payloads := by
  induction p generalizing line with
  | zero => exact h
  | succ n ih => exact ih (h.congr (line.alike_call n false P.processor.prepare))

/-- Every event that leaves a line has entered all of its stations, and has the number and
the continuation that it was made with. -/
theorem leaves_of_run (line : Line P) (hexits : line.exits = []) (hfates : line.fates = [])
    (hmade : line.made = 0) (payloads : List (Json × Option Continuation)) :
    (line.run payloads).Carries line.stations.length payloads := by
  have hempty : line.Carries line.stations.length [] :=
    ⟨rfl, hmade, by simp [hexits], by simp [hfates]⟩
  simpa [run] using (hempty.prepareAll line.stations.length).makeAll payloads

end Line

/-! ## The line that a stream keeps pace with -/

namespace World

variable {w w₀ w₁ w₂ : World P} {s k : Nat} {output : Bool} {run : List P.Shared → Line P}

/-- A stream that was built keeps pace with its line when it is about to start. -/
theorem Unstarted.inStep (hw : w.Unstarted) (k : Nat) :
    (w.assign 0 [.stream (.start s)]).InStep k output
      (fun supply => (w.line {} supply).prepareAll k) {} := by
  have hagendas : (w.assign 0 [.stream (.start s)]).agendas = [[.stream (.start s)]] := by
    rw [assign_agendas]
    simp [agendas, hw.threads]
  refine ⟨⟨?_, List.nil_sublist _⟩, fun supply => ?_⟩
  · rw [show (w.assign 0 [.stream (.start s)]).output = w.output from rfl, hw.output]
    simp
  · rw [hagendas]
    rfl

/-- A world keeps track of its line when the idle main thread is told to stop the stream. -/
theorem Tracks.assign_stop (hmain : w.agendas[0]? = some []) (h : w.Tracks k output run) :
    (w.assign 0 [.stream (.stop s)]).Tracks k output run := by
  have hagendas : (w.assign 0 [.stream (.stop s)]).agendas =
      w.agendas.modify 0 (· ++ [.stream (.stop s)]) := assign_agendas _
  cases h with
  | inStep wake h =>
    refine .inStep wake ⟨⟨h.keeps.exits, h.keeps.told⟩, fun supply => ?_⟩
    obtain ⟨before, after, heq, hlength, hmodify⟩ := exists_append_of_getElem? hmain
    obtain rfl : before = [] := List.eq_nil_of_length_eq_zero hlength
    rw [h.line, hagendas, hmodify, heq]
    rfl
  | ended h =>
    refine .ended ⟨fun agenda hagenda task htask => ?_, fun i agenda hagenda => ?_,
      ⟨h.shows.exits, h.shows.fates, h.shows.told, h.shows.counts⟩⟩
    · rw [hagendas, List.getElem?_modify_eq, hmain] at hagenda
      obtain rfl : [.stream (.stop s)] = agenda := by simpa using hagenda
      obtain rfl := List.mem_singleton.mp htask
      rfl
    · rw [hagendas, List.getElem?_modify_ne _ _ (by omega)] at hagenda
      exact h.workers i agenda hagenda

/-- A world whose threads have nothing left to do shows the line that it keeps track of. -/
theorem Tracks.shows (hnil : ∀ agenda ∈ w.agendas, agenda = []) (h : w.Tracks k output run) :
    w.Shows output (run []) := by
  cases h with
  | ended h => exact h.shows
  | inStep wake h =>
    refine h.shows fun i agenda hagenda task htask => ?_
    simp [hnil agenda (List.mem_of_getElem? hagenda)] at htask

/-- A stream whose nodes run in the mode `single`, and whose events come from one source, is
its line. Take a course on which it is built, started and stopped, and the line that has the
same payloads brought through it, one after the other. When the stop returns, the same
events have left the two, in the same order, with the same fates and counters. An event
that has left has entered every node, and has the number that it was made with. -/
theorem shows_of_stopped {shared : P.Shared} {name : String} {config : PipelineConfig}
    {registry : Registry P} {starting stopping : List (Move P)}
    (hsequential : config.IsSequential name)
    (hbuilt : (idle shared).buildStream name config registry output =
      { reply := .returned s, shared := w₀ })
    (hstarted : (w₀.assign 0 [.stream (.start s)]).follow starting = some w₁)
    (hrunning : w₁.HasReturned .ok)
    (hstopped : (w₁.assign 0 [.stream (.stop s)]).follow stopping = some w₂)
    (hreturned : w₂.HasReturned .ok) :
    let start := w₀.assign 0 [.stream (.start s)]
    let stop := w₁.assign 0 [.stream (.stop s)]
    let payloads := start.emitted starting ++ stop.emitted stopping
    let line := (w₀.line {} (start.seen starting ++ stop.seen stopping)).run payloads
    w₂.Shows output line ∧ line.Carries w₀.nodes.length payloads := by
  obtain ⟨hunstarted, hrecords, hchain, hlayout⟩ := buildStream_eq hbuilt
  have hlayout := hlayout hsequential
  have hlength : w₀.nodes.length = w₀.outline.layout.nodes.length := by
    rw [Outline.length_layout, outline, List.length_map]
  have hidle : w₀.agendas = [[]] := by simp [agendas, hunstarted.threads]
  have hplain : w₀.Plain := by simp [Plain, hidle]
  have hstart := fares_of_assign (s := s) (by simp [hidle]) hunstarted.orderly hrecords .start
  obtain ⟨-, hplain', hmain, hrecords', ho⟩ :=
    hstart.returned hchain (hplain.assign rfl) hstarted hrunning
  have hstop := fares_of_assign (s := s) hmain ho hrecords' .stop
  obtain ⟨-, -, hmain', -, ho'⟩ :=
    hstop.returned hchain (hplain'.assign rfl) hstopped hreturned
  -- The line goes on with every move of the two courses; it is read off when nothing is left.
  have htracks₁ := (Tracks.inStep {} (hunstarted.inStep _)).follow
    hlayout hchain (hplain.assign rfl) hstart hstarted hrunning.not_doomed
  have htracks₂ := (htracks₁.assign_stop (s := s) hmain).follow hlayout hchain
    (hplain'.assign rfl) hstop hstopped hreturned.not_doomed
  have hshows := htracks₂.shows (ho'.agendas_eq_nil hmain')
  have hstations (supply : List P.Shared) :
      (w₀.line {} supply).stations.length = w₀.nodes.length := List.length_map _
  refine ⟨?_, ?_⟩
  · simpa only [Line.run, Line.makeAll, List.foldl_append, List.append_nil, hstations, hlength]
      using hshows
  · have hmade : (w₀.triggers[0]?).elim 0 (·.gate.sequence) = 0 := by
      cases htrigger : w₀.triggers[0]? with
      | none => rfl
      | some trigger => exact (hunstarted.triggers trigger (List.mem_of_getElem? htrigger)).2
    rw [← hstations]
    exact Line.leaves_of_run _ rfl hunstarted.fates hmade _

end World

/-! ## One run -/

/-- A course on which the stream in the mode `single` starts and its source emits its
event. -/
def inlineRelayStart : List (Move relayPlugins) :=
  [0, 0, 0, 0, 0, 0, 0, 0, 0, 0, 0, 0, 0, 0, 0, 0, 0, 1, 0, 0, 0, 0, 0, 0, 0, 0, 1, 1, 1, 1, 1, 1,
    1, 1, 1, 1, 1, 1, 1, 1].map .step

/-- A course on which the stream in the mode `single` stops. -/
def inlineRelayStop : List (Move relayPlugins) :=
  [0, 0, 0, 0, 0, 0, 0, 0, 0, 0, 0, 0, 0, 0, 0, 0].map .step

/-- The stream of one trigger and one node in the mode `single` is sequential. -/
theorem isSequential_relay : (relayConfig .single).IsSequential "line" := by
  refine ⟨"tick", ["relay"], rfl, fun template h => ?_, fun processor hprocessor template h => ?_⟩
  · obtain rfl := Option.some.inj (show some _ = some template from h)
    exact Nat.le_refl 1
  · obtain rfl := List.mem_singleton.mp hprocessor
    obtain rfl := Option.some.inj (show some _ = some template from h)
    rfl

/-- The stream of one trigger and one node in the mode `single` shows its line when it has
stopped. -/
theorem World.shows_of_stopped_relay : ∃ w₀ w₁ w₂ : World relayPlugins,
    (relayConfig .single).IsSequential "line" ∧
    (idle ()).buildStream "line" (relayConfig .single) relayRegistry true =
      { reply := .returned 0, shared := w₀ } ∧
    (w₀.assign 0 [.stream (.start 0)]).follow inlineRelayStart = some w₁ ∧
    w₁.HasReturned .ok ∧
    (w₁.assign 0 [.stream (.stop 0)]).follow inlineRelayStop = some w₂ ∧ w₂.HasReturned .ok ∧
    w₂.Shows true ((w₀.line {} ((w₀.assign 0 [.stream (.start 0)]).seen inlineRelayStart ++
      (w₁.assign 0 [.stream (.stop 0)]).seen inlineRelayStop)).run
        ((w₀.assign 0 [.stream (.start 0)]).emitted inlineRelayStart ++
          (w₁.assign 0 [.stream (.stop 0)]).emitted inlineRelayStop)) := by
  refine ⟨_, _, _, isSequential_relay, rfl, rfl, ⟨_, rfl, rfl, rfl, rfl⟩, rfl,
    ⟨_, rfl, rfl, rfl, rfl⟩, ?_⟩
  exact (@shows_of_stopped relayPlugins _ _ _ 0 true () "line" (relayConfig .single)
    relayRegistry inlineRelayStart inlineRelayStop isSequential_relay rfl rfl
    ⟨_, rfl, rfl, rfl, rfl⟩ rfl ⟨_, rfl, rfl, rfl, rfl⟩).1

end EventPipeline
