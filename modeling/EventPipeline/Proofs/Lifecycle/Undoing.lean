import EventPipeline.Proofs.Lifecycle.Sources
import Mathlib.Data.List.Nodup

/-!
# `EventPipeline.Proofs.Lifecycle.Undoing`: a start that fails is undone

A start brings up one plugin after the other (`raised`), in the order of `World.startOrder`. When
one of them fails, those before it come down again (`fallen`), at the level of the unit, of the
node or trigger, and of the stream. `scene_of_failed` says that nothing else can come of a start
that returns a failure: some plugin has failed, all plugins before it in the order are down, and
the ones after it were never touched.
-/

set_option autoImplicit false

namespace EventPipeline

variable {P : Plugins}

/-! ## Parts of a stream -/

namespace GateId

/-- Starts a node or a trigger. -/
def startTask : GateId → Task
  | node n => .unit (.startNode n)
  | trigger t => .source (.startTrigger t)

/-- Starts the units of a node or of a trigger from the given one on. -/
def startFromTask : GateId → Nat → Task
  | node n, u => .unit (.startUnits n u)
  | trigger t, u => .source (.startSources t u)

/-- Goes on after a unit was started. -/
def startedTask : GateId → Nat → Task
  | node n, u => .unit (.startedUnit n u)
  | trigger t, u => .source (.startedSource t u)

/-- Stops a node or a trigger. -/
def stopTask : GateId → Task
  | node n => .unit (.stopNode n)
  | trigger t => .source (.stopTrigger t)

/-- Logs that a node or a trigger has stopped. -/
def stoppedTask : GateId → Task
  | node n => .unit (.stoppedNode n)
  | trigger t => .source (.stoppedTrigger t)

/-- No two units own the same plugin. -/
theorem member_inj {g h : GateId} {u v : Nat} : g.member u = h.member v ↔ g = h ∧ u = v := by
  cases g <;> cases h <;> simp [member]

/-- The units own different plugins. -/
theorem nodup_members (g : GateId) (m : Nat) : ((List.range m).map g.member).Nodup :=
  List.Nodup.map (fun _ _ h => (member_inj.mp h).2) List.nodup_range

end GateId

namespace Instance

/-- Starts the unit that owns the plugin. -/
def startTask : Instance → Task
  | processor n u => .unit (.startUnit n u)
  | source t u => .source (.startSource t u)

/-- Stops the unit that owns the plugin. -/
def stopTask : Instance → Task
  | processor n u => .unit (.stopUnit n u)
  | source t u => .source (.stopSource t u)

end Instance

/-- The given plugins are up, and no others were touched. -/
def raised (before : List Instance) (j : Instance) : Standing :=
  if j ∈ before then .up else .untouched

/-- The given plugins are down. -/
def undone (stopped : List Instance) (σ : Instance → Standing) (j : Instance) : Standing :=
  if j ∈ stopped then .down else σ j

/-- One plugin has failed, the given plugins are down, and no others were touched. -/
def fallen (before : List Instance) (failing : Instance) (standing : Standing) :
    Instance → Standing :=
  Function.update (fun j => if j ∈ before then .down else .untouched) failing standing

/-- One more plugin is up. -/
theorem raised_append (before : List Instance) (i : Instance) :
    Function.update (raised before) i .up = raised (before ++ [i]) := by
  funext j
  by_cases hj : j = i
  · simp [raised, hj]
  · simp [raised, hj]

/-- The plugins that were up before another one failed are brought down. -/
theorem undone_raised {before later : List Instance} {failing : Instance} {standing : Standing}
    (hmem : ∀ j, j ∈ later ↔ j ∈ before) (hnew : failing ∉ before) :
    undone later (Function.update (raised before) failing standing) =
      fallen before failing standing := by
  funext j
  by_cases hj : j = failing
  · subst hj
    simp [undone, fallen, hmem, hnew]
  · by_cases hbefore : j ∈ before <;> simp [undone, fallen, raised, hmem, hj, hbefore]

namespace World

variable {w w' v built : World P} {g : GateId} {m u s : Nat} {rest todo : List Task}
  {progress : Progress P} {record : List Deed} {error : StreamError}
  {goal : List Deed → World P → Prop} {σ : Instance → Standing} {told : Answer} {i : Instance}
  {target : Target}

/-- The target of a gate and the number of units behind it. -/
def part? (w : World P) : GateId → Option (Option Target × Nat)
  | .node n => (w.frame.1[n]?).map Prod.snd
  | .trigger t => w.frame.2[t]?

theorem part?_node (n : Nat) :
    w.part? (.node n) = (w.nodes[n]?).map fun node => (node.gate.target, node.units.length) := by
  simp [part?, frame, Function.comp_def]

theorem part?_trigger (t : Nat) : w.part? (.trigger t) =
    (w.triggers[t]?).map fun trigger => (trigger.gate.target, trigger.units.length) :=
  List.getElem?_map ..

/-- The frame says how many units there are. -/
theorem memberCount_eq (w : World P) (g : GateId) : w.memberCount g = (w.part? g).elim 0 (·.2) := by
  cases g with
  | node n =>
    rw [part?_node, memberCount]
    cases w.nodes[n]? <;> rfl
  | trigger t =>
    rw [part?_trigger, memberCount]
    cases w.triggers[t]? <;> rfl

/-- A node is part of a world. -/
theorem Scene.node {n : Nat} {agenda : List Task} (h : w.Scene built σ told agenda record)
    (hpart : built.part? (.node n) = some (some target, m)) :
    ∃ node, w.nodes[n]? = some node ∧ node.gate.target = some target ∧ node.units.length = m := by
  have hsame : w.part? (.node n) = some (some target, m) := by
    rw [part?, h.frame_eq, ← part?, hpart]
  rw [part?_node] at hsame
  obtain ⟨node, hnode, heq⟩ := Option.map_eq_some_iff.mp hsame
  exact ⟨node, hnode, congrArg Prod.fst heq, congrArg Prod.snd heq⟩

/-- A trigger is part of a world. -/
theorem Scene.trigger {t : Nat} {agenda : List Task} (h : w.Scene built σ told agenda record)
    (hpart : built.part? (.trigger t) = some (some target, m)) :
    ∃ trigger, w.triggers[t]? = some trigger ∧ trigger.gate.target = some target ∧
      trigger.units.length = m := by
  have hsame : w.part? (.trigger t) = some (some target, m) := by
    rw [part?, h.frame_eq, ← part?, hpart]
  rw [part?_trigger] at hsame
  obtain ⟨trigger, htrigger, heq⟩ := Option.map_eq_some_iff.mp hsame
  exact ⟨trigger, htrigger, congrArg Prod.fst heq, congrArg Prod.snd heq⟩

namespace Safe

/-! ## One plugin -/

/-- A plugin that is started comes up or fails. -/
theorem start (hpart : built.part? g = some (some target, m)) (hu : u < m)
    (hσ : σ (g.member u) = .untouched)
    (hup : Safe built error goal (Function.update σ (g.member u) .up) .ok rest)
    (hfailed : ∀ reason standing, standing.FailsWith reason (g.member u) →
      Safe built error goal (Function.update σ (g.member u) standing)
        (.failed (.node reason)) rest) :
    Safe built error goal σ told ((g.member u).startTask :: rest) := by
  cases g with
  | node n => exact start_processor hσ hup hfailed
  | trigger t =>
    refine start_source hσ (fun w hframe => ?_) hup hfailed
    have hsame : w.part? (.trigger t) = some (some target, m) := by
      rw [part?, hframe, ← part?, hpart]
    rw [part?_trigger] at hsame
    obtain ⟨trigger, htrigger, heq⟩ := Option.map_eq_some_iff.mp hsame
    have hlength : trigger.units.length = m := congrArg Prod.snd heq
    have hlt : u < trigger.units.length := hlength.symm ▸ hu
    simp [source?, htrigger, hlt]

/-- A plugin that is up and is stopped comes down. -/
theorem stop (hσ : σ i = .up) (h : Safe built error goal (Function.update σ i .down) told rest) :
    Safe built error goal σ told (i.stopTask :: rest) := by
  cases i with
  | processor n u => exact stop_processor hσ h
  | source t u => exact stop_source hσ h

/-- Plugins that are up and are stopped come down. -/
theorem stop_all (js : List Instance) (hnodup : js.Nodup) (hσ : ∀ j ∈ js, σ j = .up)
    (h : Safe built error goal (undone js σ) told rest) :
    Safe built error goal σ told (js.map Instance.stopTask ++ rest) := by
  induction js generalizing σ with
  | nil =>
    have hsame : undone [] σ = σ := by
      funext j
      simp [undone]
    rwa [hsame] at h
  | cons j js ih =>
    obtain ⟨hnew, hnodup⟩ := List.nodup_cons.mp hnodup
    refine stop (hσ j (List.mem_cons_self ..)) (ih hnodup (fun k hk => ?_) ?_)
    · have hne : k ≠ j := fun hkj => hnew (hkj ▸ hk)
      rw [Function.update_of_ne hne]
      exact hσ k (List.mem_cons_of_mem _ hk)
    · have hsame : undone js (Function.update σ j .down) = undone (j :: js) σ := by
        funext k
        by_cases hkj : k = j <;> by_cases hk : k ∈ js <;> simp [undone, hkj, hk]
      rw [hsame]
      exact h

/-! ## One node or trigger -/

/-- Starting a node or a trigger begins with its first unit. -/
theorem startPart (hpart : built.part? g = some (some target, m))
    (h : Safe built error goal σ told (g.startFromTask 0 :: rest)) :
    Safe built error goal σ told (g.startTask :: rest) := by
  cases g with
  | node n =>
    refine of_free rfl (fun _ h => by cases h) fun w record expired progress hscene hperform => ?_
    obtain ⟨node, hnode, htarget, -⟩ := hscene.node hpart
    have hstarts : w.startNode n = some progress := hperform
    simp only [startNode, hnode, htarget, Option.bind_eq_bind, Option.bind_some] at hstarts
    exact ⟨w, _, (Option.some.inj hstarts).symm, rfl, h⟩
  | trigger t =>
    refine of_free rfl (fun _ h => by cases h) fun w record expired progress hscene hperform => ?_
    obtain ⟨trigger, htrigger, htarget, -⟩ := hscene.trigger hpart
    have hstarts : w.startTrigger t = some progress := hperform
    simp only [startTrigger, htrigger, htarget, Option.bind_eq_bind, Option.bind_some] at hstarts
    exact ⟨w, _, (Option.some.inj hstarts).symm, rfl, h⟩

/-- The next unit is started. -/
theorem startNext (hpart : built.part? g = some (some target, m)) (hu : u < m)
    (h : Safe built error goal σ told ((g.member u).startTask :: g.startedTask u :: rest)) :
    Safe built error goal σ told (g.startFromTask u :: rest) := by
  cases g with
  | node n =>
    refine of_free rfl (fun _ h => by cases h) fun w record expired progress hscene hperform => ?_
    obtain ⟨node, hnode, -, hlength⟩ := hscene.node hpart
    have hstarts : w.startUnits n u = some progress := hperform
    simp only [startUnits, hnode, hlength, hu, if_true, Option.bind_eq_bind, Option.bind_some]
      at hstarts
    exact ⟨w, _, (Option.some.inj hstarts).symm, rfl, h⟩
  | trigger t =>
    refine of_free rfl (fun _ h => by cases h) fun w record expired progress hscene hperform => ?_
    obtain ⟨trigger, htrigger, -, hlength⟩ := hscene.trigger hpart
    have hstarts : w.startSources t u = some progress := hperform
    simp only [startSources, htrigger, hlength, hu, if_true, Option.bind_eq_bind, Option.bind_some]
      at hstarts
    exact ⟨w, _, (Option.some.inj hstarts).symm, rfl, h⟩

/-- After the last unit the node or trigger is started. -/
theorem startedPart (hpart : built.part? g = some (some target, m))
    (h : Safe built error goal σ .ok rest) :
    Safe built error goal σ told (g.startFromTask m :: rest) := by
  cases g with
  | node n =>
    refine of_free rfl (fun _ h => by cases h) fun w record expired progress hscene hperform => ?_
    obtain ⟨node, hnode, -, hlength⟩ := hscene.node hpart
    have hstarts : w.startUnits n m = some progress := hperform
    simp only [startUnits, hnode, hlength, Nat.lt_irrefl, if_false, Option.bind_eq_bind,
      Option.bind_some] at hstarts
    exact ⟨_, _, (Option.some.inj hstarts).symm, rfl, answer _ h⟩
  | trigger t =>
    refine of_free rfl (fun _ h => by cases h) fun w record expired progress hscene hperform => ?_
    obtain ⟨trigger, htrigger, -, hlength⟩ := hscene.trigger hpart
    have hstarts : w.startSources t m = some progress := hperform
    simp only [startSources, htrigger, hlength, Nat.lt_irrefl, if_false, Option.bind_eq_bind,
      Option.bind_some] at hstarts
    exact ⟨_, _, (Option.some.inj hstarts).symm, rfl, answer _ h⟩

/-- After a unit that has come up the next one follows. -/
theorem startedOne (h : Safe built error goal σ .ok (g.startFromTask (u + 1) :: rest)) :
    Safe built error goal σ .ok (g.startedTask u :: rest) := by
  cases g with
  | node n =>
    refine of_free rfl (fun _ h => by cases h) fun w record expired progress hscene hperform => ?_
    have hgoes : w.startedUnit 0 n u = some progress := hperform
    rw [startedUnit, hscene.told_eq] at hgoes
    exact ⟨w, _, (Option.some.inj hgoes).symm, rfl, h⟩
  | trigger t =>
    refine of_free rfl (fun _ h => by cases h) fun w record expired progress hscene hperform => ?_
    have hgoes : w.startedSource 0 t u = some progress := hperform
    rw [startedSource, hscene.told_eq] at hgoes
    exact ⟨w, _, (Option.some.inj hgoes).symm, rfl, h⟩

/-- After a unit that has failed those before it are stopped. -/
theorem failedOne {reason : StreamError}
    (h : Safe built error goal σ (.failed reason)
      (((List.range u).map g.member).map Instance.stopTask ++ .answer (.failed reason) :: rest)) :
    Safe built error goal σ (.failed reason) (g.startedTask u :: rest) := by
  have hagenda {stops : List Task}
      (hstops : stops = ((List.range u).map g.member).map Instance.stopTask) :
      Safe built error goal σ (.failed reason) (stops ++ [.answer (.failed reason)] ++ rest) := by
    rw [hstops, List.append_assoc]
    exact h
  cases g with
  | node n =>
    refine of_free rfl (fun _ h => by cases h) fun w record expired progress hscene hperform => ?_
    have hgoes : w.startedUnit 0 n u = some progress := hperform
    rw [startedUnit, hscene.told_eq] at hgoes
    exact ⟨w, _, (Option.some.inj hgoes).symm, rfl, hagenda (by rw [List.map_map]; rfl)⟩
  | trigger t =>
    refine of_free rfl (fun _ h => by cases h) fun w record expired progress hscene hperform => ?_
    have hgoes : w.startedSource 0 t u = some progress := hperform
    rw [startedSource, hscene.told_eq] at hgoes
    exact ⟨w, _, (Option.some.inj hgoes).symm, rfl, hagenda (by rw [List.map_map]; rfl)⟩

/-- A node or a trigger whose plugins are up is stopped with all of them. -/
theorem stopPart (hpart : built.part? g = some (some target, m))
    (hσ : ∀ u < m, σ (g.member u) = .up)
    (h : Safe built error goal (undone ((List.range m).map g.member) σ) .ok rest) :
    Safe built error goal σ told (g.stopTask :: rest) := by
  have hnodup := g.nodup_members m
  have hup : ∀ j ∈ (List.range m).map g.member, σ j = .up := by
    intro j hj
    obtain ⟨u, hu, rfl⟩ := List.mem_map.mp hj
    exact hσ u (List.mem_range.mp hu)
  have hstopped : Safe built error goal (undone ((List.range m).map g.member) σ) told
      (g.stoppedTask :: rest) := by
    cases g with
    | node n =>
      refine of_free rfl (fun _ h => by cases h) fun w record expired progress hscene hperform => ?_
      obtain ⟨node, hnode, -⟩ := hscene.node hpart
      have hstops : w.stoppedNode n = some progress := hperform
      simp only [stoppedNode, hnode, Option.bind_eq_bind, Option.bind_some] at hstops
      exact ⟨_, _, (Option.some.inj hstops).symm, rfl, answer _ h⟩
    | trigger t =>
      refine of_free rfl (fun _ h => by cases h) fun w record expired progress hscene hperform => ?_
      obtain ⟨trigger, htrigger, -⟩ := hscene.trigger hpart
      have hstops : w.stoppedTrigger t = some progress := hperform
      simp only [stoppedTrigger, htrigger, Option.bind_eq_bind, Option.bind_some] at hstops
      exact ⟨_, _, (Option.some.inj hstops).symm, rfl, answer _ h⟩
  have hall := stop_all _ hnodup hup hstopped
  have hagenda {stops : List Task}
      (hstops : stops = ((List.range m).map g.member).map Instance.stopTask) :
      Safe built error goal σ told (stops ++ [g.stoppedTask] ++ rest) := by
    rw [hstops, List.append_assoc]
    exact hall
  cases g with
  | node n =>
    refine of_free rfl (fun _ h => by cases h) fun w record expired progress hscene hperform => ?_
    obtain ⟨node, hnode, -, hlength⟩ := hscene.node hpart
    have hstops : w.stopNode n = some progress := hperform
    simp only [stopNode, hnode, hlength, Option.bind_eq_bind, Option.bind_some] at hstops
    exact ⟨w, _, (Option.some.inj hstops).symm, rfl, hagenda (by rw [List.map_map]; rfl)⟩
  | trigger t =>
    refine of_free rfl (fun _ h => by cases h) fun w record expired progress hscene hperform => ?_
    obtain ⟨trigger, htrigger, -, hlength⟩ := hscene.trigger hpart
    have hstops : w.stopTrigger t = some progress := hperform
    simp only [stopTrigger, htrigger, hlength, Option.bind_eq_bind, Option.bind_some] at hstops
    exact ⟨w, _, (Option.some.inj hstops).symm, rfl, hagenda (by rw [List.map_map]; rfl)⟩

/-- A node or a trigger is started from the given unit on. All of its plugins come up, or one of
them fails, and those before it are down again. -/
theorem startFrom {before : List Instance} (told : Answer)
    (hpart : built.part? g = some (some target, m))
    (hu : u ≤ m) (hnew : ∀ v, g.member v ∉ before)
    (hup : Safe built error goal (raised (before ++ (List.range m).map g.member)) .ok rest)
    (hfailed : ∀ v < m, ∀ reason standing, standing.FailsWith reason (g.member v) →
      Safe built error goal
        (undone ((List.range v).map g.member)
          (Function.update (raised (before ++ (List.range v).map g.member)) (g.member v) standing))
        (.failed (.node reason)) rest) :
    Safe built error goal (raised (before ++ (List.range u).map g.member)) told
      (g.startFromTask u :: rest) := by
  induction hleft : m - u generalizing u told with
  | zero =>
    obtain rfl : u = m := by omega
    exact startedPart hpart hup
  | succ left ih =>
    have hlt : u < m := by omega
    have hfresh : g.member u ∉ before ++ (List.range u).map g.member := by
      simp [hnew, GateId.member_inj]
    refine startNext hpart hlt
      (start hpart hlt (if_neg hfresh) ?_ fun reason standing hstanding => ?_)
    · rw [raised_append, List.append_assoc, ← List.map_singleton, ← List.map_append,
        ← List.range_succ]
      exact startedOne (ih .ok hlt (by omega))
    · refine failedOne (stop_all _ (g.nodup_members u) (fun j hj => ?_)
        (answer _ (hfailed u hlt reason standing hstanding)))
      have hne : j ≠ g.member u := by
        obtain ⟨v, hv, rfl⟩ := List.mem_map.mp hj
        exact fun hsame => absurd (GateId.member_inj.mp hsame).2
          (Nat.ne_of_lt (List.mem_range.mp hv))
      rw [Function.update_of_ne hne]
      exact if_pos (List.mem_append_right _ hj)

/-- Nodes and triggers whose plugins are up are stopped. -/
theorem stopParts (gs : List GateId)
    (hparts : ∀ g ∈ gs, ∃ target m, built.part? g = some (some target, m)) (hnodup : gs.Nodup)
    (hσ : ∀ g ∈ gs, ∀ u < built.memberCount g, σ (g.member u) = .up)
    (h : ∀ told, Safe built error goal (undone (gs.flatMap built.members) σ) told rest) :
    Safe built error goal σ told (gs.map GateId.stopTask ++ rest) := by
  induction gs generalizing σ told with
  | nil =>
    have hsame : undone [] σ = σ := by
      funext j
      simp [undone]
    exact hsame ▸ h told
  | cons g gs ih =>
    obtain ⟨hnew, hnodup⟩ := List.nodup_cons.mp hnodup
    obtain ⟨target, m, hpart⟩ := hparts g (List.mem_cons_self ..)
    have hcount : built.memberCount g = m := by
      rw [memberCount_eq, hpart]
      rfl
    have hup := hσ g (List.mem_cons_self ..)
    rw [hcount] at hup
    refine stopPart hpart hup (ih (fun k hk => hparts k (List.mem_cons_of_mem _ hk)) hnodup
      (fun k hk u hu => ?_) fun told => ?_)
    · have hother : k.member u ∉ (List.range m).map g.member := by
        intro hmem
        obtain ⟨v, -, hsame⟩ := List.mem_map.mp hmem
        exact hnew ((GateId.member_inj.mp hsame).1 ▸ hk)
      rw [undone, if_neg hother]
      exact hσ k (List.mem_cons_of_mem _ hk) u hu
    · have hsame : undone (gs.flatMap built.members) (undone ((List.range m).map g.member) σ) =
          undone ((g :: gs).flatMap built.members) σ := by
        funext j
        have hmembers : built.members g = (List.range m).map g.member := by rw [members, hcount]
        by_cases hlater : j ∈ gs.flatMap built.members
        · simp only [undone, List.flatMap_cons, List.mem_append, hlater, or_true, if_true]
        · simp only [undone, List.flatMap_cons, List.mem_append, hlater, hmembers, or_false,
            if_false]
      rw [hsame]
      exact h told

end Safe

/-! ## A stream -/

/-- A stream that can be started: it does not run, all of its parts are wired, and none occurs
twice. -/
structure Startable (built : World P) (s : Nat) (stream : Stream) : Prop where
  stream_eq : built.streams[s]? = some stream
  idle : stream.running = false
  parts : ∀ g ∈ stream.parts, ∃ target m, built.part? g = some (some target, m)
  nodup : stream.parts.Nodup

variable {stream : Stream} {pre post stops : List GateId} {reason : NodeError}
  {standing : Standing}

/-- The stream is the one that was built. -/
theorem Scene.stream_eq {agenda : List Task} (hscene : w.Scene built σ told agenda record)
    (h : built.Startable s stream) : w.streams[s]? = some stream := by
  rw [hscene.streams_eq, h.stream_eq]

/-- The parts of a stream own different plugins. -/
theorem Startable.not_mem_members (h : built.Startable s stream)
    (hsplit : stream.parts = pre ++ g :: post) (v : Nat) :
    g.member v ∉ pre.flatMap built.members := by
  intro hmem
  obtain ⟨k, hk, hmember⟩ := List.mem_flatMap.mp hmem
  obtain ⟨u, -, hsame⟩ := List.mem_map.mp hmember
  have hnodup := h.nodup
  rw [hsplit] at hnodup
  exact (List.nodup_append.mp hnodup).2.2 k hk g (List.mem_cons_self ..)
    (GateId.member_inj.mp hsame).1

/-- A plugin of a part in the order of a start. -/
theorem Startable.startOrder_eq (h : built.Startable s stream)
    (hsplit : stream.parts = pre ++ g :: post) (hu : u < built.memberCount g) :
    ∃ after, built.startOrder s =
      (pre.flatMap built.members ++ (List.range u).map g.member) ++ g.member u :: after := by
  obtain ⟨later, hlater⟩ : ∃ later, built.members g =
      (List.range u).map g.member ++ g.member u :: later := by
    obtain ⟨left, hleft⟩ := Nat.exists_eq_add_of_le (Nat.succ_le_of_lt hu)
    refine ⟨((List.range left).map (u + 1 + ·)).map g.member, ?_⟩
    rw [members, hleft, List.range_add, List.range_succ, List.map_append, List.map_append]
    simp only [List.map_cons, List.map_nil, List.append_assoc, List.singleton_append]
  refine ⟨later ++ post.flatMap built.members, ?_⟩
  rw [startOrder, h.stream_eq, Option.elim_some, hsplit, List.flatMap_append, List.flatMap_cons,
    hlater]
  simp only [List.append_assoc, List.cons_append]

namespace Safe

/-- The next part of a stream is started. -/
theorem start_part (h : built.Startable s stream) (hsplit : stream.parts = pre ++ g :: post)
    (hup : Safe built error goal (raised ((pre ++ [g]).flatMap built.members)) .ok rest)
    (hfailed : ∀ v < built.memberCount g, ∀ reason standing,
      standing.FailsWith reason (g.member v) →
      Safe built error goal
        (undone ((List.range v).map g.member)
          (Function.update (raised (pre.flatMap built.members ++ (List.range v).map g.member))
            (g.member v) standing))
        (.failed (.node reason)) rest) :
    Safe built error goal (raised (pre.flatMap built.members)) told (g.startTask :: rest) := by
  obtain ⟨target, m, hpart⟩ := h.parts g (by simp [hsplit])
  have hcount : built.memberCount g = m := by
    rw [memberCount_eq, hpart]
    rfl
  have hfirst := startFrom told hpart (Nat.zero_le m) (h.not_mem_members hsplit)
    (by simpa [members, hcount] using hup) (hcount ▸ hfailed)
  rw [List.range_zero, List.map_nil, List.append_nil] at hfirst
  exact startPart hpart hfirst

/-- When a plugin of a part has failed and those before it in the part are down, all earlier parts
are stopped. -/
theorem undo_parts (told : Answer) (stops : List GateId) (h : built.Startable s stream)
    (hsplit : stream.parts = pre ++ g :: post) (hstops : ∀ k, k ∈ stops ↔ k ∈ pre)
    (hnodup : stops.Nodup)
    (hend : Safe built error goal
      (fallen (pre.flatMap built.members ++ (List.range u).map g.member) (g.member u) standing)
      (.failed (.node reason)) rest) :
    Safe built error goal
      (undone ((List.range u).map g.member)
        (Function.update (raised (pre.flatMap built.members ++ (List.range u).map g.member))
          (g.member u) standing)) told
      (stops.map GateId.stopTask ++ .answer (.failed (.node reason)) :: rest) := by
  have hapart {k : GateId} (hk : k ∈ stops) (v w : Nat) : k.member v ≠ g.member w := by
    intro hsame
    have hpre := (hstops k).mp hk
    rw [(GateId.member_inj.mp hsame).1] at hpre
    have hnodup := h.nodup
    rw [hsplit] at hnodup
    exact (List.nodup_append.mp hnodup).2.2 g hpre g (List.mem_cons_self ..) rfl
  refine stopParts stops (fun k hk => ?_) hnodup (fun k hk v hv => ?_) fun told => answer _ ?_
  · exact h.parts k (by simp [hsplit, (hstops k).mp hk])
  · have hother : k.member v ∉ (List.range u).map g.member := by
      intro hmem
      obtain ⟨w, -, hsame⟩ := List.mem_map.mp hmem
      exact hapart hk v w hsame.symm
    rw [undone, if_neg hother, Function.update_of_ne (hapart hk v u)]
    exact if_pos (List.mem_append_left _ (List.mem_flatMap.mpr
      ⟨k, (hstops k).mp hk, List.mem_map_of_mem (List.mem_range.mpr hv)⟩))
  · have hall : undone (stops.flatMap built.members) (undone ((List.range u).map g.member)
        (Function.update (raised (pre.flatMap built.members ++ (List.range u).map g.member))
          (g.member u) standing)) =
        undone (stops.flatMap built.members ++ (List.range u).map g.member)
          (Function.update (raised (pre.flatMap built.members ++ (List.range u).map g.member))
            (g.member u) standing) := by
      funext j
      by_cases hj : j ∈ stops.flatMap built.members
      · simp only [undone, List.mem_append, hj, true_or, if_true]
      · simp only [undone, List.mem_append, hj, false_or, if_false]
    have hmem (j : Instance) : j ∈ stops.flatMap built.members ++ (List.range u).map g.member ↔
        j ∈ pre.flatMap built.members ++ (List.range u).map g.member := by
      simp only [List.mem_append, List.mem_flatMap, hstops]
    have hnew : g.member u ∉ pre.flatMap built.members ++ (List.range u).map g.member := by
      simp [h.not_mem_members hsplit, GateId.member_inj]
    rw [hall, undone_raised hmem hnew]
    exact hend

/-- A start that has failed at a plugin is safe when all before it are down. -/
def FallsSafely (built : World P) (s : Nat) (error : StreamError)
    (goal : List Deed → World P → Prop) : Prop :=
  ∀ before failing after reason standing, built.startOrder s = before ++ failing :: after →
    standing.FailsWith reason failing →
    Safe built error goal (fallen before failing standing) (.failed (.node reason)) []

/-- The nodes of a stream are started one after the other, up to its head. -/
theorem start_processors (told : Answer) (h : built.Startable s stream)
    (hfalls : FallsSafely built s error goal)
    (hnext : ∀ told, Safe built error goal
      (raised ((stream.processors.reverse.map GateId.node).flatMap built.members)) told
      [.stream (.startTriggers s 0)]) (p : Nat) (hp : p ≤ stream.processors.length) :
    Safe built error goal
      (raised (((stream.processors.drop p).reverse.map GateId.node).flatMap built.members)) told
      [.stream (.startProcessors s p)] := by
  induction p generalizing told with
  | zero =>
    refine of_free rfl (by simp) fun w record expired progress hscene hperform => ?_
    exact ⟨w, _, (Option.some.inj hperform).symm, rfl, hnext told⟩
  | succ p ih =>
    have hlt : p < stream.processors.length := hp
    have hdrop : (stream.processors.drop p).reverse.map GateId.node =
        (stream.processors.drop (p + 1)).reverse.map GateId.node ++
          [.node stream.processors[p]] := by
      rw [List.drop_eq_getElem_cons hlt, List.reverse_cons, List.map_append, List.map_singleton]
    have hsplit : stream.parts = (stream.processors.drop (p + 1)).reverse.map GateId.node ++
        .node stream.processors[p] ::
          ((stream.processors.take p).reverse.map GateId.node ++
            stream.triggers.map GateId.trigger) := by
      have hall : stream.processors.reverse =
          (stream.processors.drop p).reverse ++ (stream.processors.take p).reverse := by
        rw [← List.reverse_append, List.take_append_drop]
      rw [Stream.parts, hall, List.map_append, hdrop]
      simp only [List.append_assoc, List.cons_append, List.nil_append]
    refine of_free rfl (by simp) fun w record expired progress hscene hperform => ?_
    have hstarts : w.startProcessors s (p + 1) = some progress := hperform
    simp only [startProcessors, hscene.stream_eq h, List.getElem?_eq_getElem hlt,
      Option.bind_eq_bind, Option.bind_some] at hstarts
    refine ⟨w, _, (Option.some.inj hstarts).symm, rfl, start_part h hsplit ?_
      fun v hv reason standing hstanding => ?_⟩
    · refine of_free rfl (by simp) fun w record expired progress hscene hperform => ?_
      have hgoes : w.startedProcessor 0 s p = some progress := hperform
      simp only [startedProcessor, hscene.stream_eq h, hscene.told_eq, Option.bind_eq_bind,
        Option.bind_some] at hgoes
      exact ⟨w, _, (Option.some.inj hgoes).symm, rfl, hdrop ▸ ih .ok (Nat.le_of_succ_le hp)⟩
    · refine of_free rfl (by simp) fun w record expired progress hscene hperform => ?_
      have hgoes : w.startedProcessor 0 s p = some progress := hperform
      simp only [startedProcessor, hscene.stream_eq h, hscene.told_eq, Option.bind_eq_bind,
        Option.bind_some] at hgoes
      obtain ⟨after, horder⟩ := h.startOrder_eq hsplit hv
      have hundone := undo_parts (.failed (.node reason))
        ((stream.processors.drop (p + 1)).map GateId.node) h hsplit (by simp) ?_
        (hfalls _ _ after reason standing horder hstanding)
      · refine ⟨w, _, (Option.some.inj hgoes).symm, rfl, ?_⟩
        rw [List.append_assoc]
        rw [List.map_map] at hundone
        exact hundone
      · have hnodup := h.nodup
        rw [hsplit, List.map_reverse] at hnodup
        exact List.nodup_reverse.mp (List.nodup_append.mp hnodup).1

/-- The triggers of a stream are started one after the other. -/
theorem start_triggers (told : Answer) (h : built.Startable s stream)
    (hfalls : FallsSafely built s error goal) (t : Nat) (ht : t ≤ stream.triggers.length) :
    Safe built error goal
      (raised ((stream.processors.reverse.map GateId.node ++
        (stream.triggers.take t).map GateId.trigger).flatMap built.members)) told
      [.stream (.startTriggers s t)] := by
  induction hleft : stream.triggers.length - t generalizing t told with
  | zero =>
    obtain rfl : t = stream.triggers.length := by omega
    refine of_turn fun w w' record expired progress hscene hstep hturn => ?_
    have hstarts : w.startTriggers s stream.triggers.length = some progress := hturn.performs
    simp only [startTriggers, hscene.stream_eq h, List.getElem?_length, Option.bind_eq_bind,
      Option.bind_some] at hstarts
    obtain rfl := Option.some.inj hstarts
    exact assures_of_success hturn.agenda_me
  | succ left ih =>
    have hlt : t < stream.triggers.length := by omega
    have htake : (stream.triggers.take (t + 1)).map GateId.trigger =
        (stream.triggers.take t).map GateId.trigger ++ [.trigger stream.triggers[t]] := by
      rw [List.take_succ_eq_append_getElem hlt, List.map_append, List.map_singleton]
    have hsplit : stream.parts = (stream.processors.reverse.map GateId.node ++
        (stream.triggers.take t).map GateId.trigger) ++
          .trigger stream.triggers[t] :: (stream.triggers.drop (t + 1)).map GateId.trigger := by
      have hall : stream.triggers.map GateId.trigger =
        (stream.triggers.take t).map GateId.trigger ++
          .trigger stream.triggers[t] :: (stream.triggers.drop (t + 1)).map GateId.trigger := by
        rw [← List.map_cons, ← List.drop_eq_getElem_cons hlt, ← List.map_append,
          List.take_append_drop]
      rw [Stream.parts, hall, List.append_assoc]
    refine of_free rfl (by simp) fun w record expired progress hscene hperform => ?_
    have hstarts : w.startTriggers s t = some progress := hperform
    simp only [startTriggers, hscene.stream_eq h, List.getElem?_eq_getElem hlt,
      Option.bind_eq_bind, Option.bind_some] at hstarts
    refine ⟨w, _, (Option.some.inj hstarts).symm, rfl, start_part h hsplit ?_
      fun v hv reason standing hstanding => ?_⟩
    · refine of_free rfl (by simp) fun w record expired progress hscene hperform => ?_
      have hgoes : w.startedTrigger 0 s t = some progress := hperform
      simp only [startedTrigger, hscene.stream_eq h, hscene.told_eq, Option.bind_eq_bind,
        Option.bind_some] at hgoes
      refine ⟨w, _, (Option.some.inj hgoes).symm, rfl, ?_⟩
      rw [List.append_assoc, ← htake]
      exact ih .ok (t + 1) hlt (by omega)
    · refine of_free rfl (by simp) fun w record expired progress hscene hperform => ?_
      have hgoes : w.startedTrigger 0 s t = some progress := hperform
      simp only [startedTrigger, hscene.stream_eq h, hscene.told_eq, Option.bind_eq_bind,
        Option.bind_some] at hgoes
      obtain ⟨after, horder⟩ := h.startOrder_eq hsplit hv
      have hundone := undo_parts (.failed (.node reason))
        ((stream.triggers.take t).map GateId.trigger ++ stream.processors.map GateId.node) h hsplit
        (fun k => by simp [or_comm]) ?_ (hfalls _ _ after reason standing horder hstanding)
      · refine ⟨w, _, (Option.some.inj hgoes).symm, rfl, ?_⟩
        rw [List.append_assoc]
        rw [List.map_append, List.map_map, List.map_map] at hundone
        exact hundone
      · have hnodup := h.nodup
        rw [hsplit, List.map_reverse] at hnodup
        obtain ⟨hprocessors, htriggers, happart⟩ :=
          List.nodup_append.mp (List.nodup_append.mp hnodup).1
        exact List.nodup_append.mpr ⟨htriggers, List.nodup_reverse.mp hprocessors,
          fun k hk j hj hsame => happart j (List.mem_reverse.mpr hj) k hk hsame.symm⟩

/-- A stream is started from its tail to its head, and then from its first trigger on. -/
theorem start_stream (h : built.Startable s stream) (hfalls : FallsSafely built s error goal) :
    Safe built error goal (raised []) told [.stream (.start s)] := by
  refine of_free rfl (by simp) fun w record expired progress hscene hperform => ?_
  have hstarts : (do
      let stream ← w.streams[s]?
      w.andThen [.stream (.startProcessors s stream.processors.length)]) = some progress := hperform
  simp only [hscene.stream_eq h, Option.bind_eq_bind, Option.bind_some] at hstarts
  refine ⟨w, _, (Option.some.inj hstarts).symm, rfl, ?_⟩
  have hprocessors := start_processors told h hfalls (fun told => ?_)
    stream.processors.length (Nat.le_refl _)
  · simpa using hprocessors
  · simpa using start_triggers told h hfalls 0 (Nat.zero_le _)

end Safe

end World
end EventPipeline
