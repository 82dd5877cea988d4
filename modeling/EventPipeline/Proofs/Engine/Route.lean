import EventPipeline.Proofs.Engine.Account

/-!
# `EventPipeline.Proofs.Engine.Route`: the route through a stream

The configuration of a stream, the registry and what its processors make of payloads
determine a route (`HasRoute.unique`), and the modes of nodes and the sizes of their pools have
no part in it (`HasRoute.of_allSingle`). A stream that was built is staffed along its route
(`buildStream_staffed`).
-/

set_option autoImplicit false

namespace EventPipeline

variable {P : Plugins}

/-! ## The route of a configuration -/

section

variable {config : PipelineConfig} {registry : Registry P} {name : String}
  {ending : String → Json → Ending}

/-- The stage that a member of a stream is, going by its template and its factory. -/
def PipelineConfig.HasStage (config : PipelineConfig) (registry : Registry P) (name : String)
    (ending : String → Json → Ending) (member : String) (stage : Stage) : Prop :=
  ∃ template factory log, config.nodes.get? member = some template ∧
    registry.processor template.plugin = .ok factory ∧
    Node.buildFilter (World.qualifiedName name member) template.filter =
      .ok (stage.filter, log) ∧
    stage.kind = factory.kind ∧ stage.ending = ending member

/-- The route through a stream. -/
def PipelineConfig.HasRoute (config : PipelineConfig) (registry : Registry P) (name : String)
    (ending : String → Json → Ending) (route : List Stage) : Prop :=
  ∃ layout, config.streamLayout name = .ok layout ∧
    List.Forall₂ (config.HasStage registry name ending) layout.processors route

/-- A member is only one stage. -/
theorem PipelineConfig.HasStage.unique {member : String} {stage stage' : Stage}
    (h : config.HasStage registry name ending member stage)
    (h' : config.HasStage registry name ending member stage') : stage = stage' := by
  obtain ⟨template, factory, log, htemplate, hfactory, hfilter, hkind, hending⟩ := h
  obtain ⟨template', factory', log', htemplate', hfactory', hfilter', hkind', hending'⟩ := h'
  obtain rfl : template = template' := Option.some.inj (htemplate.symm.trans htemplate')
  obtain rfl : factory = factory' := Except.ok.inj (hfactory.symm.trans hfactory')
  obtain ⟨hfilters, -⟩ := Prod.mk.inj (Except.ok.inj (hfilter.symm.trans hfilter'))
  obtain ⟨kind, filter, ends⟩ := stage
  obtain ⟨kind', filter', ends'⟩ := stage'
  simp_all

/-- A stream has only one route. -/
theorem PipelineConfig.HasRoute.unique {route route' : List Stage}
    (h : config.HasRoute registry name ending route)
    (h' : config.HasRoute registry name ending route') : route = route' := by
  obtain ⟨layout, hlayout, hroute⟩ := h
  obtain ⟨layout', hlayout', hroute'⟩ := h'
  obtain rfl : layout = layout' := Except.ok.inj (hlayout.symm.trans hlayout')
  generalize layout.processors = members at hroute hroute'
  induction hroute generalizing route' with
  | nil => exact (List.forall₂_nil_left_iff.mp hroute').symm
  | cons hstage _ ih =>
    cases hroute' with
    | cons hstage' hrest' => rw [hstage.unique hstage', ih hrest']

/-- A lookup after all values have changed. -/
theorem Fields.get?_mapValues {α β : Type} (f : α → β) (fields : Fields α) (key : String) :
    (fields.mapValues f).get? key = (fields.get? key).map f := by
  induction fields with
  | nil => rfl
  | cons field rest ih =>
    by_cases hkey : field.1 = key
    · simp [mapValues, get?, hkey]
    · simpa [mapValues, get?, hkey] using ih

/-- The modes of nodes have no part in the layout of a stream. -/
theorem PipelineConfig.streamLayout_allSingle (config : PipelineConfig) (name : String) :
    config.allSingle.streamLayout name = config.streamLayout name := by
  have hcontains : config.allSingle.nodes.contains = config.nodes.contains := by
    funext member
    simp [allSingle, Fields.contains, Fields.get?_mapValues]
  simp only [streamLayout, hcontains]
  rfl

/-- The modes of nodes have no part in what a member of a stream is. -/
theorem PipelineConfig.HasStage.of_allSingle {member : String} {stage : Stage}
    (h : config.allSingle.HasStage registry name ending member stage) :
    config.HasStage registry name ending member stage := by
  obtain ⟨template, factory, log, htemplate, hfactory, hfilter, hkind, hending⟩ := h
  rw [allSingle, Fields.get?_mapValues] at htemplate
  obtain ⟨original, horiginal, rfl⟩ := Option.map_eq_some_iff.mp htemplate
  exact ⟨original, factory, log, horiginal, hfactory, hfilter, hkind, hending⟩

/-- The modes of nodes have no part in the route through a stream. -/
theorem PipelineConfig.HasRoute.of_allSingle {route : List Stage}
    (h : config.allSingle.HasRoute registry name ending route) :
    config.HasRoute registry name ending route := by
  obtain ⟨layout, hlayout, hroute⟩ := h
  exact ⟨layout, (config.streamLayout_allSingle name).symm.trans hlayout,
    hroute.imp fun _ _ => .of_allSingle⟩

/-- The modes of nodes have no part in what processors make of payloads. -/
theorem PipelineConfig.DecidesAs.allSingle (h : config.DecidesAs registry name ending) :
    config.allSingle.DecidesAs registry name ending := by
  intro layout hlayout member hmember template htemplate
  rw [PipelineConfig.allSingle, Fields.get?_mapValues] at htemplate
  obtain ⟨original, horiginal, rfl⟩ := Option.map_eq_some_iff.mp htemplate
  exact h layout ((config.streamLayout_allSingle name).symm.trans hlayout) member hmember
    original horiginal

end

/-! ## Nodes that are built -/

/-- All instances of the units of a node come from its factory. -/
theorem Node.buildUnits_made {name : String} {mode : ExecutionMode}
    {make : P.Shared → Made P.Shared NodeError P.Processor} {count number : Nat}
    {shared : P.Shared} {units : List (ExecutionUnit P)}
    (h : (buildUnits name mode make count number shared).reply = .returned units) :
    ∀ unit ∈ units, ∃ shared, (make shared).reply = .returned unit.processor := by
  induction count generalizing number shared units with
  | zero =>
    obtain rfl : [] = units := by simpa [buildUnits] using h
    simp
  | succ count ih =>
    obtain ⟨processor, hprocessor, heq⟩ := Made.andThen_returned h
    rw [buildUnits, heq] at h
    obtain ⟨rest, hrest, heq⟩ := Made.andThen_returned h
    rw [heq] at h
    obtain rfl := Reply.returned.inj h
    intro unit hunit
    rcases List.mem_cons.mp hunit with rfl | hunit
    · exact ⟨shared, hprocessor⟩
    · exact ih hrest unit hunit

/-- A node that is built has the role and the filter of its settings. -/
theorem Node.build_made {name : String} {settings : NodeSettings}
    {make : P.Shared → Made P.Shared NodeError P.Processor} {shared : P.Shared} {node : Node P}
    (h : (build name settings make shared).1.reply = .returned node) :
    node.kind = settings.kind ∧
      (∃ log, buildFilter name settings.filter = .ok (node.filter, log)) ∧
      ∀ unit ∈ node.units, ∃ shared, (make shared).reply = .returned unit.processor := by
  unfold build at h
  split at h
  case h_1 => simp at h
  case h_2 count hcount =>
    split at h
    case h_1 => simp at h
    case h_2 filter log hfilter =>
      obtain ⟨units, hunits, heq⟩ := Made.andThen_returned h
      rw [heq] at h
      obtain rfl := Reply.returned.inj h
      exact ⟨rfl, ⟨log, hfilter⟩, buildUnits_made hunits⟩

namespace World

variable {w : World P} {config : PipelineConfig} {registry : Registry P} {name : String}
  {ending : String → Json → Ending}

/-- A node that is built is a stage, if its processor decides by the payload. -/
theorem buildProcessor_runs {member : String} {template : NodeTemplate} {initWithin : Duration}
    {n : Nat} (htemplate : config.nodes.get? member = some template)
    (hdecides : ∀ factory, registry.processor template.plugin = .ok factory →
      ∀ shared processor,
        (factory.make { name := qualifiedName name member, args := template.args }
          shared).reply = .returned processor → P.DecidesAs (ending member) processor)
    (h : (w.buildProcessor registry (qualifiedName name member) template initWithin).reply =
      .returned n) :
    ∃ node stage shared log, config.HasStage registry name ending member stage ∧
      node.Runs stage ∧
      (w.buildProcessor registry (qualifiedName name member) template initWithin).shared =
        { w with shared, log, nodes := w.nodes ++ [node] } := by
  cases hfactory : registry.processor template.plugin with
  | error e => simp [buildProcessor, hfactory] at h
  | ok factory =>
    rcases hbuild : Node.build (qualifiedName name member)
      (.ofTemplate template factory.kind initWithin)
      (factory.make { name := qualifiedName name member, args := template.args }) w.shared
      with ⟨made, log⟩
    cases hreply : made.reply with
    | returned node =>
      obtain ⟨hkind, ⟨filterLog, hfilter⟩, hunits⟩ :=
        Node.build_made (show (Node.build ..).1.reply = .returned node by rw [hbuild]; exact hreply)
      refine ⟨node, { kind := factory.kind, filter := node.filter, ending := ending member },
        made.shared, w.log ++ log,
        ⟨template, factory, filterLog, htemplate, hfactory, hfilter, rfl, rfl⟩,
        ⟨hkind, rfl, fun unit hunit => ?_⟩, ?_⟩
      · obtain ⟨shared, hshared⟩ := hunits unit hunit
        exact hdecides factory hfactory shared _ hshared
      · simp only [buildProcessor, hfactory, hbuild, hreply]
        rfl
    | failed | panicked | waiting => simp [buildProcessor, hfactory, hbuild, hreply] at h

/-- The nodes of a stream that are built are stages, one for each member. -/
theorem buildProcessors_runs {initWithin : Duration} {members : List String} {parts : List Nat}
    (hdecides : ∀ member ∈ members, ∀ template, config.nodes.get? member = some template →
      ∀ factory, registry.processor template.plugin = .ok factory →
      ∀ shared processor,
        (factory.make { name := qualifiedName name member, args := template.args }
          shared).reply = .returned processor → P.DecidesAs (ending member) processor)
    (h : (buildParts config.nodes name (fun w qualified template =>
      w.buildProcessor registry qualified template initWithin) members w).reply =
        .returned parts) :
    ∃ nodes route, List.Forall₂ (config.HasStage registry name ending) members route ∧
      List.Forall₂ Node.Runs nodes route ∧
      (buildParts config.nodes name (fun w qualified template =>
        w.buildProcessor registry qualified template initWithin) members w).shared.nodes =
          w.nodes ++ nodes ∧
      (buildParts config.nodes name (fun w qualified template =>
        w.buildProcessor registry qualified template initWithin) members w).shared.triggers =
          w.triggers := by
  induction members generalizing w parts with
  | nil => exact ⟨[], [], .nil, .nil, (List.append_nil _).symm, rfl⟩
  | cons member members ih =>
    cases htemplate : config.nodes.get? member with
    | none => simp [buildParts, htemplate] at h
    | some template =>
      simp only [buildParts, htemplate] at h ⊢
      obtain ⟨part, hpart, heq⟩ := Made.andThen_returned h
      obtain ⟨node, stage, shared, log, hstage, hruns, hshared⟩ := buildProcessor_runs htemplate
        (hdecides member (by simp) template htemplate) hpart
      rw [heq] at h ⊢
      obtain ⟨rest, hrest, heq⟩ := Made.andThen_returned h
      obtain ⟨nodes, route, hstages, hnodes, hall, htriggers⟩ := ih
        (fun member hmember => hdecides member (by simp [hmember])) hrest
      rw [heq]
      refine ⟨node :: nodes, stage :: route, .cons hstage hstages, .cons hruns hnodes, ?_, ?_⟩
      · rw [hall, hshared]
        simp
      · rw [htriggers, hshared]

/-- What nodes are made of decides whether they are stages. -/
theorem Staffed.of_staff {v : World P} {route : List Stage}
    (h : v.nodes.map Node.staff = w.nodes.map Node.staff)
    (hruns : List.Forall₂ Node.Runs w.nodes route) : v.Staffed route := by
  have hlength : v.nodes.length = w.nodes.length := by simpa using congrArg List.length h
  refine ⟨hlength.trans hruns.length_eq, fun n later stage hlater hstage => ?_⟩
  have hstaff := congrArg (·[n]?) h
  simp only [List.getElem?_map, hlater, Option.map_some] at hstaff
  obtain ⟨node, hnode, heq⟩ := Option.map_eq_some_iff.mp hstaff.symm
  obtain ⟨hn, rfl⟩ := List.getElem?_eq_some_iff.mp hnode
  obtain ⟨hn', rfl⟩ := List.getElem?_eq_some_iff.mp hstage
  obtain ⟨hkind, hfilter, hunits⟩ := hruns.get hn hn'
  simp only [Node.staff, Prod.mk.injEq] at heq
  obtain ⟨hkind', hfilter', hprocessors⟩ := heq
  refine ⟨hkind' ▸ hkind, hfilter' ▸ hfilter, fun unit hunit => ?_⟩
  have hmem : unit.processor ∈ later.units.map (·.processor) := List.mem_map_of_mem hunit
  obtain ⟨old, hold, hprocessor⟩ := List.mem_map.mp (hprocessors ▸ hmem)
  exact hprocessor ▸ hunits old hold

/-- A stream that is built in an idle world, with processors that decide by the payload, is
staffed along its route, and has the triggers of its layout. -/
theorem buildStream_staffed {shared : P.Shared} {output : Bool} {s : Nat}
    (hdecides : config.DecidesAs registry name ending)
    (h : (idle shared).buildStream name config registry output =
      { reply := .returned s, shared := w }) :
    (∃ route, config.HasRoute registry name ending route ∧ w.Staffed route) ∧
      ∃ layout, config.streamLayout name = .ok layout ∧
        w.triggers.length = layout.triggers.length := by
  have hreply := congrArg Made.reply h
  have hshared := congrArg Made.shared h
  unfold buildStream at hreply hshared
  cases hlayout : layoutOf config name with
  | error e => simp [hlayout] at hreply
  | ok layout =>
    simp only [hlayout] at hreply hshared
    have hlayout' : config.streamLayout name = .ok layout := by
      unfold layoutOf at hlayout
      split at hlayout <;> simp_all
    obtain ⟨processors, hprocessors, heq⟩ := Made.andThen_returned hreply
    rw [heq] at hreply hshared
    obtain ⟨nodes, route, hstages, hruns, hnodes, hnone⟩ :=
      buildProcessors_runs (hdecides layout hlayout') hprocessors
    obtain ⟨rfl, hlength, -⟩ := buildParts_eq (c := fun w => w.nodes.length) (I := fun _ => True)
      (fun w name member template n _ _ hn _ => by
        obtain ⟨rfl, node, -, shared, log, heq⟩ := buildProcessor_eq hn
        rw [heq]
        exact ⟨rfl, by simp, trivial⟩) hprocessors trivial
    generalize (buildParts config.nodes name _ layout.processors (idle shared)).shared = built at *
    obtain ⟨triggers, htriggers, heq⟩ := Made.andThen_returned hreply
    rw [heq] at hreply hshared
    obtain ⟨rfl, hcount, hsame⟩ := buildParts_eq (c := fun w => w.triggers.length)
      (I := fun w => w.nodes = built.nodes)
      (fun w name member template t _ _ ht hI => by
        obtain ⟨rfl, trigger, -, shared, heq⟩ := buildTrigger_eq ht
        rw [heq]
        exact ⟨rfl, by simp, hI⟩) htriggers rfl
    generalize (buildParts config.triggers name _ layout.triggers built).shared = all at *
    have hidle : (idle shared).nodes.length = 0 ∧ (idle shared).triggers = [] := ⟨rfl, rfl⟩
    rw [hnone, hidle.2, List.length_nil] at hreply hshared hcount
    rw [hidle.1] at hreply hshared hlength
    cases hwire : all.wire (List.range' 0 layout.triggers.length)
        (List.range' 0 layout.processors.length)
        (if output then .output true else .tail) with
    | error e => simp [hwire] at hreply
    | ok wired =>
      simp only [hwire] at hreply hshared
      obtain ⟨hrewired, -⟩ := wire_eq (by split <;> simp) hwire (by rw [hsame]; omega) (by omega)
      subst hshared
      refine ⟨⟨route, ⟨layout, hlayout', hstages⟩, ?_⟩, layout, hlayout', ?_⟩
      · refine Staffed.of_staff (w := all) hrewired.staff ?_
        rw [hsame, hnodes]
        exact hruns
      · have htriggers : wired.triggers.length = layout.triggers.length := by
          rw [hrewired.triggers]
          omega
        exact htriggers

end World
end EventPipeline
