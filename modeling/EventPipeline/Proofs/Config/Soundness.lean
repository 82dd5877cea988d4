import EventPipeline.Config.Validation
import EventPipeline.Plugin.Registry

/-!
# `EventPipeline.Proofs.Config.Soundness`: what validation and the registry's check promise

`PipelineConfig.validate` and `Registry.check` collect problems. The theorems say what the
absence of problems means, template by template and stream by stream:

* `PipelineConfig.streamLayout_eq_ok_iff`: a stream has a layout exactly if its members are
  known triggers, at least one of them, and then known processors; the layout is the split of
  the members at the first one that is no trigger.
* `PipelineConfig.validate_eq_ok_iff`: a configuration is accepted exactly if it is sound:
  every stream has a layout, and every template makes sense by itself.
* `Registry.check_eq_ok_iff`: a registry accepts a configuration exactly if it knows every
  plugin that the configuration names.
-/

set_option autoImplicit false

namespace EventPipeline

/-! ### Streams -/

/-- The layout is a split of the members of a stream: at least one known trigger, and known
processors behind the triggers. -/
structure StreamLayout.Splits (layout : StreamLayout) (config : PipelineConfig)
    (members : List String) : Prop where
  nonempty : layout.triggers ≠ []
  triggers : ∀ name ∈ layout.triggers, config.triggers.contains name = true
  processors : ∀ name ∈ layout.processors, config.nodes.contains name = true
  members : layout.triggers ++ layout.processors = members

namespace PipelineConfig

variable {config : PipelineConfig} {name : String} {layout : StreamLayout}

/-- A layout is a split of the configured members, and its processors do not begin with a
trigger. -/
theorem splits_of_streamLayout (h : config.streamLayout name = .ok layout) :
    ∃ members, config.streams.get? name = some members ∧ layout.Splits config members ∧
      ∀ first ∈ layout.processors.head?, config.triggers.contains first = false := by
  unfold streamLayout at h
  split at h
  · cases h
  · rename_i members hmembers
    dsimp only at h
    split at h
    · cases h
    · rename_i hsome
      split at h
      · cases h
      · rename_i hknown
        cases h
        refine ⟨members, hmembers, ⟨?_, ?_, ?_, List.takeWhile_append_dropWhile⟩, ?_⟩
        · intro hnil
          exact hsome (List.isEmpty_iff.mpr hnil)
        · intro trigger htrigger
          exact List.all_eq_true.mp List.all_takeWhile trigger htrigger
        · intro processor hprocessor
          simpa using List.find?_eq_none.mp hknown processor hprocessor
        · intro first hfirst
          have hstop := List.head?_dropWhile_not config.triggers.contains members
          rw [Option.mem_def.mp hfirst] at hstop
          exact hstop

/-- A stream whose members are split at the first one that is no trigger has that layout. -/
theorem streamLayout_of_splits {members : List String}
    (hmembers : config.streams.get? name = some members) (hsplits : layout.Splits config members)
    (hfirst : ∀ first ∈ layout.processors.head?, config.triggers.contains first = false) :
    config.streamLayout name = .ok layout := by
  obtain ⟨hnonempty, htriggers, hprocessors, rfl⟩ := hsplits
  -- behind the triggers nothing is taken, and of them nothing is left
  have htake : layout.processors.takeWhile config.triggers.contains = [] := by
    cases hlist : layout.processors with
    | nil => rfl
    | cons first rest => simp [hfirst first (by simp [hlist])]
  have hdrop : layout.processors.dropWhile config.triggers.contains = layout.processors := by
    cases hlist : layout.processors with
    | nil => rfl
    | cons first rest => simp [hfirst first (by simp [hlist])]
  have hknown : layout.processors.find? (fun member => !config.nodes.contains member) = none := by
    rw [List.find?_eq_none]
    intro processor hprocessor
    simp [hprocessors processor hprocessor]
  have hsome : layout.triggers.isEmpty = false := by
    simpa [List.isEmpty_eq_false_iff] using hnonempty
  simp only [streamLayout, hmembers, List.takeWhile_append_of_pos htriggers,
    List.dropWhile_append_of_pos htriggers, htake, hdrop, List.append_nil, hsome, hknown,
    Bool.false_eq_true, if_false]

/-- A stream has a layout exactly if its members can be split; of the splits its layout is the
one whose processors do not begin with a trigger. -/
theorem streamLayout_eq_ok_iff :
    config.streamLayout name = .ok layout ↔
      ∃ members, config.streams.get? name = some members ∧ layout.Splits config members ∧
        ∀ first ∈ layout.processors.head?, config.triggers.contains first = false := by
  constructor
  · exact splits_of_streamLayout
  · rintro ⟨members, hmembers, hsplits, hfirst⟩
    exact streamLayout_of_splits hmembers hsplits hfirst

end PipelineConfig

/-! ### Templates -/

/-- A check that adds its one problem where the condition fails. -/
theorem ite_singleton_eq_nil {α : Type} {p : Prop} [Decidable p] {a : α} :
    (if p then [] else [a]) = [] ↔ p := by
  by_cases hp : p <;> simp [hp]

/-- The template of a node makes sense by itself. -/
structure NodeTemplate.IsSound (template : NodeTemplate) : Prop where
  mode : template.mode ≠ .process
  pool : template.poolSize ≠ 0
  poll : template.pollTimeout > 0.0
  filter : ∃ compiled, Filter.compile template.filter = .ok compiled

/-- A node has no problems exactly if its template makes sense. -/
theorem NodeTemplate.problems_eq_nil_iff {template : NodeTemplate} {name : String} :
    template.problems name = [] ↔ template.IsSound := by
  rw [problems, List.append_eq_nil_iff, List.append_eq_nil_iff, List.append_eq_nil_iff,
    ite_singleton_eq_nil]
  constructor
  · rintro ⟨⟨⟨hmode, hpool⟩, hpoll⟩, hfilter⟩
    refine ⟨by simpa using hmode, by simpa using hpool, hpoll, ?_⟩
    cases hcompile : Filter.compile template.filter with
    | ok compiled => exact ⟨compiled, rfl⟩
    | error source => simp [hcompile] at hfilter
  · rintro ⟨hmode, hpool, hpoll, compiled, hcompile⟩
    exact ⟨⟨⟨by simp [hmode], by simp [hpool]⟩, hpoll⟩, by rw [hcompile]⟩

/-- Every stream of the configuration has a layout, and every template makes sense. -/
structure PipelineConfig.IsSound (config : PipelineConfig) : Prop where
  streams : ∀ name ∈ config.streams.names, ∃ layout, config.streamLayout name = .ok layout
  nodes : ∀ node ∈ config.nodes, node.2.IsSound
  triggers : ∀ trigger ∈ config.triggers, trigger.2.poolSize ≠ 0
  heartbeats : ∀ heartbeat ∈ config.heartbeats, heartbeat.2.interval > 0.0

namespace PipelineConfig

variable {config : PipelineConfig}

/-- A configuration has no problems exactly if it is sound. -/
theorem problems_eq_nil_iff : config.problems = [] ↔ config.IsSound := by
  rw [problems, List.append_eq_nil_iff, List.append_eq_nil_iff, List.append_eq_nil_iff,
    List.flatMap_eq_nil_iff, List.flatMap_eq_nil_iff, List.flatMap_eq_nil_iff,
    List.flatMap_eq_nil_iff]
  simp only [NodeTemplate.problems_eq_nil_iff, TriggerTemplate.problems,
    HeartbeatTemplate.problems, ite_singleton_eq_nil]
  constructor
  · rintro ⟨⟨⟨hstreams, hnodes⟩, htriggers⟩, hheartbeats⟩
    refine ⟨?_, hnodes, fun trigger hmem => by simpa using htriggers trigger hmem, hheartbeats⟩
    intro name hname
    obtain ⟨stream, hstream, rfl⟩ := List.mem_map.mp hname
    have hnone := hstreams stream hstream
    cases hlayout : config.streamLayout stream.1 with
    | ok layout => exact ⟨layout, rfl⟩
    | error e => simp [hlayout] at hnone
  · rintro ⟨hstreams, hnodes, htriggers, hheartbeats⟩
    refine ⟨⟨⟨?_, hnodes⟩, fun trigger hmem => by simp [htriggers trigger hmem]⟩, hheartbeats⟩
    intro stream hstream
    obtain ⟨layout, hlayout⟩ := hstreams stream.1 (List.mem_map_of_mem hstream)
    rw [hlayout]

/-- Exactly the sound configurations are accepted. -/
theorem validate_eq_ok_iff : config.validate = .ok () ↔ config.IsSound := by
  rw [← problems_eq_nil_iff, validate]
  split
  · rename_i hempty
    simpa using hempty
  · rename_i hempty
    simpa using hempty

end PipelineConfig

/-! ### Plugins -/

namespace Registry

variable {P : Plugins} {registry : Registry P} {config : PipelineConfig}

/-- The registry has every plugin that the configuration names. -/
structure Knows (registry : Registry P) (config : PipelineConfig) : Prop where
  triggers : ∀ trigger ∈ config.triggers, ∃ factory,
    registry.trigger trigger.2.plugin = .ok factory
  processors : ∀ node ∈ config.nodes, ∃ factory, registry.processor node.2.plugin = .ok factory
  heartbeats : ∀ heartbeat ∈ config.heartbeats, ∃ factory,
    registry.heartbeat heartbeat.2.plugin = .ok factory

/-- Where no lookup reports an error there is a value for each. -/
theorem filterMap_errorOf_eq_nil_iff {α β : Type} {lookup : α → Except ConfigError β}
    {as : List α} :
    as.filterMap (fun a => missing.errorOf (lookup a)) = [] ↔
      ∀ a ∈ as, ∃ b, lookup a = .ok b := by
  rw [List.filterMap_eq_nil_iff]
  refine forall₂_congr fun a _ => ?_
  cases lookup a with
  | ok b => simp [missing.errorOf]
  | error e => simp [missing.errorOf]

/-- A registry accepts exactly the configurations whose plugins it has. -/
theorem check_eq_ok_iff : registry.check config = .ok () ↔ registry.Knows config := by
  have hmissing : registry.check config = .ok () ↔ registry.missing config = [] := by
    rw [check]
    split
    · rename_i hempty
      simpa using hempty
    · rename_i hempty
      simpa using hempty
  rw [hmissing, missing, List.append_eq_nil_iff, List.append_eq_nil_iff,
    filterMap_errorOf_eq_nil_iff, filterMap_errorOf_eq_nil_iff, filterMap_errorOf_eq_nil_iff]
  constructor
  · rintro ⟨⟨htriggers, hprocessors⟩, hheartbeats⟩
    exact ⟨htriggers, hprocessors, hheartbeats⟩
  · rintro ⟨htriggers, hprocessors, hheartbeats⟩
    exact ⟨⟨htriggers, hprocessors⟩, hheartbeats⟩

end Registry
end EventPipeline
