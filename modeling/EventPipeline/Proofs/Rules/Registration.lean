import EventPipeline.Rules.Ruler

/-!
# `EventPipeline.Proofs.Rules.Registration`: what a rule file leaves behind

A rule set is registered as a whole or not at all: every line is compiled first, and
`Ruler.registerRuleSet` gives back a ruler only if it succeeds. A rule file is not. Its rule sets
are registered one after another, and `Ruler.loadRules` stops at the first that fails, with those
before it in place. `loadRules_of_error` says what a rule file that fails leaves behind: the ruler
is the same exactly if the text cannot be read or its first rule set fails.
-/

set_option autoImplicit false

namespace EventPipeline.Rules.Ruler

/-- What registering rule sets makes of a ruler: each is compiled and kept under its name, which
was free, and everything else is as it was. -/
structure Registered (ruler : Ruler) (sets : List RuleSetSource) (after : Ruler) : Prop where
  nodup : (sets.map Prod.fst).Nodup
  free : ∀ set ∈ sets, ruler.ruleSets.get? set.1 = none
  compiled : ∀ set ∈ sets, ∃ rules, set.2.mapM Rule.compile = .ok rules ∧
    after.ruleSets.get? set.1 = some rules
  others : ∀ name ∉ sets.map Prod.fst, after.ruleSets.get? name = ruler.ruleSets.get? name
  globals : after.globals = ruler.globals

namespace Registered

variable {ruler mid after : Ruler} {set : RuleSetSource} {sets : List RuleSetSource}

theorem none (ruler : Ruler) : Registered ruler [] ruler where
  nodup := List.nodup_nil
  free := List.forall_mem_nil _
  compiled := List.forall_mem_nil _
  others := fun _ _ => rfl
  globals := rfl

/-- A rule set, and then others. -/
theorem cons (hset : Registered ruler [set] mid) (hsets : Registered mid sets after) :
    Registered ruler (set :: sets) after := by
  obtain ⟨rules, hrules, hkept⟩ := hset.compiled set (List.mem_singleton_self set)
  -- the names that follow are free behind the first one, so they differ from it
  have hne : ∀ other ∈ sets, other.1 ≠ set.1 := by
    intro other hother heq
    have hfree := hsets.free other hother
    rw [heq, hkept] at hfree
    cases hfree
  have hnot : set.1 ∉ sets.map Prod.fst := by
    intro hmem
    obtain ⟨other, hother, heq⟩ := List.mem_map.mp hmem
    exact hne other hother heq
  constructor
  case nodup => exact List.nodup_cons.mpr ⟨hnot, hsets.nodup⟩
  case free =>
    refine List.forall_mem_cons.mpr ⟨hset.free set (List.mem_singleton_self set), ?_⟩
    intro other hother
    rw [← hset.others other.1 (by simpa using hne other hother)]
    exact hsets.free other hother
  case compiled =>
    refine List.forall_mem_cons.mpr ⟨⟨rules, hrules, ?_⟩, hsets.compiled⟩
    rw [hsets.others set.1 hnot, hkept]
  case others =>
    intro name hname
    rw [List.map_cons, List.mem_cons, not_or] at hname
    obtain ⟨hfirst, hrest⟩ := hname
    rw [hsets.others name hrest, hset.others name (by simpa using hfirst)]
  case globals => rw [hsets.globals, hset.globals]

/-- A rule set that has been registered is not the ruler's old one. -/
theorem eq_nil (h : Registered ruler sets ruler) : sets = [] := by
  refine List.eq_nil_iff_forall_not_mem.mpr fun set hset => ?_
  obtain ⟨rules, -, hkept⟩ := h.compiled set hset
  rw [h.free set hset] at hkept
  cases hkept

end Registered

variable {ruler after : Ruler} {sets : List RuleSetSource} {messages : List Message}
  {e : RulerError}

theorem registered_of_registerRuleSet {name : String} {lines : List String} {message : Message}
    (h : ruler.registerRuleSet name lines = .ok (after, message)) :
    Registered ruler [(name, lines)] after := by
  unfold registerRuleSet at h
  split at h
  · cases h
  rename_i hfree
  split at h
  · cases h
  rename_i rules hrules
  cases h
  constructor
  case nodup => exact List.pairwise_singleton _ _
  case free => simpa [Fields.contains] using hfree
  case compiled =>
    exact List.forall_mem_singleton.mpr ⟨rules, hrules, Fields.get?_put_self _ _ _⟩
  case others =>
    intro other hother
    exact Fields.get?_put_of_ne _ _ (by simpa [eq_comm] using hother)
  case globals => rfl

/-- Rule sets that can all be registered are. -/
theorem registered_of_registerAll (h : ruler.registerAll sets = (after, messages, .ok ())) :
    Registered ruler sets after := by
  induction sets generalizing ruler messages with
  | nil =>
    cases h
    exact .none _
  | cons set sets ih =>
    unfold registerAll at h
    split at h
    · cases h
    · rename_i mid message hset
      rcases hsets : mid.registerAll sets with ⟨last, later, result⟩
      rw [hsets] at h
      cases h
      exact (registered_of_registerRuleSet hset).cons (ih hsets)

/-- Of rule sets that cannot all be registered, those before the first that fails are. -/
theorem registerAll_of_error (h : ruler.registerAll sets = (after, messages, .error e)) :
    ∃ done name lines rest, sets = done ++ (name, lines) :: rest ∧
      ruler.registerAll done = (after, messages, .ok ()) ∧
      after.registerRuleSet name lines = .error e := by
  -- the first set fails, or it is one more in front of those before the one that fails
  induction sets generalizing ruler messages with
  | nil => cases h
  | cons set sets ih =>
    unfold registerAll at h
    split at h
    · rename_i hset
      cases h
      exact ⟨[], set.1, set.2, sets, rfl, rfl, hset⟩
    · rename_i mid message hset
      rcases hsets : mid.registerAll sets with ⟨last, later, result⟩
      rw [hsets] at h
      cases h
      obtain ⟨done, name, lines, rest, rfl, hdone, hfails⟩ := ih hsets
      refine ⟨set :: done, name, lines, rest, rfl, ?_, hfails⟩
      rw [registerAll, hset]
      dsimp only
      rw [hdone]

/-- A rule file that fails. Either its text cannot be read, and nothing happens; or one of its rule
sets cannot be registered. Then those before it have been and those behind it have not, and the
ruler is unchanged only if there is none before it. -/
theorem loadRules_of_error {text : String}
    (h : ruler.loadRules text = (after, messages, .error e)) :
    (after = ruler ∧ messages = [] ∧
        ∃ reason, parseRules text = .error reason ∧ e = .parse reason) ∨
      ∃ done name lines rest, parseRules text = .ok (done ++ (name, lines) :: rest) ∧
        Registered ruler done after ∧ after.registerRuleSet name lines = .error e ∧
        (after = ruler ↔ done = []) := by
  unfold loadRules at h
  split at h
  · rename_i reason hreason
    cases h
    exact .inl ⟨rfl, rfl, reason, hreason, rfl⟩
  · rename_i sets hsets
    obtain ⟨done, name, lines, rest, rfl, hdone, hfails⟩ := registerAll_of_error h
    have hregistered := registered_of_registerAll hdone
    refine .inr ⟨done, name, lines, rest, hsets, hregistered, hfails, ?_, ?_⟩
    · rintro rfl
      exact hregistered.eq_nil
    · rintro rfl
      cases hdone
      rfl

end EventPipeline.Rules.Ruler
