import EventPipeline.Proofs.Engine.Lead

/-!
# `EventPipeline.Proofs.Engine.Settlement`: the accounts of a stopped stream

When a stream has come to its end, no thread has anything left to do
(`Orderly.agendas_eq_nil`). Then nothing is left of the right sides of the ledger but what
processors have ended, and its equations say that the stream is settled
(`Orderly.settled`).
-/

set_option autoImplicit false

namespace EventPipeline

/-- A sum with a single summand that counts. -/
theorem sum_eq_single {α : Type} {φ : α → Nat} {l : List α} {i : Nat} {a : α}
    (h : l[i]? = some a) (hother : ∀ j b, j ≠ i → l[j]? = some b → φ b = 0) :
    (l.map φ).sum = φ a := by
  induction l generalizing i with
  | nil => simp at h
  | cons b l ih =>
    cases i with
    | zero =>
      obtain rfl : b = a := by simpa using h
      have hzero : (l.map φ).sum = 0 := by
        rw [List.sum_eq_zero]
        intro n hn
        obtain ⟨c, hc, rfl⟩ := List.mem_map.mp hn
        obtain ⟨j, hj⟩ := List.mem_iff_getElem?.mp hc
        exact hother (j + 1) c (by omega) (by simpa using hj)
      simp [hzero]
    | succ i =>
      have hb : φ b = 0 := hother 0 b (by omega) (by simp)
      have := ih (by simpa using h) fun j c hj hc => hother (j + 1) c (by omega) (by simpa using hc)
      simp [hb, this]

/-- A sum over the places of a list. -/
theorem sum_range_getElem? {α : Type} (φ : α → Nat) (l : List α) :
    ((List.range l.length).map fun i => (l[i]?).elim 0 φ).sum = (l.map φ).sum := by
  congr 1
  apply List.ext_getElem
  · simp
  · intro i hi hi'
    simp at hi
    simp [hi]

section Chain

variable {o : Outline} {last : Target} {m : Nat}

/-- What is sent to the place of a node in a chain is sent to the node. -/
theorem Layout.down_eq_iff {L : Layout} (h : L.IsChain last) (hm : m < L.nodes.length)
    {n : Nat} : L.down last n = .node m ↔ n = m := by
  constructor
  · exact h.down_eq
  · rintro rfl
    simp [down, hm]

/-- The first node of a chain gets what the triggers send. -/
theorem Outline.sentTo_zero (h : o.layout.IsChain last) (ho : 0 < o.nodes.length) :
    o.sentTo 0 = (o.triggers.map (·.emitted)).sum := by
  rw [← Outline.length_layout] at ho
  have hnodes : (o.nodes.map fun node => EventPipeline.sentTo 0 node.target node.emitted).sum =
      0 := by
    rw [List.sum_eq_zero]
    intro k hk
    obtain ⟨node, hnode, rfl⟩ := List.mem_map.mp hk
    obtain ⟨n, hn⟩ := List.mem_iff_getElem?.mp hnode
    have htarget := h.nodes n node.layout (by simp [layout, hn])
    have hne : node.target ≠ some (.node 0) := by
      rw [show node.target = node.layout.target from rfl, htarget, Ne, Option.some.injEq,
        Layout.down_eq_iff h ho]
      omega
    simp [EventPipeline.sentTo, hne]
  have htriggers : (o.triggers.map fun trigger =>
      EventPipeline.sentTo 0 trigger.target trigger.emitted) = o.triggers.map (·.emitted) := by
    refine List.map_congr_left fun trigger htrigger => ?_
    obtain ⟨t, ht⟩ := List.mem_iff_getElem?.mp htrigger
    have htarget := h.triggers t trigger.layout (by simp [layout, ht])
    have heq : trigger.target = some (.node 0) := by
      rw [show trigger.target = trigger.layout.target from rfl, htarget, Option.some.injEq,
        Layout.down_eq_iff h ho]
    simp [EventPipeline.sentTo, heq]
  rw [sentTo, hnodes, htriggers, Nat.zero_add]

/-- Every other node of a chain gets what the one before it sends. -/
theorem Outline.sentTo_succ (h : o.layout.IsChain last) (hm : m + 1 < o.nodes.length)
    {node : NodeOutline} (hnode : o.nodes[m]? = some node) :
    o.sentTo (m + 1) = node.emitted := by
  rw [← Outline.length_layout] at hm
  have htarget_eq {n : Nat} {node : NodeOutline} (hn : o.nodes[n]? = some node) :
      node.target = some (.node (m + 1)) ↔ n = m := by
    have htarget := h.nodes n node.layout (by simp [layout, hn])
    rw [show node.target = node.layout.target from rfl, htarget, Option.some.injEq,
      Layout.down_eq_iff h hm]
    omega
  have htriggers : (o.triggers.map fun trigger =>
      EventPipeline.sentTo (m + 1) trigger.target trigger.emitted).sum = 0 := by
    rw [List.sum_eq_zero]
    intro k hk
    obtain ⟨trigger, htrigger, rfl⟩ := List.mem_map.mp hk
    obtain ⟨t, ht⟩ := List.mem_iff_getElem?.mp htrigger
    have htarget := h.triggers t trigger.layout (by simp [layout, ht])
    have hne : trigger.target ≠ some (.node (m + 1)) := by
      rw [show trigger.target = trigger.layout.target from rfl, htarget, Ne, Option.some.injEq,
        Layout.down_eq_iff h hm]
      omega
    simp [EventPipeline.sentTo, hne]
  have hnodes := sum_eq_single
    (φ := fun node => EventPipeline.sentTo (m + 1) node.target node.emitted) hnode
    fun j other hj hother => by
      simp [EventPipeline.sentTo, mt (htarget_eq hother).mp hj]
  rw [sentTo, hnodes, htriggers, Nat.add_zero, EventPipeline.sentTo,
    if_pos ((htarget_eq hnode).mpr rfl)]

end Chain

namespace Orderly

variable {L : Layout} {o : Outline} {agendas : List (List Task)} {ended : Nat → Nat}

/-- When a stream has come to its end, no worker has anything left to do. -/
theorem agendas_eq_nil
    (ho : Orderly L (.falling L.nodes.length 0 false) o agendas ended)
    (hmain : agendas[0]? = some []) : ∀ agenda ∈ agendas, agenda = [] := by
  intro agenda hagenda
  obtain ⟨i, hi⟩ := List.mem_iff_getElem?.mp hagenda
  cases i with
  | zero => simpa [hmain, eq_comm] using hi
  | succ i =>
    obtain ⟨loop, hshaped, hfits⟩ := ho.threads i agenda hi
    cases loop with
    | none =>
      cases hshaped
      rfl
    | some task =>
      exfalso
      obtain ⟨owner, howner⟩ := hshaped.exists_owner
      have hfits := hfits task rfl
      cases owner with
      | source t v => exact hfits.not_absent howner rfl
      | worker n u =>
        obtain ⟨unit, hunit, hqueued, halive⟩ := hfits.works howner
        have hn : n < L.nodes.length := by
          have hu := ho.unit_lt hunit
          by_contra hle
          have : L.nodes[n]? = none := List.getElem?_eq_none (by omega)
          simp [Layout.units, this] at hu
        have hholds := ho.units n u unit hunit
        simp only [Position.phase, hn, if_true] at hholds
        simp [(hholds hqueued).1] at halive

/-- Threads with nothing to do carry nothing. -/
theorem load_eq_zero (h : ∀ agenda ∈ agendas, agenda = []) (p : Task → Bool) :
    load agendas p = 0 := by
  rw [load, List.sum_eq_zero]
  intro k hk
  obtain ⟨agenda, hagenda, rfl⟩ := List.mem_map.mp hk
  simp [h agenda hagenda]

variable {P : Plugins} {w : World P} {last : Target} {n u : Nat} {node : Node P}

/-- A unit of a stream that has come to its end is done with what it took, and nothing waits
in its queue. -/
theorem unit_settled (ho : Orderly L (.falling L.nodes.length 0 false) w.outline w.agendas ended)
    (hmain : w.agendas[0]? = some []) (hnode : w.nodes[n]? = some node)
    {unit : ExecutionUnit P} (hunit : node.units[u]? = some unit) :
    unit.stats.received = unit.stats.finished ∧ unit.outline.waiting = 0 := by
  have hold : w.outline.unit? n u = some unit.outline := by
    simp [World.outline_unit?, World.unit?, hnode, hunit]
  have hbalance := ho.ledger.units n u (by simp [hold])
  rw [load_eq_zero (ho.agendas_eq_nil hmain)] at hbalance
  simp only [Outline.unitBalance, hold, Option.elim_some, UnitOutline.balance] at hbalance
  have hn : n < L.nodes.length := by
    rw [← ho.layout, Outline.length_layout]
    simpa [World.outline] using (List.getElem?_eq_some_iff.mp hnode).1
  have hholds := ho.units n u unit.outline hold
  simp only [Position.phase, hn, if_true] at hholds
  have hreceived : unit.outline.received = unit.stats.received := rfl
  have hfinished : unit.outline.finished = unit.stats.finished := rfl
  cases hstate : unit.state with
  | inline state =>
    have hwaiting : unit.outline.waiting = 0 := by
      simp [ExecutionUnit.outline, hstate, UnitState.waiting]
    omega
  | queued state =>
    have hcounts := (hholds (by simp [World.queued_eq, hstate])).2
    omega

/-- A node of a stream that has come to its end is settled. -/
theorem node_settled (ho : Orderly L (.falling L.nodes.length 0 false) w.outline w.agendas ended)
    (hmain : w.agendas[0]? = some []) (hnode : w.nodes[n]? = some node) :
    node.Settled (ended n) := by
  refine ⟨fun unit hunit => ?_, ?_⟩
  · obtain ⟨u, hu⟩ := List.mem_iff_getElem?.mp hunit
    exact (ho.unit_settled hmain hnode hu).1
  · have hold : w.outline.nodes[n]? = some node.outline := by
      simp [World.outline_nodes, hnode]
    have hpassage := ho.ledger.passage n (List.getElem?_eq_some_iff.mp hold).1
    rw [load_eq_zero (ho.agendas_eq_nil hmain)] at hpassage
    have hwaiting : (node.outline.units.map UnitOutline.waiting).sum = 0 := by
      rw [List.sum_eq_zero]
      intro k hk
      obtain ⟨_, houtline, rfl⟩ := List.mem_map.mp hk
      obtain ⟨unit, hunit, rfl⟩ := List.mem_map.mp houtline
      obtain ⟨u, hu⟩ := List.mem_iff_getElem?.mp hunit
      exact (ho.unit_settled hmain hnode hu).2
    simp only [Outline.balance, hold, Option.elim_some, NodeOutline.balance,
      NodeOutline.kept, hwaiting, Outline.isTransform, Option.any_some] at hpassage
    have hreceived : node.outline.received = node.received := rfl
    have hemitted : node.outline.emitted = node.gate.emitted := rfl
    have hdropped : node.outline.dropped = node.dropped := rfl
    have hfailed : node.outline.failed = node.failed := rfl
    have hkind : node.outline.isTransform = decide (node.kind = .transform) := rfl
    cases hcase : node.kind with
    | transform =>
      simp only [hkind, hcase, decide_true, if_true] at hpassage ⊢
      omega
    | sink =>
      simp only [hkind, hcase, reduceCtorEq, decide_false, Bool.false_eq_true, if_false]
        at hpassage ⊢
      omega

/-- A stream that has come to its end is settled. -/
theorem settled (ho : Orderly L (.falling L.nodes.length 0 false) w.outline w.agendas ended)
    (hchain : L.IsChain last) (hmain : w.agendas[0]? = some []) {stream : Stream}
    (htriggers : stream.triggers = List.range L.triggers.length)
    (hprocessors : stream.processors = List.range L.nodes.length) : w.Settled stream ended := by
  have hchain' : w.outline.layout.IsChain last := ho.layout.symm ▸ hchain
  have hnodes : L.nodes.length = w.nodes.length := by
    rw [← ho.layout, Outline.length_layout, World.outline, List.length_map]
  have htriggersLength : L.triggers.length = w.triggers.length := by
    simp [← ho.layout, Outline.layout, World.outline]
  have harrivals {n : Nat} (hn : n < w.nodes.length) : w.outline.sentTo n = w.receivedBy n := by
    have harrears := ho.ledger.arrivals n (by simpa [World.outline] using hn)
    rw [load_eq_zero (ho.agendas_eq_nil hmain), Outline.arrears, World.outline_nodes] at harrears
    have hreceived : ((w.nodes[n]?).map Node.outline).elim 0 (·.received) = w.receivedBy n := by
      rw [World.receivedBy]
      cases w.nodes[n]? <;> rfl
    omega
  refine ⟨fun n hn => ?_, fun n hn => ?_, fun i n m hi hm => ?_⟩
  · rw [hprocessors, List.mem_range, hnodes] at hn
    exact ⟨w.nodes[n], List.getElem?_eq_getElem hn,
      ho.node_settled hmain (List.getElem?_eq_getElem hn)⟩
  · obtain ⟨hlength, rfl⟩ : 0 < w.nodes.length ∧ 0 = n := by
      rw [hprocessors, hnodes, List.head?_range] at hn
      split at hn
      · simp at hn
      · exact ⟨by omega, by simpa using hn⟩
    rw [← harrivals hlength, Outline.sentTo_zero hchain' (by simpa [World.outline] using hlength),
      htriggers, htriggersLength]
    have hsum := sum_range_getElem? (fun trigger : Trigger P => trigger.gate.emitted) w.triggers
    have hmap : (List.range w.triggers.length).map (fun t => w.emittedBy (.trigger t)) =
        (List.range w.triggers.length).map fun t =>
          (w.triggers[t]?).elim 0 fun trigger => trigger.gate.emitted := by
      refine List.map_congr_left fun t _ => ?_
      rw [World.emittedBy, World.gate?]
      cases w.triggers[t]? <;> rfl
    rw [hmap, hsum, World.outline, List.map_map]
    rfl
  · obtain ⟨hilength, rfl⟩ : i < w.nodes.length ∧ i = n := by
      rw [hprocessors, hnodes] at hi
      obtain ⟨hlength, heq⟩ := List.getElem?_eq_some_iff.mp hi
      exact ⟨by simpa using hlength, by simpa using heq⟩
    obtain ⟨hmlength, rfl⟩ : i + 1 < w.nodes.length ∧ i + 1 = m := by
      rw [hprocessors, hnodes] at hm
      obtain ⟨hlength, heq⟩ := List.getElem?_eq_some_iff.mp hm
      exact ⟨by simpa using hlength, by simpa using heq⟩
    have hnode := List.getElem?_eq_getElem hilength
    rw [← harrivals hmlength, Outline.sentTo_succ hchain' (by simpa [World.outline] using hmlength)
      (show w.outline.nodes[i]? = some (w.nodes[i]).outline by
        rw [World.outline_nodes, hnode]; rfl)]
    simp only [World.emittedBy, World.gate?, hnode, Option.map_some, Option.elim_some]
    rfl

end Orderly

end EventPipeline
