import EventPipeline.Proofs.Engine.Order
import EventPipeline.Proofs.Engine.Plan

/-!
# `EventPipeline.Proofs.Engine.Advance`: the main thread moves the position

What the main thread does while it starts or stops a stream changes the signs of one unit or
the record of one source, adds a thread, or changes nothing that shows; and with it the
position moves by one place. `Orderly.signed`, `Orderly.sourced` and `Orderly.spawned` say
when such a change keeps the order. `World.Conducts.advances` goes through all tasks of a
start or a stop: either the start fails, or the stream stays in order at a position from
which the rest of the plan leads on.
-/

set_option autoImplicit false

namespace EventPipeline

namespace Orderly

variable {L : Layout} {position position' : Position} {o o' : Outline}
  {agendas : List (List Task)} {ended : Nat → Nat}

/-- The order at another position, with another outline. -/
theorem moved (ho : Orderly L position o agendas ended) (hlayout : o'.layout = o.layout)
    (hledger : Ledger o' agendas ended)
    (hunits : ∀ n u unit, o'.unit? n u = some unit → (position'.phase n u).Holds unit)
    (hsources : ∀ t v source, o'.source? t v = some source →
      position'.source t v = .registered → source.running = true ∧ source.worker.isSome = true)
    (hfits : ∀ i agenda task, agendas[i + 1]? = some agenda → Shaped (some task) agenda →
      Fits o position (i + 1) task → Fits o' position' (i + 1) task)
    (hquiet : ∀ n u, u < L.units n →
      position'.phase n u = .fresh ∨ position'.phase n u = .launching →
      ∃ m v, v < L.units m ∧ (position.phase m v = .fresh ∨ position.phase m v = .launching))
    (hwaiting : ∀ n u, (o'.unit? n u).map (·.waiting) = (o.unit? n u).map (·.waiting)) :
    Orderly L position' o' agendas ended where
  layout := hlayout.trans ho.layout
  ledger := hledger
  units := hunits
  sources := hsources
  threads i agenda hi := by
    obtain ⟨loop, hshaped, hold⟩ := ho.threads i agenda hi
    refine ⟨loop, hshaped, ?_⟩
    rintro task rfl
    exact hfits i agenda task hi hshaped (hold task rfl)
  alone := ho.alone
  sends := ho.sends
  quiet n u hu hphase := by
    obtain ⟨m, v, hv, hold⟩ := hquiet n u hu hphase
    obtain ⟨hlength, hwait⟩ := ho.quiet m v hv hold
    refine ⟨hlength, fun k w unit hunit => ?_⟩
    have hmap := hwaiting k w
    rw [hunit] at hmap
    obtain ⟨old, hold, heq⟩ := Option.map_eq_some_iff.mp hmap.symm
    exact heq.symm.trans (hwait k w old hold)

/-- Positions at which all units and sources are in the same phases. -/
theorem congr_position (ho : Orderly L position o agendas ended)
    (hphase : ∀ n u, u < L.units n → position'.phase n u = position.phase n u)
    (hsource : ∀ t v, v < L.sources t → position'.source t v = position.source t v) :
    Orderly L position' o agendas ended := by
  have hsource_lt {t v : Nat} {source : SourceOutline} (h : o.source? t v = some source) :
      v < L.sources t := by
    have hsome := o.source?_isSome t v
    rw [h, ho.layout] at hsome
    simpa using hsome.symm
  refine ho.moved rfl ho.ledger (fun n u unit hunit => ?_) (fun t v source hsrc => ?_)
    (fun i agenda task _ _ hfits => ?_) (fun n u hu hold => ?_) fun _ _ => rfl
  · rw [hphase n u (ho.unit_lt hunit)]
    exact ho.units n u unit hunit
  · rw [hsource t v (hsource_lt hsrc)]
    exact ho.sources t v source hsrc
  · refine hfits.congr (fun n u howner => ⟨rfl, ?_⟩) fun t v howner => ⟨rfl, ?_⟩
    · obtain ⟨unit, hunit, -⟩ := hfits.works howner
      exact hphase n u (ho.unit_lt hunit)
    · obtain ⟨source, hsrc⟩ := hfits.source howner
      exact hsource t v (hsource_lt hsrc)
  · exact ⟨n, u, hu, hphase n u hu ▸ hold⟩

/-- The same positions in a layout. -/
theorem same (ho : Orderly L position o agendas ended) (h : position.Same L position') :
    Orderly L position' o agendas ended :=
  ho.congr_position (fun n u hu => (h.phase n u hu).symm) fun t v hv => (h.source t v hv).symm

/-- The signs of one unit change, and at most its phase. -/
theorem signed {n u : Nat} {f : Signs → Signs} (ho : Orderly L position o agendas ended)
    (hf : ∀ signs, (f signs).queued = signs.queued)
    (hphase : ∀ m v, ¬ (n = m ∧ u = v) → position'.phase m v = position.phase m v)
    (hsource : ∀ t v, position'.source t v = position.source t v)
    (hunit : ∀ unit, o.unit? n u = some unit → (position.phase n u).Holds unit →
      (position'.phase n u).Holds { unit with signs := f unit.signs })
    (hfits : ∀ i task, task.owner? = some (.worker n u) → Fits o position i task →
      Fits (o.sign n u f) position' i task)
    (hearly : position'.phase n u = .fresh ∨ position'.phase n u = .launching →
      position.phase n u = .fresh ∨ position.phase n u = .launching) :
    Orderly L position' (o.sign n u f) agendas ended := by
  have hother {m v : Nat} (hne : ¬ (n = m ∧ u = v)) :
      (o.sign n u f).unit? m v = o.unit? m v := by
    simp [Outline.sign, Outline.unit?_changeUnit, hne]
  refine ho.moved (Outline.layout_sign hf) (ho.ledger.sign n u hf) (fun m v later hlater => ?_)
    (fun t v source hsrc => ?_) (fun i agenda task _ _ hold => ?_) (fun m v hv hold => ?_)
    fun m v => ?_
  · by_cases hne : n = m ∧ u = v
    · obtain ⟨rfl, rfl⟩ := hne
      rw [Outline.sign, Outline.unit?_changeUnit] at hlater
      obtain ⟨unit, hold, rfl⟩ := Option.map_eq_some_iff.mp hlater
      simpa using hunit unit hold (ho.units n u unit hold)
    · rw [hphase m v hne]
      exact ho.units m v later (hother hne ▸ hlater)
  · rw [hsource t v]
    exact ho.sources t v source hsrc
  · by_cases howner : task.owner? = some (.worker n u)
    · exact hfits (i + 1) task howner hold
    · refine hold.congr (fun m v hmv => ?_) fun t v _ => ⟨rfl, hsource t v⟩
      have hne : ¬ (n = m ∧ u = v) := by
        rintro ⟨rfl, rfl⟩
        exact howner hmv
      exact ⟨by rw [hother hne], hphase m v hne⟩
  · refine ⟨m, v, hv, ?_⟩
    by_cases hne : n = m ∧ u = v
    · obtain ⟨rfl, rfl⟩ := hne
      exact hearly hold
    · rwa [hphase m v hne] at hold
  · rw [Outline.sign, Outline.unit?_changeUnit, Option.map_map]
    congr 1
    funext unit
    simp only [Function.comp_apply]
    split <;> rfl

/-- The record of one source changes, and at most its phase. -/
theorem sourced {t v : Nat} {g : SourceOutline → SourceOutline}
    (ho : Orderly L position o agendas ended)
    (hphase : ∀ n u, position'.phase n u = position.phase n u)
    (hsource : ∀ s r, ¬ (t = s ∧ v = r) → position'.source s r = position.source s r)
    (hnew : ∀ source, o.source? t v = some source → position'.source t v = .registered →
      (g source).running = true ∧ (g source).worker.isSome = true)
    (hfits : ∀ i agenda task, agendas[i + 1]? = some agenda → agenda ≠ [] →
      task.owner? = some (.source t v) → Fits o position (i + 1) task →
      Fits (o.changeSource t v g) position' (i + 1) task) :
    Orderly L position' (o.changeSource t v g) agendas ended := by
  have hother {s r : Nat} (hne : ¬ (t = s ∧ v = r)) :
      (o.changeSource t v g).source? s r = o.source? s r := by
    simp [Outline.source?_changeSource, hne]
  refine ho.moved (Outline.layout_changeSource ..) (ho.ledger.changeSource t v g)
    (fun n u unit hunit => ?_) (fun s r later hlater hregistered => ?_)
    (fun i agenda task hi hshaped hold => ?_) (fun n u hu hold => ⟨n, u, hu, hphase n u ▸ hold⟩)
    fun _ _ => rfl
  · rw [hphase n u]
    exact ho.units n u unit hunit
  · by_cases hne : t = s ∧ v = r
    · obtain ⟨rfl, rfl⟩ := hne
      rw [Outline.source?_changeSource] at hlater
      obtain ⟨source, hold, rfl⟩ := Option.map_eq_some_iff.mp hlater
      simpa using hnew source hold hregistered
    · rw [hsource s r hne] at hregistered
      exact ho.sources s r later (hother hne ▸ hlater) hregistered
  · by_cases howner : task.owner? = some (.source t v)
    · refine hfits i agenda task hi ?_ howner hold
      rintro rfl
      cases hshaped
    · refine hold.congr (fun n u _ => ⟨rfl, hphase n u⟩) fun s r hsr => ?_
      have hne : ¬ (t = s ∧ v = r) := by
        rintro ⟨rfl, rfl⟩
        exact howner hsr
      exact ⟨hother hne, hsource s r hne⟩

/-- A new thread starts to work for an owner that no thread works for. -/
theorem spawned {task : Task} {owner : Owner} (ho : Orderly L position o agendas ended)
    (howner : task.owner? = some owner)
    (hfits : Fits o position agendas.length task)
    (hfree : ∀ n u, owner = .worker n u → ∀ i agenda, agendas[i + 1]? = some agenda →
      ownerOf agenda ≠ some (.worker n u)) :
    Orderly L position o (agendas ++ [[task]]) ended := by
  have hcases {i : Nat} {agenda : List Task} (h : (agendas ++ [[task]])[i + 1]? = some agenda) :
      agendas[i + 1]? = some agenda ∨ i + 1 = agendas.length ∧ agenda = [task] := by
    rw [List.getElem?_append] at h
    split at h
    · exact .inl h
    · refine .inr ?_
      have hi : i + 1 - agendas.length = 0 := by
        by_contra hne
        obtain ⟨k, hk⟩ := Nat.exists_eq_succ_of_ne_zero hne
        simp [hk] at h
      rw [hi] at h
      exact ⟨by omega, by simpa using h.symm⟩
  have hnewOwner : ownerOf [task] = some owner := by simpa [ownerOf] using howner
  exact {
    layout := ho.layout
    ledger := ho.ledger.spawn (by simpa using isLight_of_owner howner)
    units := ho.units
    sources := ho.sources
    threads := fun i agenda hi => by
      obtain hold | ⟨hlength, rfl⟩ := hcases hi
      · exact ho.threads i agenda hold
      · refine ⟨some task, .loop howner, ?_⟩
        rintro _ ⟨⟩
        rwa [hlength]
    alone := fun i j a b n u hi hj ha hb => by
      obtain hi | ⟨hi, rfl⟩ := hcases hi <;> obtain hj | ⟨hj, rfl⟩ := hcases hj
      · exact ho.alone i j a b n u hi hj ha hb
      · exact absurd ha (hfree n u (by simpa [hnewOwner] using hb) i a hi)
      · exact absurd hb (hfree n u (by simpa [hnewOwner] using ha) j b hj)
      · omega
    sends := fun i agenda n u event hi hsend => by
      obtain hold | ⟨-, rfl⟩ := hcases hi
      · exact ho.sends i agenda n u event hold hsend
      · obtain rfl := List.mem_singleton.mp hsend
        simp [Task.owner?] at howner
    quiet := fun n u hu hphase => by
      refine ⟨fun i agenda hi => ?_, (ho.quiet n u hu hphase).2⟩
      obtain hold | ⟨-, rfl⟩ := hcases hi
      · exact (ho.quiet n u hu hphase).1 i agenda hold
      · simp }

/-- What the main thread still has to do does not matter, as long as it carries no event. -/
theorem main {agenda : List Task} {f : List Task → List Task}
    (ho : Orderly L position o agendas ended) (hmain : agendas[0]? = some agenda)
    (hagenda : ∀ task ∈ agenda, task.IsLight) (hf : ∀ task ∈ f agenda, task.IsLight) :
    Orderly L position o (agendas.modify 0 f) ended := by
  have hworkers (i : Nat) : (agendas.modify 0 f)[i + 1]? = agendas[i + 1]? :=
    List.getElem?_modify_ne _ _ (by omega)
  exact {
    layout := ho.layout
    ledger := ho.ledger.light hmain f hagenda hf
    units := ho.units
    sources := ho.sources
    threads := fun i agenda hi => ho.threads i agenda (hworkers i ▸ hi)
    alone := fun i j a b n u hi hj =>
      ho.alone i j a b n u (hworkers i ▸ hi) (hworkers j ▸ hj)
    sends := fun i agenda n u event hi => ho.sends i agenda n u event (hworkers i ▸ hi)
    quiet := fun n u hu hphase =>
      ⟨fun i agenda hi => (ho.quiet n u hu hphase).1 i agenda (hworkers i ▸ hi),
        (ho.quiet n u hu hphase).2⟩ }

/-! ## The changes of a start and a stop -/

section

variable {n u t v : Nat} {unit : UnitOutline}

open Position

/-- A unit without a queue has no worker. -/
theorem not_owned (ho : Orderly L position o agendas ended) (hunit : L.isQueued n u = false)
    {i : Nat} {task : Task} (howner : task.owner? = some (.worker n u)) :
    ¬ Fits o position i task := fun hfits => by
  obtain ⟨unit, hold, hworks⟩ := hfits.works howner
  rw [← ho.layout, Outline.isQueued_eq hold, hworks.1] at hunit
  simp at hunit

/-- A unit whose worker is not alive is nobody's. -/
theorem not_owned_of_alive (hunit : ∀ unit, o.unit? n u = some unit → unit.signs.queued = true →
      unit.signs.alive = false) {i : Nat} {task : Task}
    (howner : task.owner? = some (.worker n u)) : ¬ Fits o position i task := fun hfits => by
  obtain ⟨unit, hold, hqueued, halive⟩ := hfits.works howner
  simp [hunit unit hold hqueued] at halive

/-- A queued unit is launched. -/
theorem launch (ho : Orderly L (rising (n + 1) u false) o agendas ended)
    (hunit : o.unit? n u = some unit) (hqueued : unit.signs.queued = true) :
    Orderly L (rising (n + 1) u true)
      (o.sign n u (.ofQueue ({ · with connected := true, alive := true })))
      (agendas ++ [[.unit (.prepareWorker n u false)]]) ended := by
  have hfresh : Phase.fresh.Holds unit := by simpa using ho.units n u unit hunit
  have hfree {i : Nat} {task : Task} (howner : task.owner? = some (.worker n u)) :
      ¬ Fits o (rising (n + 1) u false) i task := by
    refine not_owned_of_alive (fun unit' hunit' hqueued => ?_) howner
    obtain rfl : unit = unit' := by simpa [hunit] using hunit'
    exact (hfresh hqueued).1
  have hsigned : Orderly L (rising (n + 1) u true)
      (o.sign n u (.ofQueue ({ · with connected := true, alive := true }))) agendas ended := by
    refine ho.signed (fun _ => by simp) (fun m w hne => ?_) (fun _ _ => rfl)
      (fun unit' hunit' _ => ?_) (fun i task howner hfits => absurd hfits (hfree howner)) ?_
    · rw [phase_rising_ne true hne, phase_rising_ne false hne]
    · obtain rfl : unit = unit' := by simpa [hunit] using hunit'
      simp [Phase.Holds, Signs.ofQueue, hqueued, hfresh hqueued]
    · simp
  refine hsigned.spawned rfl ?_ ?_
  · refine .prepareWorker n u false _ (by rw [Outline.sign, Outline.unit?_changeUnit, hunit]; rfl)
      ?_ ?_ (by simp)
    · simp [UnitOutline.Works, Signs.ofQueue, hqueued]
    · simp [Signs.ofQueue, hqueued, hfresh hqueued]
  · rintro _ _ ⟨⟩ i agenda hi howner
    obtain ⟨loop, hshaped, hfits⟩ := ho.threads i agenda hi
    rw [hshaped.ownerOf_eq] at howner
    obtain ⟨task, rfl, htask⟩ := Option.bind_eq_some_iff.mp howner
    exact hfree htask (hfits task rfl)

/-- A unit without a queue is up. -/
theorem raiseInline (ho : Orderly L (rising (n + 1) u false) o agendas ended)
    (hinline : L.isQueued n u = false) :
    Orderly L (rising (n + 1) (u + 1) false)
      (o.sign n u (.ofInline ({ · with accepting := true }))) agendas ended := by
  refine ho.signed (fun _ => by simp) (fun m w hne => (phase_rising_ne false hne).symm)
    (fun _ _ => rfl) (fun unit hunit _ => ?_)
    (fun i task howner hfits => absurd hfits (ho.not_owned hinline howner)) (by simp)
  rw [← ho.layout, Outline.isQueued_eq hunit] at hinline
  simp [Phase.Holds, Signs.ofInline, hinline]

/-- A queued unit whose worker is ready is up. -/
theorem raiseQueued (ho : Orderly L (rising (n + 1) u true) o agendas ended)
    (hunit : o.unit? n u = some unit) (hready : unit.signs.ready = true) :
    Orderly L (rising (n + 1) (u + 1) false)
      (o.sign n u (.ofQueue ({ · with accepting := true }))) agendas ended := by
  obtain ⟨hqueued, hconnected, hdismissed, halive⟩ : Phase.launching.Holds unit := by
    simpa using ho.units n u unit hunit
  refine ho.signed (fun _ => by simp) (fun m w hne => (phase_rising_ne true hne).symm)
    (fun _ _ => rfl) (fun unit' hunit' _ => ?_) (fun i task howner hfits => ?_) (by simp)
  · obtain rfl : unit = unit' := by simpa [hunit] using hunit'
    simp [Phase.Holds, Signs.ofQueue, hqueued, hconnected, hdismissed, halive hready]
  · have hlater : (o.sign n u (.ofQueue ({ · with accepting := true }))).unit? n u =
        some { unit with signs := unit.signs.ofQueue ({ · with accepting := true }) } := by
      rw [Outline.sign, Outline.unit?_changeUnit, hunit]
      simp
    have hworks : UnitOutline.Works
        { unit with signs := unit.signs.ofQueue ({ · with accepting := true }) } := by
      simp [UnitOutline.Works, Signs.ofQueue, hqueued, halive hready]
    cases hfits with
    | prepareWorker m w asked unit' hunit' _ hnotReady =>
      obtain ⟨rfl, rfl⟩ : m = n ∧ w = u := by simpa [Task.owner?] using howner
      obtain rfl : unit = unit' := by simpa [hunit] using hunit'
      simp [hready] at hnotReady
    | receive m w =>
      obtain ⟨rfl, rfl⟩ : m = n ∧ w = u := by simpa [Task.owner?] using howner
      exact .receive m w _ hlater hworks
    | checkDismissed m w =>
      obtain ⟨rfl, rfl⟩ : m = n ∧ w = u := by simpa [Task.owner?] using howner
      exact .checkDismissed m w _ hlater hworks
    | finishWorker m w asked unit' _ _ hphase =>
      obtain ⟨rfl, rfl⟩ : m = n ∧ w = u := by simpa [Task.owner?] using howner
      simp at hphase
    | ofSource _ t v source howner' => simp [howner] at howner'

/-- A unit without a queue is stopped. -/
theorem lowerInline (ho : Orderly L (falling n u false) o agendas ended)
    (hinline : L.isQueued n u = false) :
    Orderly L (falling n (u + 1) false)
      (o.sign n u (.ofInline ({ · with accepting := false }))) agendas ended := by
  refine ho.signed (fun _ => by simp) (fun m w hne => (phase_falling_ne false hne).symm)
    (fun _ _ => rfl) (fun unit hunit _ => ?_)
    (fun i task howner hfits => absurd hfits (ho.not_owned hinline howner)) (by simp)
  rw [← ho.layout, Outline.isQueued_eq hunit] at hinline
  simp [Phase.Holds, hinline]

/-- Nothing changes in the outline but the phase of a unit. -/
theorem rephased (ho : Orderly L position o agendas ended)
    (hphase : ∀ m v, ¬ (n = m ∧ u = v) → position'.phase m v = position.phase m v)
    (hsource : ∀ t v, position'.source t v = position.source t v)
    (hunit : ∀ unit, o.unit? n u = some unit → (position.phase n u).Holds unit →
      (position'.phase n u).Holds unit)
    (hfits : ∀ i task, task.owner? = some (.worker n u) → Fits o position i task →
      Fits o position' i task)
    (hearly : position'.phase n u = .fresh ∨ position'.phase n u = .launching →
      position.phase n u = .fresh ∨ position.phase n u = .launching) :
    Orderly L position' o agendas ended := by
  have hid : o.sign n u id = o := by
    have hunits (units : List UnitOutline) : units.modify u (fun unit => unit) = units :=
      List.modify_id u units
    have hnodes : o.nodes.modify n (fun node => node) = o.nodes := List.modify_id n o.nodes
    simp only [Outline.sign, Outline.changeUnit, Outline.changeNode, id, hunits, hnodes]
  have := ho.signed (f := id) (fun _ => rfl) hphase hsource (by simpa using hunit)
    (by rwa [hid]) hearly
  rwa [hid] at this

/-- A queued unit that has finished all events that it took is idle. -/
theorem idle (ho : Orderly L (falling n u false) o agendas ended)
    (hqueued : L.isQueued n u = true) (hunit : o.unit? n u = some unit)
    (hdrained : unit.received ≤ unit.finished ∨ unit.signs.alive = false) :
    Orderly L (falling n u true) o agendas ended := by
  rw [← ho.layout, Outline.isQueued_eq hunit] at hqueued
  obtain ⟨-, hup⟩ : Phase.up.Holds unit := by simpa using ho.units n u unit hunit
  obtain ⟨hconnected, hdismissed, halive⟩ := hup hqueued
  have hcounts : unit.received = unit.finished := by
    have hbalance := ho.ledger.units n u (by simp [hunit])
    simp only [Outline.unitBalance, hunit, Option.elim_some, UnitOutline.balance] at hbalance
    rcases hdrained with hdrained | hdead
    · omega
    · simp [halive] at hdead
  refine ho.rephased (n := n) (u := u)
    (fun m w hne => by rw [phase_falling_ne true hne, phase_falling_ne false hne])
    (fun _ _ => rfl) (fun unit' hunit' _ => ?_) (fun i task howner hfits => ?_) (by simp)
  · obtain rfl : unit = unit' := by simpa [hunit] using hunit'
    simp [Phase.Holds, hqueued, hcounts]
  · cases hfits with
    | prepareWorker m w asked unit' _ _ _ hphase =>
      obtain ⟨rfl, rfl⟩ : m = n ∧ w = u := by simpa [Task.owner?] using howner
      simp at hphase
    | receive m w unit' hunit' hworks => exact .receive m w unit' hunit' hworks
    | checkDismissed m w unit' hunit' hworks => exact .checkDismissed m w unit' hunit' hworks
    | finishWorker m w asked unit' _ _ hphase =>
      obtain ⟨rfl, rfl⟩ : m = n ∧ w = u := by simpa [Task.owner?] using howner
      simp at hphase
    | ofSource _ t v source howner' => simp [howner] at howner'

/-- The worker of an idle unit is told to end, in one way or another. -/
theorem release {g : Signs → Signs} (ho : Orderly L (falling n u true) o agendas ended)
    (hg : ∀ signs, (g signs).alive = signs.alive) :
    Orderly L (falling n u true) (o.sign n u (.ofQueue g)) agendas ended := by
  refine ho.signed (fun _ => by simp) (fun _ _ _ => rfl) (fun _ _ => rfl)
    (fun unit _ hholds => ?_) (fun i task howner hfits => ?_) (by simp)
  · have hidle : Phase.idle.Holds unit := by simpa using hholds
    simpa [Phase.Holds] using hidle
  · have hworks {unit : UnitOutline} (h : unit.Works) :
        UnitOutline.Works { unit with signs := unit.signs.ofQueue g } := by
      obtain ⟨hqueued, halive⟩ := h
      exact ⟨by simp [hqueued], by simp [Signs.ofQueue, hqueued, hg, halive]⟩
    have hlater {unit : UnitOutline} (h : o.unit? n u = some unit) :
        (o.sign n u (.ofQueue g)).unit? n u =
          some { unit with signs := unit.signs.ofQueue g } := by
      rw [Outline.sign, Outline.unit?_changeUnit, h]
      simp
    cases hfits with
    | prepareWorker m w asked unit _ _ _ hphase =>
      obtain ⟨rfl, rfl⟩ : m = n ∧ w = u := by simpa [Task.owner?] using howner
      simp at hphase
    | receive m w unit hunit h =>
      obtain ⟨rfl, rfl⟩ : m = n ∧ w = u := by simpa [Task.owner?] using howner
      exact .receive m w _ (hlater hunit) (hworks h)
    | checkDismissed m w unit hunit h =>
      obtain ⟨rfl, rfl⟩ : m = n ∧ w = u := by simpa [Task.owner?] using howner
      exact .checkDismissed m w _ (hlater hunit) (hworks h)
    | finishWorker m w asked unit hunit h hphase =>
      obtain ⟨rfl, rfl⟩ : m = n ∧ w = u := by simpa [Task.owner?] using howner
      exact .finishWorker m w asked _ (hlater hunit) (hworks h) hphase
    | ofSource _ t v source howner' => simp [howner] at howner'

/-- An idle unit whose worker has ended is stopped. -/
theorem lowerQueued (ho : Orderly L (falling n u true) o agendas ended)
    (hunit : o.unit? n u = some unit) (halive : unit.signs.alive = false) :
    Orderly L (falling n (u + 1) false) o agendas ended := by
  refine ho.rephased (n := n) (u := u) (fun m w hne => (phase_falling_ne true hne).symm)
    (fun _ _ => rfl) (fun unit' hunit' hholds => ?_) (fun i task howner hfits => ?_) (by simp)
  · obtain rfl : unit = unit' := by simpa [hunit] using hunit'
    have hidle : Phase.idle.Holds unit := by simpa using hholds
    simp [Phase.Holds, halive, hidle.2]
  · refine absurd hfits (not_owned_of_alive (fun unit' hunit' _ => ?_) howner)
    obtain rfl : unit = unit' := by simpa [hunit] using hunit'
    exact halive

/-- A source is launched on a new thread. -/
theorem launchSource (ho : Orderly L (opening t v none) o agendas ended)
    (hv : v < L.sources t) (l : Nat) :
    Orderly L (opening t v (some agendas.length)) o
      (agendas ++ [[.source (.prepare t v l false)]]) ended := by
  obtain ⟨source, hsource⟩ : ∃ source, o.source? t v = some source := by
    rw [← Option.isSome_iff_exists, o.source?_isSome, ho.layout]
    simpa using hv
  have hmoved : Orderly L (opening t v (some agendas.length)) o agendas ended := by
    refine ho.moved rfl ho.ledger ho.units (fun s r source' hsource' hphase => ?_)
      (fun i agenda task hi hshaped hfits => ?_) (fun n u hu hphase => ⟨n, u, hu, hphase⟩)
      fun _ _ => rfl
    · by_cases hne : t = s ∧ v = r
      · obtain ⟨rfl, rfl⟩ := hne
        simp at hphase
      · rw [source_opening_ne _ hne, ← source_opening_ne none hne] at hphase
        exact ho.sources s r source' hsource' hphase
    · refine hfits.congr (fun _ _ _ => ⟨rfl, rfl⟩) fun s r howner => ⟨rfl, ?_⟩
      have hne : ¬ (t = s ∧ v = r) := by
        rintro ⟨rfl, rfl⟩
        exact hfits.not_absent howner (by simp)
      rw [source_opening_ne _ hne, ← source_opening_ne none hne]
  have howner : (Task.source (.prepare t v l false)).owner? = some (.source t v) := rfl
  refine hmoved.spawned howner (.ofSource _ t v source rfl hsource (.inl (by simp))) ?_
  rintro n u ⟨⟩

/-- A source that is ready belongs to its trigger. -/
theorem raiseSource {i : Nat} (ho : Orderly L (opening t v (some i)) o agendas ended) :
    Orderly L (opening t (v + 1) none)
      (o.changeSource t v fun _ => { running := true, worker := some i }) agendas ended := by
  refine ho.sourced (fun _ _ => rfl) (fun s r hne => (source_opening_ne (some i) hne).symm)
    (fun _ _ _ => ⟨rfl, rfl⟩) fun j agenda task _ _ howner hfits => ?_
  cases hfits with
  | prepareWorker | receive | checkDismissed | finishWorker => simp [Task.owner?] at howner
  | ofSource _ s r source howner' hsource hphase =>
    obtain ⟨rfl, rfl⟩ : s = t ∧ r = v := by simpa [howner, eq_comm] using howner'
    have hthread : i = j + 1 := by simpa using hphase
    refine .ofSource task s r { running := true, worker := some i } howner ?_ (.inr ⟨by simp, ?_⟩)
    · rw [Outline.source?_changeSource, hsource]
      simp
    · rw [hthread]

/-- A source is about to be stopped. -/
theorem lowerSource {source : SourceOutline} (ho : Orderly L (closing t v none) o agendas ended)
    (hsource : o.source? t v = some source) :
    ∃ i, source.worker = some i ∧ Orderly L (closing t v (some i))
      (o.changeSource t v fun _ => { running := false, worker := none }) agendas ended := by
  obtain ⟨-, hworker⟩ := ho.sources t v source hsource (by simp)
  obtain ⟨i, hi⟩ := Option.isSome_iff_exists.mp hworker
  refine ⟨i, hi, ho.sourced (fun _ _ => rfl) (fun s r hne => ?_) (fun _ _ hphase => ?_)
    fun j agenda task _ _ howner hfits => ?_⟩
  · rw [source_closing_ne (some i) hne, source_closing_ne none hne]
  · simp at hphase
  · cases hfits with
    | prepareWorker | receive | checkDismissed | finishWorker => simp [Task.owner?] at howner
    | ofSource _ s r source' howner' hsource' hphase =>
      obtain ⟨rfl, rfl⟩ : s = t ∧ r = v := by simpa [howner, eq_comm] using howner'
      obtain rfl : source = source' := by simpa [hsource] using hsource'
      have hthread : i = j + 1 := by simpa [hi] using hphase
      refine .ofSource task s r { running := false, worker := none } howner ?_ (.inl ?_)
      · rw [Outline.source?_changeSource, hsource]
        simp
      · simp [hthread]

/-- A source whose thread has ended is stopped. -/
theorem joinSource {i : Nat} (ho : Orderly L (closing t v (some i)) o agendas ended)
    (hended : agendas[i]? = some []) : Orderly L (closing t (v + 1) none) o agendas ended := by
  refine ho.moved rfl ho.ledger ho.units (fun s r source hsource hphase => ?_)
    (fun j agenda task hj hshaped hfits => ?_) (fun n u hu hphase => ⟨n, u, hu, hphase⟩)
    fun _ _ => rfl
  · by_cases hne : t = s ∧ v = r
    · obtain ⟨rfl, rfl⟩ := hne
      simp at hphase
    · rw [← source_closing_ne (some i) hne] at hphase
      exact ho.sources s r source hsource hphase
  · refine hfits.congr (fun _ _ _ => ⟨rfl, rfl⟩) fun s r howner => ⟨rfl, ?_⟩
    have hne : ¬ (t = s ∧ v = r) := by
      rintro ⟨rfl, rfl⟩
      cases hfits with
      | prepareWorker | receive | checkDismissed | finishWorker => simp [Task.owner?] at howner
      | ofSource _ s r source howner' hsource hphase =>
        obtain ⟨rfl, rfl⟩ : s = t ∧ r = v := by simpa [howner, eq_comm] using howner'
        obtain rfl : i = j + 1 := by simpa using hphase
        rw [hj, Option.some.injEq] at hended
        rw [hended] at hshaped
        cases hshaped
    rw [← source_closing_ne (some i) hne]

end

end Orderly

end EventPipeline
