import EventPipeline.Proofs.Engine.Conservation
import EventPipeline.Proofs.Supervision.Operations

/-!
# `EventPipeline.Proofs.Supervision.Display`: what a supervisor shows is so

A supervisor shows which streams run and which ones were abandoned. `supervising_shows` says
that this is right in every state that it reaches, whatever it is asked for and however
starts and stops end, and that operations which fail leave it so.
-/

set_option autoImplicit false

namespace EventPipeline.World

variable {P : Plugins} {w v : World P}

/-- The incarnation belongs to the stream and was given up. -/
def IsGivenUp (w : World P) (i : Nat) (name : String) : Prop :=
  ∃ incarnation, w.incarnations[i]? = some incarnation ∧ incarnation.name = name ∧
    incarnation.aborted = true

theorem isGivenUp_iff {i : Nat} {name : String} :
    w.IsGivenUp i name ↔ w.fixed? i = some (name, true) := by
  simp [IsGivenUp, fixed?, Incarnation.fixed]

/-- The names of abandoned streams ascend. -/
theorem Tables.abandonedStreams_nodup (h : w.Tables) : w.abandonedStreams.Nodup := by
  have hascending : Fields.Ascending
      (w.supervisor.abandoned.filter fun entry => w.isAlive entry.2) :=
    List.Pairwise.filter _ h.abandonedAscend
  exact (Fields.ascending_iff_names.mp hascending).imp String.ne_of_lt

/-- The abandoned streams are those of which an incarnation was given up and is still
alive. -/
theorem Tables.mem_abandonedStreams (h : w.Tables) {name : String} :
    name ∈ w.abandonedStreams ↔ ∃ i, w.IsGivenUp i name ∧ w.isAlive i = true := by
  simp only [isGivenUp_iff]
  constructor
  · intro hname
    obtain ⟨⟨_, i⟩, hentry, rfl⟩ := List.mem_map.mp hname
    obtain ⟨hentry, halive⟩ := List.mem_filter.mp hentry
    exact ⟨i, h.abandoned _ i (Fields.get?_of_mem h.abandonedAscend hentry), halive⟩
  · rintro ⟨i, hfixed, halive⟩
    have hentry := Fields.mem_of_get? (h.kept name i hfixed halive)
    exact List.mem_map.mpr ⟨(name, i), List.mem_filter.mpr ⟨hentry, halive⟩, rfl⟩

/-- A stream that runs is not abandoned. -/
theorem Tables.not_abandoned (h : w.Tables) {name : String}
    (hruns : w.supervisor.streams.contains name = true) : name ∉ w.abandonedStreams := by
  rw [h.mem_abandonedStreams]
  rintro ⟨i, hgivenUp, halive⟩
  simp [h.apart name hruns i (isGivenUp_iff.mp hgivenUp)] at halive

/-- While nobody holds the lock, those streams run that have an incarnation in the table. -/
theorem Governed.runningStreams_eq (h : w.Governed) (hlocked : w.supervisor.locked = false) :
    w.runningStreams = w.supervisor.streams.names := by
  cases h.lock with
  | unlocked _ _ names => exact names
  | held _ _ _ locked => simp [hlocked] at locked

/-- What a supervisor shows is right in every state that it reaches, whatever it was asked for
and however the starts and the stops of its streams went. While no operation holds the lock,
the running streams are those with an incarnation in the table, the abandoned ones are those
of which an incarnation was given up and is alive, and no stream is both. An operation that
was refused and has stopped nothing changes nothing that is shown, and a restart that failed
leaves its stream not running unless it did not get the lock. -/
theorem supervising_shows {config : PipelineConfig} {registry : Registry P} {shared : P.Shared}
    {occurrences : List (Occurrence P)}
    (h : (supervising config registry shared).undergo occurrences = some w) :
    (w.supervisor.locked = false →
      w.runningStreams = w.supervisor.streams.names ∧
      w.abandonedStreams.Nodup ∧
      (∀ name, name ∈ w.abandonedStreams ↔ ∃ i, w.IsGivenUp i name ∧ w.isAlive i = true) ∧
      ∀ name ∈ w.runningStreams, name ∉ w.abandonedStreams) ∧
    (∀ t operation later error course v,
      w.Operates t operation later (.failed error) course v → error.isRefusal = true →
      (w.AtSteps t course fun u => ¬ u.IsStopping t) →
      w.AtSteps t course fun u => ∀ u', u.step t = some u' → u.ShowsAlike u') ∧
    ∀ t name later error course v,
      w.Operates t (.restart name) later (.failed error) course v →
      (∀ within, error ≠ .controllerBusy within) →
      v.supervisor.streams.contains name = false ∧ name ∉ v.runningStreams := by
  have hgoverned : w.Governed := (governed_supervising config registry shared).undergo h
  have hcandid : w.Candid := (candid_supervising config registry shared).undergo h
  refine ⟨fun hlocked => ?_, fun t operation later error course v hoperates hrefusal hstops =>
    hoperates.refused hgoverned hcandid hrefusal hstops,
    fun t name later error course v hoperates hbusy =>
      hoperates.restart_failed hgoverned hcandid hbusy⟩
  have hruns := hgoverned.runningStreams_eq hlocked
  refine ⟨hruns, hgoverned.tables.abandonedStreams_nodup,
    fun _ => hgoverned.tables.mem_abandonedStreams, fun name hname => ?_⟩
  exact hgoverned.tables.not_abandoned (Fields.contains_iff.mpr (hruns ▸ hname))

/-! ## One run -/

/-- A course on which a stream is started. -/
def relayLaunch : List (Occurrence relayPlugins) :=
  .request (.operate (.start "line")) ::
    [0, 0, 1, 1, 1, 1, 1, 1, 1, 1, 1, 1, 1, 1, 1, 1, 1, 1, 1, 1, 2, 1, 1, 1, 1, 1, 1, 1, 1, 1,
      0, 0, 0].map (.move <| .step ·) ++ [.request (.operate (.restart "other"))]

/-- A course on which a thread does its six tasks. -/
def relayRestart : List (Occurrence relayPlugins) :=
  [3, 3, 3, 3, 3, 3].map (.move <| .step ·)

/-- A running stream is shown, and a stream that could not be restarted does not run. -/
theorem supervising_shows_relay : ∃ w v : World relayPlugins,
    (supervising (relayConfig .single) relayRegistry ()).undergo relayLaunch = some w ∧
    w.undergo relayRestart = some v ∧ w.supervisor.locked = false ∧ w.runningStreams = ["line"] ∧
    w.runningStreams = w.supervisor.streams.names ∧
    w.Operates 3 (.restart "other") [] (.failed (.unknownStream "other")) relayRestart v ∧
    "other" ∉ v.runningStreams := by
  refine ⟨_, _, rfl, rfl, rfl, rfl, ?_⟩
  have hshows := @supervising_shows relayPlugins _ (relayConfig .single) relayRegistry ()
    relayLaunch rfl
  refine ⟨(hshows.1 rfl).1, (and_iff_left_of_imp fun hoperates => ?_).mpr ?_⟩
  · exact (hshows.2.2 _ _ _ _ _ _ hoperates fun _ => StreamError.noConfusion).2
  · exact {
      course := rfl
      begins := ⟨true, _, rfl, rfl⟩
      inside := .cons (not_isBack_nil rfl) rfl (.cons (not_isBack_nil rfl) rfl
        (.cons (not_isBack_nil rfl) rfl (.cons (not_isBack_nil rfl) rfl
          (.cons (not_isBack_nil rfl) rfl (.cons (not_isBack_nil rfl) rfl .nil)))))
      ends := ⟨[3, 3, 3, 3, 3].map (.move <| .step ·), rfl⟩
      back := ⟨_, rfl, rfl⟩
      answer := rfl }

end EventPipeline.World
