import EventPipeline.Proofs.Supervision.Steady

/-!
# `EventPipeline.Proofs.Supervision.Lock`: the tables of a supervisor fit each other

The supervisor keeps three tables: which incarnation of a stream runs, what is known of
every running stream, and which incarnations were given up. They are changed at different
tasks of an operation. `Governed` says how far they fit each other in any state: the
tables fit as they are while nobody holds the lock, and while somebody does, they fit but
for the one incarnation that the holder waits for. `Governed.meet` is the step lemma: whatever
happens next, the tables still fit.
-/

set_option autoImplicit false

namespace EventPipeline

variable {P : Plugins}

/-- The task may stand in the middle of an operation, where it finds the tables in order. -/
def Task.isEntry : Task → Bool
  | .answer _ | .control (.startLocked _) | .control (.stopLocked _) | .control (.stopAll ..)
  | .control (.stoppedOne ..) => true
  | _ => false

/-- No thread but the holder has a part of an operation on its agenda. -/
def FreeBut (holder : Option Nat) (agendas : List (List Task)) : Prop :=
  ∀ i agenda, some i ≠ holder → agendas[i]? = some agenda → Free agenda

namespace FreeBut

variable {holder : Option Nat} {me : Nat} {agendas spawned : List (List Task)}
  {f : List Task → List Task} {agenda : List Task}

/-- A thread whose agenda becomes free leaves the others as free as they are. -/
theorem modify (h : FreeBut holder agendas)
    (hf : ∀ agenda, agendas[me]? = some agenda → Free agenda → Free (f agenda)) :
    FreeBut holder (agendas.modify me f) := by
  intro i agenda hi hagenda
  obtain ⟨rfl, old, hold, rfl⟩ | ⟨-, hold⟩ := getElem?_modify_cases hagenda
  · exact hf old hold (h me old hi hold)
  · exact h i agenda hi hold

/-- The holder of the lock does not count whatever it is going to do. -/
theorem modify_holder (h : FreeBut (some me) agendas) :
    FreeBut (some me) (agendas.modify me f) := by
  intro i agenda hi hagenda
  obtain ⟨rfl, -⟩ | ⟨-, hold⟩ := getElem?_modify_cases hagenda
  · exact absurd rfl hi
  · exact h i agenda hi hold

/-- Threads are added that have no part in an operation. -/
theorem append (h : FreeBut holder agendas) (hspawned : ∀ agenda ∈ spawned, Free agenda) :
    FreeBut holder (agendas ++ spawned) := by
  intro i agenda hi hagenda
  by_cases hlength : i < agendas.length
  · exact h i agenda hi (by rwa [List.getElem?_append_left hlength] at hagenda)
  · rw [List.getElem?_append_right (Nat.le_of_not_lt hlength)] at hagenda
    exact hspawned agenda (List.mem_of_getElem? hagenda)

/-- When everybody is free but for one thread, and so is that one, everybody is free. -/
theorem release (h : FreeBut (some me) agendas) (hme : agendas[me]? = some agenda)
    (hfree : Free agenda) : FreeBut none agendas := by
  intro i other _ hother
  by_cases hi : i = me
  · subst hi
    obtain rfl : agenda = other := by simpa [hme] using hother
    exact hfree
  · exact h i other (by simpa using hi) hother

end FreeBut

namespace World

variable {w v u : World P} {me : Nat}

/-- The name of an incarnation, and whether it was given up. -/
def fixed? (w : World P) (i : Nat) : Option (String × Bool) :=
  (w.incarnations[i]?).map (·.fixed)

/-- No incarnation of the stream that was given up is alive. -/
def IsOver (w : World P) (name : String) : Prop :=
  ∀ i, w.fixed? i = some (name, true) → w.isAlive i = false

/-- Every table names incarnations of its kind; whatever was given up and is alive is in its
table, and its stream does not run. -/
structure Tables (w : World P) : Prop where
  streamsAscend : w.supervisor.streams.Ascending
  runtimeAscend : w.supervisor.runtime.Ascending
  abandonedAscend : w.supervisor.abandoned.Ascending
  streams : ∀ name i, w.supervisor.streams.get? name = some i → w.fixed? i = some (name, false)
  abandoned : ∀ name i, w.supervisor.abandoned.get? name = some i →
    w.fixed? i = some (name, true)
  kept : ∀ name i, w.fixed? i = some (name, true) → w.isAlive i = true →
    w.supervisor.abandoned.get? name = some i
  apart : ∀ name, w.supervisor.streams.contains name = true → w.IsOver name

/-- An operation waits for an incarnation, which is in no table. -/
structure Pending (w : World P) (name : String) (i : Nat) : Prop where
  fixed : w.fixed? i = some (name, false)
  stopped : w.supervisor.streams.contains name = false
  isOver : w.IsOver name

/-- What the holder of the lock still has to do before it gives the lock back. -/
inductive Holds (w : World P) : List Task → Prop
  | between {body : List Task} (entries : ∀ task ∈ body, task.isEntry = true)
    (names : w.supervisor.runtime.names = w.supervisor.streams.names) : Holds w body
  | starting {name : String} {i : Nat} {later : List Task}
    (entries : ∀ task ∈ later, task.isEntry = true) (pending : w.Pending name i)
    (names : w.supervisor.runtime.names = w.supervisor.streams.names) :
    Holds w (.control (.awaitStarted i) :: later)
  | stopping {name : String} {i : Nat} {later : List Task}
    (entries : ∀ task ∈ later, task.isEntry = true) (pending : w.Pending name i)
    (names : w.supervisor.runtime.names.filter (· ≠ name) = w.supervisor.streams.names) :
    Holds w (.control (.awaitStopped i) :: later)

/-- At most one thread is in the middle of an operation, and it holds the lock. -/
inductive Lock (w : World P) : Prop
  | unlocked (locked : w.supervisor.locked = false) (others : FreeBut none w.agendas)
    (names : w.supervisor.runtime.names = w.supervisor.streams.names)
  | held (holder : Nat) (body rest : List Task) (locked : w.supervisor.locked = true)
    (agenda : w.agendas[holder]? = some (body ++ .control .unlock :: rest)) (free : Free rest)
    (others : FreeBut (some holder) w.agendas) (holds : w.Holds body)

/-- The tables of the supervisor fit each other, but for the incarnation that the holder of
the lock waits for. -/
structure Governed (w : World P) : Prop where
  tables : w.Tables
  lock : w.Lock

/-! ## Steady worlds -/

theorem Steady.fixed?_eq (h : Steady w v) (i : Nat) : v.fixed? i = w.fixed? i := by
  simpa only [fixed?, List.getElem?_map] using congrArg (·[i]?) h.incarnations

theorem IsOver.steady {name : String} (h : w.IsOver name) (hsteady : Steady w v) :
    v.IsOver name := by
  intro i hi
  have hover := h i (hsteady.fixed?_eq i ▸ hi)
  by_contra halive
  simp [hsteady.alive i (by simpa using halive)] at hover

theorem Tables.steady (h : w.Tables) (hsteady : Steady w v) : v.Tables where
  streamsAscend := hsteady.streams ▸ h.streamsAscend
  runtimeAscend := Fields.ascending_iff_names.mpr
    (hsteady.runtime h.runtimeAscend ▸ Fields.ascending_iff_names.mp h.runtimeAscend)
  abandonedAscend := hsteady.abandoned ▸ h.abandonedAscend
  streams := fun name i hi => hsteady.fixed?_eq i ▸ h.streams name i (hsteady.streams ▸ hi)
  abandoned := fun name i hi =>
    hsteady.fixed?_eq i ▸ h.abandoned name i (hsteady.abandoned ▸ hi)
  kept := fun name i hi halive =>
    hsteady.abandoned ▸ h.kept name i (hsteady.fixed?_eq i ▸ hi) (hsteady.alive i halive)
  apart := fun name hname => (h.apart name (hsteady.streams ▸ hname)).steady hsteady

theorem Pending.steady {name : String} {i : Nat} (h : w.Pending name i)
    (hsteady : Steady w v) : v.Pending name i :=
  ⟨hsteady.fixed?_eq i ▸ h.fixed, hsteady.streams ▸ h.stopped, h.isOver.steady hsteady⟩

/-- What is known of the running streams belongs to the same streams. -/
theorem Steady.runtime_names (h : Steady w v) (htables : w.Tables) :
    v.supervisor.runtime.names = w.supervisor.runtime.names :=
  h.runtime htables.runtimeAscend

theorem Holds.steady {body : List Task} (h : w.Holds body) (htables : w.Tables)
    (hsteady : Steady w v) : v.Holds body := by
  have hnames := hsteady.runtime_names htables
  cases h with
  | between entries names =>
    exact .between entries (by rw [hnames, hsteady.streams, names])
  | starting entries pending names =>
    exact .starting entries (pending.steady hsteady) (by rw [hnames, hsteady.streams, names])
  | stopping entries pending names =>
    exact .stopping entries (pending.steady hsteady) (by rw [hnames, hsteady.streams, names])

/-! ## Free steps -/

/-- A task that leaves the tables steady keeps them fitting, unless the holder of the lock
does it. -/
theorem Governed.frees {progress : Progress P} (h : w.Governed)
    (hsteady : Steady w progress.world)
    (hagendas : ∃ spawned, (∀ agenda ∈ spawned, Free agenda) ∧
      progress.world.agendas = w.agendas ++ spawned)
    (htodo : ∀ v todo, progress = .goOn v todo → Free todo)
    (hme : ∀ agenda, w.agendas[me]? = some agenda → Free agenda) :
    (progress.resume me).Governed := by
  obtain ⟨spawned, hspawned, hagendas⟩ := hagendas
  have hresume := hsteady.trans (steady_resume me progress)
  refine ⟨h.tables.steady hresume, ?_⟩
  have hothers (holder : Option Nat) (hbut : FreeBut holder w.agendas) :
      FreeBut holder (progress.resume me).agendas := by
    have hbut : FreeBut holder progress.world.agendas := by
      rw [hagendas]
      exact FreeBut.append hbut hspawned
    cases progress with
    | goOn v todo =>
      rw [agendas_resume]
      exact hbut.modify fun agenda _ hfree => (htodo v todo rfl).append hfree.tail
    | breakDown v text =>
      rw [agendas_breakDown rfl]
      exact hbut.modify fun _ _ _ => by simp [Free]
  cases h.lock with
  | unlocked locked others names =>
    exact .unlocked (by rw [hresume.locked, locked]) (hothers _ others)
      (by rw [hresume.runtime_names h.tables, hresume.streams, names])
  | held holder body rest locked agenda free others holds =>
    have hne : holder ≠ me := by
      rintro rfl
      simpa using hme _ agenda (.control .unlock) (by simp)
    have hkept : progress.world.agendas[holder]? = some (body ++ .control .unlock :: rest) := by
      rw [hagendas, List.getElem?_append_left (List.getElem?_eq_some_iff.mp agenda).1, agenda]
    refine .held holder body rest (by rw [hresume.locked, locked]) ?_ free (hothers _ others)
      (holds.steady h.tables hresume)
    cases progress with
    | goOn v todo =>
      rw [agendas_resume, List.getElem?_modify_ne _ _ hne.symm]
      exact hkept
    | breakDown v text =>
      rw [agendas_breakDown rfl, List.getElem?_modify_ne _ _ hne.symm]
      exact hkept

/-! ## Steps of the holder -/

/-- A thread holds the lock and is about to do a task, after which so much is left. -/
structure Working (w : World P) (me : Nat) (task : Task) (later rest : List Task) :
    Prop where
  locked : w.supervisor.locked = true
  agenda : w.agendas[me]? = some (task :: later ++ .control .unlock :: rest)
  free : Free rest
  others : FreeBut (some me) w.agendas
  entries : ∀ task ∈ later, task.isEntry = true

/-- The holder of the lock has done a task, and still holds it. -/
theorem Working.goOn {task : Task} {later rest todo : List Task}
    (h : w.Working me task later rest) (spawned : List (List Task)) (htables : v.Tables)
    (hlocked : v.supervisor.locked = w.supervisor.locked)
    (hspawned : ∀ agenda ∈ spawned, Free agenda) (hagendas : v.agendas = w.agendas ++ spawned)
    (hholds : v.Holds (todo ++ later)) : ((Progress.goOn v todo).resume me).Governed := by
  have hresume := steady_resume me (.goOn v todo)
  refine ⟨htables.steady hresume, .held me (todo ++ later) rest
    (by rw [hresume.locked, Progress.world, hlocked, h.locked]) ?_ h.free ?_
    (hholds.steady htables hresume)⟩
  · rw [agendas_resume, hagendas, List.getElem?_modify_eq,
      List.getElem?_append_left (List.getElem?_eq_some_iff.mp h.agenda).1, h.agenda]
    simp
  · rw [agendas_resume, hagendas]
    exact FreeBut.modify_holder (h.others.append hspawned)

/-- The holder of the lock goes on with further entries, in a world that is steady. -/
theorem Working.enter {task : Task} {later rest todo : List Task}
    (h : w.Working me task later rest) (htables : w.Tables)
    (hnames : w.supervisor.runtime.names = w.supervisor.streams.names) (hsteady : Steady w v)
    (hthreads : v.agendas = w.agendas) (hentries : ∀ task ∈ todo, task.isEntry = true) :
    ((Progress.goOn v todo).resume me).Governed := by
  refine h.goOn [] (htables.steady hsteady) hsteady.locked (by simp)
    (by simpa using hthreads) (.between (fun task htask => ?_) ?_)
  · exact (List.mem_append.mp htask).elim (hentries task) (h.entries task)
  · rw [hsteady.runtime_names htables, hsteady.streams, hnames]

/-! ### Starting a stream -/

/-- A world with a new incarnation of a stream, which a thread of its own builds. -/
def launch (w : World P) (name : String) : World P :=
  ((w.addIncarnation { name, thread := w.threads.length }).2.spawn
    [.control (.build w.incarnations.length)]).2

/-- The new incarnation was not given up, and no other one has changed. -/
theorem fixed?_launch (name : String) (i : Nat) :
    (w.launch name).fixed? i =
      if i = w.incarnations.length then some (name, false) else w.fixed? i := by
  simp only [fixed?, launch, spawn, addIncarnation]
  split
  · rename_i heq
    simp [heq, Incarnation.fixed]
  · rename_i hne
    by_cases hlt : i < w.incarnations.length
    · rw [List.getElem?_append_left hlt]
    · rw [List.getElem?_eq_none (by simp; omega), List.getElem?_eq_none (by omega)]

/-- No old incarnation was revived. -/
theorem isAlive_launch {name : String} {i : Nat} (hi : i ≠ w.incarnations.length)
    (halive : (w.launch name).isAlive i = true) : w.isAlive i = true := by
  rw [isAlive_iff] at *
  obtain ⟨incarnation, hincarnation, hended, hbroken⟩ := halive
  refine ⟨incarnation, ?_, hended, ?_⟩
  · simp only [launch, spawn, addIncarnation] at hincarnation
    by_cases hlt : i < w.incarnations.length
    · rwa [List.getElem?_append_left hlt] at hincarnation
    · rw [List.getElem?_eq_none (by simp; omega)] at hincarnation
      simp at hincarnation
  · exact Breaks.of_append (v := w.launch name) rfl _ hbroken

/-- The streams of which no incarnation is alive that was given up remain so. -/
theorem IsOver.launch {name other : String} (h : w.IsOver other) :
    (w.launch name).IsOver other := by
  intro i hi
  rw [fixed?_launch] at hi
  split at hi
  · simp at hi
  · rename_i hne
    have hover := h i hi
    by_contra halive
    simp [isAlive_launch hne (by simpa using halive)] at hover

/-- An incarnation that was not given up belongs to no table. -/
theorem Tables.launch (h : w.Tables) (name : String) : (w.launch name).Tables where
  streamsAscend := h.streamsAscend
  runtimeAscend := h.runtimeAscend
  abandonedAscend := h.abandonedAscend
  streams := fun other i hi => by
    have hfixed := h.streams other i hi
    rw [fixed?_launch, if_neg]
    · exact hfixed
    · rintro rfl
      simp [fixed?] at hfixed
  abandoned := fun other i hi => by
    have hfixed := h.abandoned other i hi
    rw [fixed?_launch, if_neg]
    · exact hfixed
    · rintro rfl
      simp [fixed?] at hfixed
  kept := fun other i hi halive => by
    rw [fixed?_launch] at hi
    split at hi
    · simp at hi
    · rename_i hne
      exact h.kept other i hi (isAlive_launch hne halive)
  apart := fun other hother => (h.apart other hother).launch

/-- A stream that was given up is over when the table of those has nothing alive for it. -/
theorem Tables.isOver (h : w.Tables) {name : String}
    (hover : (w.supervisor.abandoned.get? name).any w.isAlive = false) : w.IsOver name := by
  intro i hi
  by_contra halive
  have hkept := h.kept name i hi (by simpa using halive)
  simp [hkept] at hover
  simp [hover] at halive

/-- The holder of the lock starts a stream. -/
theorem startLocked_governed {name : String} {later rest : List Task} {progress : Progress P}
    (h : w.Working me (.control (.startLocked name)) later rest) (htables : w.Tables)
    (hnames : w.supervisor.runtime.names = w.supervisor.streams.names)
    (hperform : w.startLocked name = some progress) : (progress.resume me).Governed := by
  have hrefuse (error : StreamError) :
      ((Progress.goOn w [.answer (.failed error)]).resume me).Governed :=
    h.enter htables hnames .refl rfl (by simp [Task.isEntry])
  unfold startLocked at hperform
  simp only at hperform
  split at hperform
  · obtain rfl := Option.some.inj hperform
    exact hrefuse _
  rename_i hstreams
  split at hperform
  · obtain rfl := Option.some.inj hperform
    exact hrefuse _
  split at hperform
  · obtain rfl := Option.some.inj hperform
    exact hrefuse _
  rename_i habandoned
  obtain rfl := Option.some.inj hperform
  have hover : w.IsOver name := htables.isOver (by simpa using habandoned)
  refine h.goOn (v := w.launch name) [[.control (.build w.incarnations.length)]]
    (htables.launch name) rfl (by simp [Free])
    (by simp [launch, spawn, addIncarnation, agendas]) ?_
  have hpending : (w.launch name).Pending name w.incarnations.length :=
    ⟨by simp [fixed?_launch], eq_false_of_ne_true hstreams, hover.launch⟩
  exact .starting h.entries hpending hnames

/-! ### Giving up an incarnation -/

/-- Telling an incarnation that nobody waits for it neither ends nor revives any. -/
theorem isAlive_changeIncarnation (i j : Nat) :
    (w.changeIncarnation i fun incarnation =>
      { incarnation with cancelled := true, aborted := true }).isAlive j = w.isAlive j := by
  simp only [isAlive, changeIncarnation, List.getElem?_modify]
  cases w.incarnations[j]? with
  | none => rfl
  | some incarnation =>
    by_cases hij : i = j
    · simp [hij, brokenOf]
    · simp [hij, brokenOf]

/-- Giving up an incarnation neither ends nor revives any. -/
theorem isAlive_abandon (i j : Nat) : (w.abandon i).isAlive j = w.isAlive j := by
  unfold abandon
  split
  · rfl
  · simp only
    split <;> exact isAlive_changeIncarnation i j

/-- An incarnation that nobody waits for any more has been given up. -/
theorem fixed?_abandon {name : String} {i : Nat} (hi : w.fixed? i = some (name, false))
    (j : Nat) : (w.abandon i).fixed? j = if j = i then some (name, true) else w.fixed? j := by
  obtain ⟨incarnation, hincarnation, hfixed⟩ := Option.map_eq_some_iff.mp hi
  have hchange : (w.changeIncarnation i fun incarnation =>
      { incarnation with cancelled := true, aborted := true }).fixed? j =
        if j = i then some (name, true) else w.fixed? j := by
    simp only [fixed?, changeIncarnation, List.getElem?_modify]
    by_cases hji : j = i
    · subst hji
      simp only [Incarnation.fixed, Prod.mk.injEq] at hfixed
      simp [hincarnation, Incarnation.fixed, hfixed.1]
    · simp [hji, Ne.symm hji]
  simp only [abandon, hincarnation]
  split <;> exact hchange

/-- What was given up and is alive is put into its table. -/
theorem abandoned_abandon {name : String} {i : Nat} (hi : w.fixed? i = some (name, false)) :
    (w.abandon i).supervisor.abandoned =
      if w.isAlive i then w.supervisor.abandoned.put name i else w.supervisor.abandoned := by
  obtain ⟨incarnation, hincarnation, hfixed⟩ := Option.map_eq_some_iff.mp hi
  simp only [Incarnation.fixed, Prod.mk.injEq] at hfixed
  simp only [abandon, hincarnation, isAlive_changeIncarnation]
  split
  · rw [← hfixed.1]
    rfl
  · rfl

/-- Giving up an incarnation changes no other table. -/
theorem abandon_supervisor (w : World P) (i : Nat) :
    (w.abandon i).supervisor =
        { w.supervisor with abandoned := (w.abandon i).supervisor.abandoned } ∧
      (w.abandon i).threads = w.threads := by
  unfold abandon
  split
  · exact ⟨rfl, rfl⟩
  · simp only
    split <;> exact ⟨rfl, rfl⟩

/-- The tables fit when an incarnation was given up that was in none of them. -/
theorem Tables.abandon {name : String} {i : Nat} (h : w.Tables) (hpending : w.Pending name i) :
    (w.abandon i).Tables where
  streamsAscend := by
    rw [(abandon_supervisor w i).1]
    exact h.streamsAscend
  runtimeAscend := by
    rw [(abandon_supervisor w i).1]
    exact h.runtimeAscend
  abandonedAscend := by
    rw [abandoned_abandon hpending.fixed]
    split
    · exact Fields.ascending_put h.abandonedAscend _ _
    · exact h.abandonedAscend
  streams := fun other j hj => by
    rw [(abandon_supervisor w i).1] at hj
    have hfixed := h.streams other j hj
    rw [fixed?_abandon hpending.fixed, if_neg]
    · exact hfixed
    · rintro rfl
      obtain rfl : name = other := by simpa [hpending.fixed] using hfixed
      simpa [Fields.contains, show w.supervisor.streams.get? name = some j from hj]
        using hpending.stopped
  abandoned := fun other j hj => by
    rw [abandoned_abandon hpending.fixed] at hj
    rw [fixed?_abandon hpending.fixed]
    split at hj
    · by_cases hother : name = other
      · subst hother
        rw [Fields.get?_put_self] at hj
        rw [if_pos (Option.some.inj hj).symm]
      · rw [Fields.get?_put_of_ne _ _ hother] at hj
        have hfixed := h.abandoned other j hj
        rw [if_neg, hfixed]
        rintro rfl
        simp [hpending.fixed] at hfixed
    · have hfixed := h.abandoned other j hj
      rw [if_neg, hfixed]
      rintro rfl
      simp [hpending.fixed] at hfixed
  kept := fun other j hj halive => by
    rw [isAlive_abandon] at halive
    rw [fixed?_abandon hpending.fixed] at hj
    rw [abandoned_abandon hpending.fixed]
    split at hj
    · rename_i hji
      subst hji
      obtain ⟨rfl, -⟩ := Prod.mk.inj (Option.some.inj hj)
      rw [if_pos halive, Fields.get?_put_self]
    · have hne : name ≠ other := by
        rintro rfl
        simp [hpending.isOver j hj] at halive
      split
      · rw [Fields.get?_put_of_ne _ _ hne]
        exact h.kept other j hj halive
      · exact h.kept other j hj halive
  apart := fun other hother j hj => by
    rw [(abandon_supervisor w i).1] at hother
    rw [isAlive_abandon]
    rw [fixed?_abandon hpending.fixed] at hj
    split at hj
    · obtain ⟨rfl, -⟩ := Prod.mk.inj (Option.some.inj hj)
      simp [hpending.stopped] at hother
    · exact h.apart other hother j hj

/-! ### Waiting for an incarnation -/

/-- The tables fit when an incarnation runs that was in none of them. -/
theorem Tables.run {name : String} {i : Nat} (h : w.Tables) (hpending : w.Pending name i) :
    (w.changeSupervisor fun s =>
      { s with runtime := s.runtime.put name {}, streams := s.streams.put name i }).Tables where
  streamsAscend := Fields.ascending_put h.streamsAscend _ _
  runtimeAscend := Fields.ascending_put h.runtimeAscend _ _
  abandonedAscend := h.abandonedAscend
  streams := fun other j hj => by
    replace hj : (w.supervisor.streams.put name i).get? other = some j := hj
    by_cases hother : name = other
    · subst hother
      rw [Fields.get?_put_self] at hj
      exact Option.some.inj hj ▸ hpending.fixed
    · rw [Fields.get?_put_of_ne _ _ hother] at hj
      exact h.streams other j hj
  abandoned := h.abandoned
  kept := h.kept
  apart := fun other hother => by
    by_cases hne : name = other
    · exact hne ▸ hpending.isOver
    · refine h.apart other ?_
      replace hother : (w.supervisor.streams.put name i).contains other = true := hother
      rwa [Fields.contains, Fields.get?_put_of_ne _ _ hne] at hother

/-- The tables fit when a stream does not run any more. -/
theorem Tables.eraseStream (h : w.Tables) (name : String) :
    (w.changeSupervisor fun s => { s with streams := s.streams.erase name }).Tables where
  streamsAscend := Fields.ascending_erase h.streamsAscend _
  runtimeAscend := h.runtimeAscend
  abandonedAscend := h.abandonedAscend
  streams := fun other j hj => by
    replace hj : (w.supervisor.streams.erase name).get? other = some j := hj
    by_cases hother : name = other
    · simp [hother, Fields.get?_erase_self] at hj
    · exact h.streams other j (by rwa [Fields.get?_erase_of_ne _ hother] at hj)
  abandoned := h.abandoned
  kept := h.kept
  apart := fun other hother => by
    replace hother : (w.supervisor.streams.erase name).contains other = true := hother
    by_cases hne : name = other
    · simp [hne, Fields.contains, Fields.get?_erase_self] at hother
    · exact h.apart other (by rwa [Fields.contains, Fields.get?_erase_of_ne _ hne] at hother)

/-- The tables fit when nothing is known of a stream any more. -/
theorem Tables.eraseRuntime (h : w.Tables) (name : String) :
    (w.changeSupervisor fun s => { s with runtime := s.runtime.erase name }).Tables :=
  { h with runtimeAscend := Fields.ascending_erase h.runtimeAscend _ }

/-- The holder of the lock waits for an incarnation to be ready. -/
theorem awaitStarted_governed {name : String} {i : Nat} {expired : Bool}
    {later rest : List Task} {progress : Progress P}
    (h : w.Working me (.control (.awaitStarted i)) later rest) (htables : w.Tables)
    (hpending : w.Pending name i)
    (hnames : w.supervisor.runtime.names = w.supervisor.streams.names)
    (hperform : w.awaitStarted expired i = some progress) : (progress.resume me).Governed := by
  obtain ⟨incarnation, hincarnation, hfixed⟩ := Option.map_eq_some_iff.mp hpending.fixed
  obtain ⟨rfl, -⟩ : incarnation.name = name ∧ incarnation.aborted = false := by
    simpa [Incarnation.fixed] using hfixed
  have hentries (error : StreamError) (task : Task)
      (htask : task ∈ Task.answer (.failed error) :: later) : task.isEntry = true :=
    (List.mem_cons.mp htask).elim (fun heq => heq ▸ rfl) (h.entries task)
  have hfail (error : StreamError) :
      ((Progress.goOn (w.note (.streamStartFailed incarnation.name error))
        [.answer (.failed error)]).resume me).Governed :=
    h.enter htables hnames (.of_aside ⟨rfl, rfl⟩ (.of_eq rfl)) rfl (by simp [Task.isEntry])
  simp only [awaitStarted, hincarnation, Option.bind_eq_bind, Option.bind_some] at hperform
  split at hperform
  · obtain rfl := Option.some.inj hperform
    refine h.goOn [] (htables.run hpending) rfl (by simp) (by simp [agendas,
      changeSupervisor]) (.between (fun task htask => ?_) ?_)
    · exact (List.mem_cons.mp htask).elim (fun heq => heq ▸ rfl) (h.entries task)
    · exact Fields.names_put_congr hnames _ _ _
  · obtain rfl := Option.some.inj hperform
    exact hfail _
  · split at hperform
    · obtain rfl := Option.some.inj hperform
      exact hfail _
    · split at hperform
      · obtain rfl := Option.some.inj hperform
        obtain ⟨hsupervisor, hthreads⟩ := abandon_supervisor w i
        have hnote : Steady (w.abandon i)
            (((w.abandon i).note (.streamAbandoned incarnation.name "start"
              w.supervisor.config.runtime.startWithin)).note
              (.streamStartFailed incarnation.name (.startTimeout incarnation.name
                w.supervisor.config.runtime.startWithin))) :=
          .of_aside ⟨rfl, rfl⟩ (.of_eq rfl)
        refine h.goOn [] ((htables.abandon hpending).steady hnote) ?_ (by simp) ?_
          (.between (hentries _) ?_)
        · rw [hnote.locked, hsupervisor]
        · simp [agendas, note, logAll, hthreads]
        · rw [hnote.streams, hnote.runtime (htables.abandon hpending).runtimeAscend, hsupervisor,
            hnames]
      · simp at hperform

/-- The holder of the lock stops a stream. -/
theorem stopLocked_governed {name : String} {later rest : List Task} {progress : Progress P}
    (h : w.Working me (.control (.stopLocked name)) later rest) (htables : w.Tables)
    (hnames : w.supervisor.runtime.names = w.supervisor.streams.names)
    (hperform : w.stopLocked name = some progress) : (progress.resume me).Governed := by
  unfold stopLocked at hperform
  split at hperform
  · obtain rfl := Option.some.inj hperform
    exact h.enter htables hnames .refl rfl (by simp [Task.isEntry])
  · rename_i i hi
    obtain rfl := Option.some.inj hperform
    have hcancel : Steady (w.changeSupervisor fun s => { s with streams := s.streams.erase name })
        ((w.changeSupervisor fun s => { s with streams := s.streams.erase name }).changeIncarnation
          i fun incarnation => { incarnation with cancelled := true }) :=
      .changeIncarnation i fun _ => ⟨rfl, rfl, id⟩
    have hpending : (w.changeSupervisor fun s =>
        { s with streams := s.streams.erase name }).Pending name i :=
      ⟨htables.streams name i hi, by simp [changeSupervisor, Fields.contains,
        Fields.get?_erase_self], htables.apart name (by simp [Fields.contains, hi])⟩
    refine h.goOn [] ((htables.eraseStream name).steady hcancel) rfl (by simp)
      (by simp [agendas, changeSupervisor, changeIncarnation]) ?_
    refine .stopping h.entries (hpending.steady hcancel) ?_
    show w.supervisor.runtime.names.filter (· ≠ name) = (w.supervisor.streams.erase name).names
    rw [Fields.names_erase, hnames]

/-- The holder of the lock waits for an incarnation to end. -/
theorem awaitStopped_governed {name : String} {i : Nat} {expired : Bool}
    {later rest : List Task} {progress : Progress P}
    (h : w.Working me (.control (.awaitStopped i)) later rest) (htables : w.Tables)
    (hpending : w.Pending name i)
    (hnames : w.supervisor.runtime.names.filter (· ≠ name) = w.supervisor.streams.names)
    (hperform : w.awaitStopped expired i = some progress) : (progress.resume me).Governed := by
  obtain ⟨incarnation, hincarnation, hfixed⟩ := Option.map_eq_some_iff.mp hpending.fixed
  obtain ⟨rfl, -⟩ : incarnation.name = name ∧ incarnation.aborted = false := by
    simpa [Incarnation.fixed] using hfixed
  have hentries (shutdown : Shutdown) (task : Task)
      (htask : task ∈ Task.answer (.stopped shutdown) :: later) : task.isEntry = true :=
    (List.mem_cons.mp htask).elim (fun heq => heq ▸ rfl) (h.entries task)
  simp only [awaitStopped, hincarnation, Option.bind_eq_bind, Option.bind_some] at hperform
  split at hperform
  · obtain rfl := Option.some.inj hperform
    have hlog : Steady w (w.logAll (incarnation.broken.toList.map
        (Message.streamTaskFailed incarnation.name))) := .of_aside ⟨rfl, rfl⟩ (.of_eq rfl)
    refine h.goOn [] ((htables.steady hlog).eraseRuntime _) rfl (by simp)
      (by simp [agendas, changeSupervisor, logAll]) (.between (hentries _) ?_)
    show (w.supervisor.runtime.erase incarnation.name).names = w.supervisor.streams.names
    rw [Fields.names_erase, hnames]
  · split at hperform
    · obtain rfl := Option.some.inj hperform
      obtain ⟨hsupervisor, hthreads⟩ := abandon_supervisor w i
      have hnote : Steady (w.abandon i) ((w.abandon i).note (.streamAbandoned incarnation.name
          "stop" w.supervisor.config.runtime.stopWithin)) := .of_aside ⟨rfl, rfl⟩ (.of_eq rfl)
      refine h.goOn [] (((htables.abandon hpending).steady hnote).eraseRuntime _) ?_
        (by simp) ?_ (.between (hentries _) ?_)
      · show (w.abandon i).supervisor.locked = _
        rw [hsupervisor]
      · simp [agendas, changeSupervisor, note, logAll, hthreads]
      · show ((w.abandon i).supervisor.runtime.erase incarnation.name).names =
          (w.abandon i).supervisor.streams.names
        rw [hsupervisor, Fields.names_erase, hnames]
    · simp at hperform

/-! ## All steps -/

/-- What an operation consists of are entries. -/
theorem isEntry_tasksOf (w : World P) (operation : Operation) :
    ∀ task ∈ w.tasksOf operation, task.isEntry = true := by
  cases operation <;> simp [tasksOf, Task.isEntry]

/-- A thread takes the lock, or is told that it cannot have it. -/
theorem operate_governed {operation : Operation} {limited expired : Bool} {rest : List Task}
    {progress : Progress P} (h : w.Governed)
    (hagenda : w.agendas[me]? = some (.control (.operate operation limited) :: rest))
    (hfree : Free (.control (.operate operation limited) :: rest))
    (hperform : w.operate expired operation = some progress) : (progress.resume me).Governed := by
  unfold operate at hperform
  split at hperform
  · split at hperform
    · obtain rfl := Option.some.inj hperform
      refine h.frees .refl ⟨[], by simp, by simp [Progress.world]⟩ ?_ fun agenda hme => ?_
      · rintro _ _ ⟨⟩
        simp [Free]
      · obtain rfl : _ = agenda := by simpa [hagenda] using hme
        exact hfree
    · simp at hperform
  · rename_i hunlocked
    obtain rfl := Option.some.inj hperform
    cases h.lock with
    | held holder body rest locked => exact absurd locked hunlocked
    | unlocked _ others names =>
      have hresume := steady_resume me
        (.goOn (w.changeSupervisor fun s => { s with locked := true })
          (w.tasksOf operation ++ [.control .unlock]))
      have hagendas : (w.changeSupervisor fun s => { s with locked := true }).agendas =
          w.agendas := agendas_congr rfl
      have htables : (w.changeSupervisor fun s => { s with locked := true }).Tables :=
        { h.tables with }
      have hholds : (w.changeSupervisor fun s => { s with locked := true }).Holds
          (w.tasksOf operation) := .between (isEntry_tasksOf w operation) names
      refine ⟨htables.steady hresume, .held me (w.tasksOf operation) rest
        hresume.locked ?_ (fun task htask => hfree task (by simp [htask])) ?_
        (hholds.steady htables hresume)⟩
      · rw [agendas_resume, hagendas, List.getElem?_modify_eq, hagenda]
        simp
      · rw [agendas_resume, hagendas]
        exact FreeBut.modify_holder fun i agenda _ => others i agenda (by simp)

/-- The holder of the lock does a task in the middle of its operation. -/
theorem Holds.step {task : Task} {later rest : List Task} {expired : Bool}
    {progress : Progress P} (h : w.Governed) (hholds : w.Holds (task :: later))
    (hlocked : w.supervisor.locked = true)
    (hagenda : w.agendas[me]? = some (task :: later ++ .control .unlock :: rest))
    (hfree : Free rest) (hothers : FreeBut (some me) w.agendas)
    (hperform : w.perform me expired task = some progress) : (progress.resume me).Governed := by
  cases hholds with
  | starting entries pending names =>
    exact awaitStarted_governed ⟨hlocked, hagenda, hfree, hothers, entries⟩ h.tables pending
      names hperform
  | stopping entries pending names =>
    exact awaitStopped_governed ⟨hlocked, hagenda, hfree, hothers, entries⟩ h.tables pending
      names hperform
  | between entries names =>
    have hwork : w.Working me task later rest :=
      ⟨hlocked, hagenda, hfree, hothers, fun task htask => entries task (by simp [htask])⟩
    have hentry := entries task (by simp)
    cases task with
    | answer answer =>
      obtain rfl := Option.some.inj hperform
      exact hwork.enter h.tables names (.of_aside ⟨rfl, rfl⟩ (.of_modify rfl fun _ h => h))
        (agendas_answer ..) (by simp)
    | control task =>
      cases task with
      | startLocked name => exact startLocked_governed hwork h.tables names hperform
      | stopLocked name => exact stopLocked_governed hwork h.tables names hperform
      | stopAll names' count abandoned =>
        cases names' with
        | nil =>
          obtain rfl := Option.some.inj hperform
          exact hwork.enter h.tables names (.of_aside ⟨rfl, rfl⟩ (.of_eq rfl)) rfl (by simp)
        | cons name names' =>
          obtain rfl := Option.some.inj hperform
          exact hwork.enter h.tables names .refl rfl (by simp [Task.isEntry])
      | stoppedOne names' count abandoned =>
        obtain rfl := Option.some.inj hperform
        exact hwork.enter h.tables names .refl rfl (by simp [Task.isEntry])
      | _ => simp [Task.isEntry] at hentry
    | _ => simp [Task.isEntry] at hentry

/-- The holder of the lock gives it back. -/
theorem unlock_governed {rest : List Task} {expired : Bool} {progress : Progress P}
    (h : w.Governed) (hholds : w.Holds [])
    (hagenda : w.agendas[me]? = some (.control .unlock :: rest)) (hfree : Free rest)
    (hothers : FreeBut (some me) w.agendas)
    (hperform : w.perform me expired (.control .unlock) = some progress) :
    (progress.resume me).Governed := by
  cases hholds with
  | between _ names =>
    obtain rfl := Option.some.inj hperform
    have hresume := steady_resume me
      (.goOn (w.changeSupervisor fun s => { s with locked := false }) [])
    have hagendas : (w.changeSupervisor fun s => { s with locked := false }).agendas =
        w.agendas := agendas_congr rfl
    have htables : (w.changeSupervisor fun s => { s with locked := false }).Tables :=
      { h.tables with }
    refine ⟨htables.steady hresume, .unlocked hresume.locked ?_ ?_⟩
    · rw [agendas_resume, hagendas]
      exact FreeBut.release (FreeBut.modify_holder hothers)
        (by simp [List.getElem?_modify_eq, hagenda]) hfree
    · rw [hresume.streams, hresume.runtime_names htables]
      exact names

/-- Whatever a thread does, the tables still fit. -/
theorem Governed.step (h : w.Governed) (hstep : w.step me = some v) : v.Governed := by
  obtain ⟨thread, task, rest, progress, hthread, hagenda, hperform, rfl⟩ := step_perform hstep
  have hme : w.agendas[me]? = some (task :: rest) := by simp [agendas, hthread, hagenda]
  -- a thread that does not hold the lock does a free task, or one of the special ones
  have hfree (hfree : Free (task :: rest)) : (progress.resume me).Governed := by
    have hme' (agenda : List Task) (hagenda : w.agendas[me]? = some agenda) : Free agenda := by
      obtain rfl : _ = agenda := by simpa [hme] using hagenda
      exact hfree
    cases hspecial : task.isSpecial with
    | false =>
      obtain ⟨hsteady, ⟨spawned, hspawned, hthreads⟩, htodo⟩ :=
        perform_frees (hfree task (by simp)) hspecial progress hperform
      refine h.frees hsteady ⟨spawned, fun agenda hagenda => (hspawned agenda hagenda).free, ?_⟩
        (fun v todo heq => (htodo v todo heq).free) hme'
      exact (congrArg (List.map (·.agenda)) hthreads).trans (map_newThreads spawned)
    | true =>
      cases task with
      | answer answer =>
        obtain rfl := Option.some.inj hperform
        refine h.frees (.of_aside ⟨rfl, rfl⟩ (.of_modify rfl fun _ h => h))
          ⟨[], by simp, by rw [List.append_nil]; exact agendas_answer ..⟩ ?_ hme'
        rintro _ _ ⟨⟩
        simp [Free]
      | control task =>
        cases task with
        | operate operation limited => exact operate_governed h hme hfree hperform
        | build i =>
          obtain ⟨hsteady, hthreads, v, task, rfl, hplain⟩ := buildIncarnation_steady hperform
          refine h.frees hsteady ⟨[], by simp, by simp [agendas, hthreads]⟩ ?_ hme'
          rintro _ _ ⟨⟩
          have hcommon : Common [task] := common_of_plain (by simpa using hplain)
          simpa [Free] using hcommon.free
        | _ => simp [Task.isSpecial] at hspecial
      | _ => simp [Task.isSpecial] at hspecial
  cases h.lock with
  | unlocked locked others => exact hfree (others me _ (by simp) hme)
  | held holder body rest' locked agenda free others holds =>
    by_cases hholder : me = holder
    · subst hholder
      obtain heq : task :: rest = body ++ .control .unlock :: rest' := by
        simpa [hme] using agenda
      cases body with
      | nil =>
        obtain ⟨rfl, rfl⟩ := List.cons.inj heq
        exact unlock_governed h holds hme free others hperform
      | cons first later =>
        obtain ⟨rfl, rfl⟩ := List.cons.inj heq
        exact holds.step h locked agenda free others hperform
    · exact hfree (others me _ (by simpa using hholder) hme)

/-- The tables still fit when threads are added that have no part in an operation. -/
theorem Governed.added (h : w.Governed) (spawned : List (List Task)) (hsteady : Steady w v)
    (hspawned : ∀ agenda ∈ spawned, Free agenda) (hagendas : v.agendas = w.agendas ++ spawned) :
    v.Governed := by
  refine ⟨h.tables.steady hsteady, ?_⟩
  cases h.lock with
  | unlocked locked others names =>
    refine .unlocked (by rw [hsteady.locked, locked]) (hagendas ▸ others.append hspawned) ?_
    rw [hsteady.runtime_names h.tables, hsteady.streams, names]
  | held holder body rest locked agenda free others holds =>
    refine .held holder body rest (by rw [hsteady.locked, locked]) ?_ free
        (hagendas ▸ others.append hspawned)
      (holds.steady h.tables hsteady)
    rw [hagendas, List.getElem?_append_left (List.getElem?_eq_some_iff.mp agenda).1, agenda]

/-- Whatever happens, the tables still fit. -/
theorem Governed.meet {occurrence : Occurrence P} (h : w.Governed)
    (hmeet : w.meet occurrence = some v) : v.Governed := by
  by_cases hstep : ∃ me, occurrence = .move (.step me)
  · obtain ⟨me, rfl⟩ := hstep
    exact h.step hmeet
  · obtain ⟨hsteady, -, spawned, hspawned, hthreads⟩ :=
      meet_steady hmeet fun me heq => hstep ⟨me, heq⟩
    refine h.added spawned hsteady (fun agenda hagenda => (hspawned agenda hagenda).free) ?_
    exact (congrArg (List.map (·.agenda)) hthreads).trans (map_newThreads spawned)

/-- At first all tables are empty. -/
theorem governed_supervising (config : PipelineConfig) (registry : Registry P)
    (shared : P.Shared) : (supervising config registry shared).Governed where
  tables :=
    { streamsAscend := .nil
      runtimeAscend := .nil
      abandonedAscend := .nil
      streams := fun name i h => by simp [supervising, Fields.get?] at h
      abandoned := fun name i h => by simp [supervising, Fields.get?] at h
      kept := fun name i h => by simp [supervising, fixed?] at h
      apart := fun name h => by simp [supervising, Fields.contains, Fields.get?] at h }
  lock := .unlocked rfl (fun i agenda _ h => by simp [supervising, agendas] at h) rfl

/-- In every state that a supervisor reaches, its tables fit each other. -/
theorem Governed.undergo {occurrences : List (Occurrence P)} (h : w.Governed)
    (hundergo : w.undergo occurrences = some v) : v.Governed :=
  undergo_invariant Governed.meet h hundergo

end World
end EventPipeline
