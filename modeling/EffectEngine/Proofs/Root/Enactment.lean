import EffectEngine.Proofs.Root.Moves
import EffectEngine.Proofs.World.Tasks

/-!
# What the events of root tasks are

`World.rootEvents` is read off a world before its move. `World.Enacts` says what the move then does:
the hook that is called is the code which the level of the root task goes on with, what is answered
is the end of this code, and the outcome a task settles with is the one its root task takes.
-/

namespace EffectEngine

namespace World

variable {S : Sig} {α : Type} {w : World S} {host : Host S} {thread : ThreadId}

/-! ### A thread that ends -/

theorem levelsAt_wake_nil {i : Nat} (nothing : w.levelsAt i = []) (event : Pending)
    (outcome : Outcome) : (w.wake event outcome).levelsAt i = [] := by
  have deliver (ids : List ThreadId) (w : World S) (nothing : w.levelsAt i = []) :
      (ids.foldl (fun w id => w.deliver id outcome) w).levelsAt i = [] := by
    induction ids generalizing w with
    | nil => exact nothing
    | cons id ids ih =>
      refine ih _ ?_
      rw [levelsAt_deliver, nothing]
      split <;> rfl
  exact deliver _ _ nothing

theorem fate?_wake (w : World S) (event : Pending) (outcome : Outcome) (thread : ThreadId) :
    (w.wake event outcome).fate? thread = w.fate? thread := by
  have deliver (ids : List ThreadId) (w : World S) :
      (ids.foldl (fun w id => w.deliver id outcome) w).fate? thread = w.fate? thread := by
    induction ids generalizing w with
    | nil => rfl
    | cons id ids ih =>
      refine (ih _).trans ?_
      simp only [fate?, World.deliver, modifyLevels, Array.getElem?_modify]
      split
      · cases w.threads[thread.index]? <;> rfl
      · rfl
  exact deliver _ _

theorem levelsAt_endThread (w : World S) (thread : ThreadId) (fate : Fate) :
    (w.endThread thread fate).levelsAt thread.index = [] := by
  refine levelsAt_wake_nil ?_ _ _
  simp only [levelsAt, Array.getElem?_modify, if_pos]
  cases w.threads[thread.index]? <;> rfl

theorem fate?_endThread (known : thread.index < w.threads.size) (fate : Fate) :
    (w.endThread thread fate).fate? thread = some fate := by
  refine (fate?_wake _ _ _ _).trans ?_
  simp [fate?, Array.getElem?_modify, Array.getElem?_eq_getElem known]

/-- The level that ended was not the task of a root task. -/
theorem levelsAt_finishLevel (known : thread.index < w.threads.size) {below : List (Level S)}
    {outcome : Outcome} (quiet : settling below outcome = []) :
    (w.finishLevel thread below outcome).levelsAt thread.index =
      below.modifyHead (Level.deliver outcome) ∧
    (below = [] → (w.finishLevel thread below outcome).fate? thread = some (.ended outcome)) := by
  unfold finishLevel
  split
  · exact ⟨levelsAt_endThread _ _ _, fun _ => fate?_endThread known _⟩
  · cases quiet
  · refine ⟨?_, nofun⟩
    rw [setLevels, levelsAt_modifyLevels _ known, if_pos rfl]
    rfl

/-! ### What a move does -/

/-- What a move of a thread is that is read off as an event of the root task `id`, to which so much
has `happened` before. -/
inductive Enacts (host : Host S) (w : World S) (thread : ThreadId) (id : TaskId)
    (happened : List (RootEvent S.Listener)) : RootEvent S.Listener → Prop
  /-- The root task goes on with the code of the hook. -/
  | called {ctx : S.Ctx} {life life' : Lifecycle S.Listener} {below : List (Level S)}
    {l : S.Listener} {hook : Hook}
    (before : w.levelsAt thread.index = .root id ctx life none :: below)
    (after : (w.step host).levelsAt thread.index =
      .root id ctx life' (some (.going (host.hook l hook ctx))) :: below) :
    Enacts host w thread id happened (.occasion (.called l hook))
  /-- The code of the hook that was called last has come to its end. -/
  | answered {ctx : S.Ctx} {life : Lifecycle S.Listener} {below : List (Level S)}
    {result : Except Error Unit} {es : List (RootEvent S.Listener)} {l : S.Listener} {hook : Hook}
    (before : w.levelsAt thread.index =
      .root id ctx life (some (.going (.done result))) :: below)
    (last : happened = es ++ [.occasion (.called l hook)])
    (code : Flow.Continues (.going (host.hook l hook ctx)) (.going (.done result)))
    (after : (w.step host).levelsAt thread.index =
      .root id ctx (life.hookEnded result) none :: below) :
    Enacts host w thread id happened (.occasion (.answered result))
  | started {ctx : S.Ctx} {life life' : Lifecycle S.Listener} {below : List (Level S)}
    (before : w.levelsAt thread.index = .root id ctx life none :: below)
    (after : (w.step host).levelsAt thread.index =
      .task id none :: .root id ctx life' none :: below) :
    Enacts host w thread id happened (.occasion .started)
  | settled {ctx : S.Ctx} {life : Lifecycle S.Listener} {below : List (Level S)}
    {outcome : Outcome}
    (before : w.levelsAt thread.index = .task id none :: .root id ctx life none :: below)
    (settles : (w.step host).outcome? id = some outcome)
    (after : (w.step host).levelsAt thread.index =
      .root id ctx (life.taskEnded outcome) none :: below) :
    Enacts host w thread id happened (.occasion (.settled outcome))
  /-- The result is delivered to the level below, or is the end of the thread. -/
  | returned {ctx : S.Ctx} {life : Lifecycle S.Listener} {below : List (Level S)}
    {result : Outcome}
    (before : w.levelsAt thread.index = .root id ctx life none :: below)
    (after : (w.step host).levelsAt thread.index = below.modifyHead (Level.deliver result))
    (fate : below = [] → (w.step host).fate? thread = some (.ended result)) :
    Enacts host w thread id happened (.returned result)
  | unwound {message : String} (before : ∃ r ∈ w.roots thread.index, r.id = id)
    (after : (w.step host).levelsAt thread.index = [])
    (fate : (w.step host).fate? thread = some (.crashed message)) :
    Enacts host w thread id happened (.unwound message)

section Enacts

variable {id : TaskId} {l : Level S} {below : List (Level S)}
  {e : TaskId × RootEvent S.Listener} {happened : TaskId → List (RootEvent S.Listener)}

theorem levelsAt_crash (w : World S) (host : Host S) (thread : ThreadId) (levels : List (Level S))
    (message : String) : (w.crash host thread levels message).levelsAt thread.index = [] :=
  levelsAt_endThread _ _ _

theorem fate?_crash (known : thread.index < w.threads.size) (host : Host S)
    (levels : List (Level S)) (message : String) :
    (w.crash host thread levels message).fate? thread = some (.crashed message) := by
  have released := calm_release host w (w.unwound levels)
  unfold crash
  dsimp only
  split
  · rename_i task _
    have settled := released.trans (calm_modifyTask _ task (·.panicked message))
    exact fate?_endThread (known.trans_le (settled.trans (calm_wake _ _ _)).threads) _
  · split
    · exact fate?_endThread (known.trans_le released.threads) _
    · exact fate?_endThread (known.trans_le (released.trans (calm_write _ _)).threads) _

variable (holds : w.levelsAt thread.index = l :: below)
include holds

theorem enacts_crash {w₁ : World S} (calm : Uneventful w w₁) {message : String}
    (crashes : w.step host = w₁.crash host thread (l :: below) message)
    (mem : e ∈ unwinding (l :: below) message) :
    Enacts host w thread e.1 (happened e.1) e.2 := by
  obtain ⟨r, there, rfl⟩ := List.mem_map.1 mem
  have known := (known_of_levelsAt holds).trans_le calm.threads
  refine .unwound ⟨r, by rwa [roots, holds], rfl⟩ ?_ ?_
  · rw [crashes, levelsAt_crash]
  · rw [crashes, fate?_crash known]

/-- Code that never waits panics for the task on top. -/
theorem enacts_stepSync {w₁ : World S} (calm : Uneventful w w₁) {code : S.Sync α}
    {finish : World S → α → World S}
    (steps : w.step host = w₁.stepSync host thread (l :: below) finish code)
    (mem : e ∈ match w₁.syncPanic? code with
      | some message => unwinding (l :: below) message
      | none => []) :
    Enacts host w thread e.1 (happened e.1) e.2 := by
  unfold syncPanic? at mem
  unfold stepSync at steps
  rcases ran : w₁.runSync code with ⟨message | a, after⟩
  · rw [ran] at mem steps
    have calm' := calm.trans (calm_runSync w₁ code)
    rw [ran] at calm'
    exact enacts_crash holds calm' steps mem
  · rw [ran] at mem
    cases mem

variable (up : w.Upright)
include up

/-- The task on top ends, and its root task takes the outcome. -/
theorem enacts_settling {w₁ : World S} (calm : Uneventful w w₁) {task : TaskId} {outcome : Outcome}
    (top : l = .task task none) (settles : (w.step host).outcome? task = some outcome)
    (steps : w.step host = w₁.finishLevel thread below outcome)
    (mem : e ∈ settling below outcome) : Enacts host w thread e.1 (happened e.1) e.2 := by
  have chain := chain_of_levelsAt up holds
  subst top
  unfold settling at mem
  split at mem
  · rename_i id ctx life rest
    obtain rfl := List.mem_singleton.1 mem
    obtain ⟨same, -⟩ := (List.isChain_cons_cons.1 chain).1 _ _ rfl
    obtain rfl : task = id := Shape.task.inj same
    refine .settled holds settles ?_
    rw [steps]
    have there := (known_of_levelsAt holds).trans_le calm.threads
    exact (levelsAt_modifyLevels thread there _).trans (if_pos rfl)
  · cases mem

/-- A root task under a task stands for that task. -/
theorem exists_of_settling {task : TaskId} {outcome : Outcome} (top : l = .task task none)
    (mem : e ∈ settling below outcome) : ∃ r ∈ w.roots thread.index, r.id = task := by
  have chain := chain_of_levelsAt up holds
  subst top
  unfold settling at mem
  split at mem
  · rename_i id ctx life rest
    obtain ⟨same, -⟩ := (List.isChain_cons_cons.1 chain).1 _ _ rfl
    refine ⟨⟨id, ctx, life, none⟩, ?_, (Shape.task.inj same).symm⟩
    rw [roots, holds]
    exact List.mem_cons_self ..
  · cases mem

variable (head : w.ready.head? = some thread)
include head

theorem enacts_stepTask {task : TaskId} (top : l = .task task none)
    (known : ∀ r ∈ w.roots thread.index, r.id.index < w.tasks.size)
    (mem : e ∈ rootEventsOf host w (l :: below)) :
    Enacts host w thread e.1 (happened e.1) e.2 := by
  have steps : w.step host = w.stepTask host thread below task := by
    rw [step_of_levelsAt head holds, top]
    rfl
  -- A task whose end is that of a root task is among the tasks of the world.
  have unknown (mem : e ∈ settling below (.ok .null)) (missing : w.tasks[task.index]? = none) :
      Enacts host w thread e.1 (happened e.1) e.2 := by
    obtain ⟨r, there, rfl⟩ := exists_of_settling holds up top mem
    exact absurd (known r there) (Nat.not_lt.2 (Array.getElem?_eq_none_iff.1 missing))
  rw [top] at mem
  cases found : w.tasks[task.index]? with
  | none =>
    simp only [rootEventsOf, World.task?, found] at mem
    exact unknown mem found
  | some held =>
    obtain ⟨t, ctx⟩ := held
    have task? : w.task? task = some t := by simp only [World.task?, found, Option.map_some]
    have ctx? : w.ctx? task = some ctx := by simp only [World.ctx?, found, Option.map_some]
    have moved := calm_modifyTask w task fun _ => (t.step host.registry).1
    simp only [rootEventsOf, task?, ctx?] at mem
    simp only [World.stepTask, task?, ctx?] at steps
    cases settled : (t.step host.registry).1.outcome? with
    | some outcome =>
      simp only [settled] at mem steps
      refine enacts_settling holds up (moved.trans (calm_wake _ _ _)) top ?_ steps mem
      rw [steps, World.outcome?, World.task?, tasks_finishLevel, tasks_wake]
      simp [World.modifyTask, Array.getElem?_modify, found, settled]
    | none =>
      simp only [settled] at mem steps
      subst top
      cases request : (t.step host.registry).2 with
      | filter | handle | invoke =>
        simp only [request, requestPanic?] at mem
        simp only [request, World.grant] at steps
        exact enacts_stepSync holds moved steps mem
      | silent | resume | retire | fork | report =>
        simp only [request, requestPanic?] at mem
        cases mem

theorem enacts_stepRoot {task : TaskId} {ctx : S.Ctx} {life : Lifecycle S.Listener}
    (top : l = .root task ctx life none) (mem : e ∈ rootEventsOf host w (l :: below)) :
    Enacts host w thread e.1 (happened e.1) e.2 := by
  have chain := chain_of_levelsAt up holds
  have known := known_of_levelsAt holds
  have steps : w.step host = w.stepRoot host thread below task ctx life := by
    rw [step_of_levelsAt head holds, top]
    rfl
  have sets (levels : List (Level S)) : (w.setLevels thread levels).levelsAt thread.index = levels :=
    (levelsAt_modifyLevels thread known _).trans (if_pos rfl)
  subst top
  have busy : ∀ other, (Level.root (S := S) task ctx life none).shape ≠ .task other := nofun
  rcases step : life.step with ⟨life', _ | ⟨listener, hook⟩ | _ | result⟩ <;>
    simp only [World.stepRoot, rootEventsOf, step] at steps mem
  · cases mem
  · obtain rfl := List.mem_singleton.1 mem
    exact .called holds (by rw [steps, sets])
  · obtain rfl := List.mem_singleton.1 mem
    exact .started holds (by rw [steps, sets])
  · obtain rfl := List.mem_singleton.1 mem
    obtain ⟨levels, fate⟩ := levelsAt_finishLevel known (settling_eq_nil chain busy result)
    exact .returned holds (by rw [steps, levels]) fun bottom => by rw [steps, fate bottom]

/-- What is read off a move as an event of a root task is what the move does. -/
theorem enacts_of_mem
    (known : ∀ r ∈ w.roots thread.index, r.id.index < w.tasks.size)
    (calls : ∀ r ∈ w.roots thread.index, ∀ f, r.flow = some f → ∃ es l hook,
      happened r.id = es ++ [.occasion (.called l hook)] ∧
      Flow.Continues (.going (host.hook l hook r.ctx)) f)
    (mem : e ∈ rootEventsOf host w (l :: below)) :
    Enacts host w thread e.1 (happened e.1) e.2 := by
  have steps : w.step host = w.stepThread host thread (l :: below) := step_of_levelsAt head holds
  cases l with
  | body flow =>
    rcases flow with (_ | m | _ | _) | _
    · cases mem
    · exact enacts_crash holds (.refl w) steps mem
    · cases mem
    · cases mem
    · cases mem
  | task task flow =>
    rcases flow with _ | (_ | m | _ | _) | _
    · exact enacts_stepTask holds up head rfl known mem
    · cases mem
    · exact enacts_crash holds (.refl w) steps mem
    · cases mem
    · cases mem
    · cases mem
  | root task ctx life flow =>
    rcases flow with _ | (result | m | _ | _) | _
    · exact enacts_stepRoot holds up head rfl mem
    · obtain rfl := List.mem_singleton.1 mem
      obtain ⟨es, l, hook, last, code⟩ := calls ⟨task, ctx, life, some (.going (.done result))⟩
        (by rw [roots, holds]; exact List.mem_cons_self ..) _ rfl
      refine .answered holds last code ?_
      have known := known_of_levelsAt holds
      have sets (w' : World S) (same : w'.threads = w.threads) : (w'.setLevels thread
          (.root task ctx (life.hookEnded result) none :: below)).levelsAt thread.index =
          .root task ctx (life.hookEnded result) none :: below :=
        (levelsAt_modifyLevels thread (same ▸ known) _).trans (if_pos rfl)
      rw [steps]
      simp only [stepThread, stepCode, rootHookEnded]
      cases result with
      | ok => exact sets w rfl
      | error e =>
        dsimp only
        split
        · exact sets _ rfl
        · exact sets w rfl
    · exact enacts_crash holds (.refl w) steps mem
    · cases mem
    · cases mem
    · cases mem

end Enacts

end World

end EffectEngine
