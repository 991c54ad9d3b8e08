import EffectEngine.Machine
import EffectEngine.Proofs.Task.Run

/-!
# The tasks of a world

`TasksReached`: every task of a world came to be what it is through impulses, as in a `Run`, or was
ended by a panic. Every operation of the machine keeps this, so that what holds after all impulses
(`Run.turn_induction`) holds of all tasks in all worlds. Only `modifyTask` and `addTask` touch the
tasks of a world; the rest moves threads, promises and the journal.
-/

namespace EffectEngine

namespace Task

variable {G F M : Type} {t : Task G F M}

/-- A task that is over or has been cancelled before takes no notice of a request to cancel. -/
theorem requestCancel_of_refused (refused : (t.isSettled || t.canceled) = true) :
    t.requestCancel = (false, t) := if_pos refused

theorem canceled_requestCancel (heeded : ¬ (t.isSettled || t.canceled) = true) :
    t.requestCancel.2.canceled = true := by
  rw [requestCancel, if_neg heeded]

theorem requestCancel_again (t : Task G F M) :
    t.requestCancel.2.requestCancel.2 = t.requestCancel.2 := by
  by_cases refused : (t.isSettled || t.canceled) = true
  · rw [requestCancel_of_refused refused, requestCancel_of_refused refused]
  · have asked := canceled_requestCancel refused
    rw [requestCancel_of_refused (t := t.requestCancel.2) (by rw [asked, Bool.or_true])]

variable [Named G]

/-- The tasks that impulses and panics can make of new ones. -/
inductive Reached (registry : Registry M) : Task G F M → Prop
  | fresh (id : TaskId) (root : Yielded G F) : Reached registry (.fresh id root)
  | take {t : Task G F M} (h : Reached registry t) (i : Impulse G F) :
      Reached registry (t.take registry i)
  | panicked {t : Task G F M} (h : Reached registry t) (message : String) :
      Reached registry (t.panicked message)

variable {registry : Registry M}

theorem take_settled {outcome : Outcome} (h : t.stage = .settled outcome) (i : Impulse G F) :
    (t.take registry i).stage = .settled outcome := by
  have settled : t.isSettled = true := by simp [isSettled, outcome?, h]
  cases i with
  | cancel => simp only [take, requestCancel, settled, Bool.true_or, if_true, h]
  | _ => simp only [take, step, resumed, filtered, handled, invoked, forked, h]

/-- A task that no panic has ended is the task of a run. -/
theorem Reached.run (h : Reached registry t) :
    (∃ id root impulses, t = ((Run.start id root).after registry impulses).task) ∨
    ∃ message, t.stage = .settled (.error (.panicked message)) := by
  induction h with
  | fresh id root => exact .inl ⟨id, root, [], rfl⟩
  | take h i ih =>
    rcases ih with ⟨id, root, is, rfl⟩ | ⟨message, stage⟩
    · refine .inl ⟨id, root, is ++ [i], ?_⟩
      rw [Run.after_append]
      rfl
    · exact .inr ⟨message, take_settled stage i⟩
  | panicked h message => exact .inr ⟨message, rfl⟩

end Task

namespace World

variable {S : Sig} {α : Type} {w : World S} {host : Host S}

def TasksReached (host : Host S) (w : World S) : Prop :=
  ∀ (i : Nat) (t : S.Task) (ctx : S.Ctx), w.tasks[i]? = some (t, ctx) →
    t.Reached host.registry

theorem taskResumed_eq (registry : Registry S.Mw) (t : S.Task) (signal : S.Signal)
    (generator : S.Gen) :
    taskResumed t signal generator = t.take registry (.resumed signal generator) := by
  simp only [taskResumed, Task.take]
  split <;> rename_i stage
  · simp [stage]
  · split
    · exact absurd ‹_› (stage _ _ _ _)
    · rfl

/-! ### What leaves all tasks alone -/

theorem tasks_wake (w : World S) (event : Pending) (outcome : Outcome) :
    (w.wake event outcome).tasks = w.tasks := by
  have deliver (ids : List ThreadId) (w : World S) :
      (ids.foldl (fun w id => w.deliver id outcome) w).tasks = w.tasks := by
    induction ids generalizing w with
    | nil => rfl
    | cons id ids ih => exact ih _
  exact deliver _ _

theorem tasks_fulfil (w : World S) (id : PromiseId) (outcome : Outcome) :
    (w.fulfil id outcome).tasks = w.tasks := by
  unfold fulfil
  split
  · exact tasks_wake _ _ _
  · rfl

theorem tasks_endThread (w : World S) (id : ThreadId) (fate : Fate) :
    (w.endThread id fate).tasks = w.tasks := tasks_wake _ _ _

theorem tasks_finishLevel (w : World S) (id : ThreadId) (below : List (Level S))
    (outcome : Outcome) : (w.finishLevel id below outcome).tasks = w.tasks := by
  unfold finishLevel
  split
  · exact tasks_endThread _ _ _
  · rfl
  · rfl

/-! ### Requests to cancel -/

def canceled? (w : World S) (id : TaskId) : Option Bool := (w.task? id).map (·.canceled)

/-- To cancel a task changes that task only. -/
theorem requestCancel_spec (w : World S) (task : TaskId) :
    ∃ tasks : Array (S.Task × S.Ctx), tasks.size = w.tasks.size ∧
      (w.requestCancel task).2 = { w with tasks } ∧
      tasks[task.index]? =
        (w.tasks[task.index]?.map fun (t, ctx) => (t.requestCancel.2, ctx)) ∧
      ∀ i, i ≠ task.index → tasks[i]? = w.tasks[i]? := by
  unfold World.requestCancel
  cases found : w.task? task with
  | some t =>
    refine ⟨_, Array.size_modify, rfl, ?_, fun i other => ?_⟩
    · rw [Array.getElem?_modify, if_pos rfl]
    · rw [Array.getElem?_modify, if_neg other.symm]
  | none =>
    refine ⟨w.tasks, rfl, rfl, ?_, fun _ _ => rfl⟩
    have missing : w.tasks[task.index]? = none := Option.map_eq_none_iff.1 found
    rw [missing]
    rfl

/-- To be changed once at most, if to be changed again makes no difference. -/
theorem changed_trans {β : Type} {change : β → β} (again : ∀ b, change (change b) = change b)
    {e e' e'' : Option β} (h : e' = e ∨ e' = e.map change) (h' : e'' = e' ∨ e'' = e'.map change) :
    e'' = e ∨ e'' = e.map change := by
  rcases h with rfl | rfl
  · exact h'
  · rcases h' with rfl | rfl
    · exact .inr rfl
    · refine .inr ?_
      rw [Option.map_map]
      exact congrArg (Option.map · e) (funext again)

/-- An entry of the table of tasks is as it was, or its task has been asked to cancel. -/
def Heeded (e e' : Option (S.Task × S.Ctx)) : Prop :=
  e' = e ∨ e' = e.map fun (t, ctx) => (t.requestCancel.2, ctx)

section Heeded

variable {e e' e'' : Option (S.Task × S.Ctx)}

theorem Heeded.trans (h : Heeded e e') (h' : Heeded e' e'') : Heeded e e'' :=
  changed_trans (fun (t, ctx) => congrArg (·, ctx) t.requestCancel_again) h h'

/-- A task that is not cancelled has taken no notice of any request. -/
theorem Heeded.eq_of_uncanceled (h : Heeded e e') (calm : e'.map (·.1.canceled) = some false) :
    e' = e := by
  rcases h with rfl | rfl
  · rfl
  · rcases e with _ | ⟨t, ctx⟩
    · rfl
    · by_cases refused : (t.isSettled || t.canceled) = true
      · exact congrArg (fun asked => some (asked.2, ctx)) (Task.requestCancel_of_refused refused)
      · have flagged := Task.canceled_requestCancel refused
        exact absurd ((Option.some.inj calm).symm.trans flagged) nofun

theorem heeded_requestCancel (w : World S) (task : TaskId) (i : Nat) :
    Heeded w.tasks[i]? (w.requestCancel task).2.tasks[i]? := by
  obtain ⟨tasks, -, eq, changed, others⟩ := requestCancel_spec w task
  rw [eq]
  by_cases same : i = task.index
  · exact .inr (same ▸ changed)
  · exact .inl (others i same)

theorem heeded_answer (w : World S) (q : Query S.State S.Note) (i : Nat) :
    Heeded w.tasks[i]? (w.answer q).2.tasks[i]? := by
  cases q with
  | requestCancel task => exact heeded_requestCancel w task i
  | fulfil id outcome => exact .inl (congrArg (·[i]?) (tasks_fulfil w id outcome))
  | _ => exact .inl rfl

theorem heeded_runSync (w : World S) (code : S.Sync α) (i : Nat) :
    Heeded w.tasks[i]? (w.runSync code).2.tasks[i]? := by
  induction code generalizing w with
  | done | panic => exact .inl rfl
  | ask q k ih => exact (heeded_answer w q i).trans (ih _ _)
  | perform e => exact nomatch e

end Heeded

namespace TasksReached

theorem congr {w' : World S} (h : TasksReached host w) (ht : w'.tasks = w.tasks) :
    TasksReached host w' := by
  unfold TasksReached
  rw [ht]
  exact h

/-! ### The primitives -/

theorem modifyTask (h : TasksReached host w) (id : TaskId) {change : S.Task → S.Task}
    (hc : ∀ t, t.Reached host.registry → (change t).Reached host.registry) :
    TasksReached host (w.modifyTask id change) := by
  intro i t ctx ht
  simp only [World.modifyTask, Array.getElem?_modify] at ht
  split at ht
  · obtain ⟨⟨old, ctx'⟩, ho, he⟩ := Option.map_eq_some_iff.1 ht
    obtain ⟨rfl, rfl⟩ := Prod.mk.inj he
    exact hc old (h i old ctx' ho)
  · exact h i t ctx ht

theorem task (h : TasksReached host w) {id : TaskId} {t : S.Task} (ht : w.task? id = some t) :
    t.Reached host.registry := by
  obtain ⟨⟨t', ctx⟩, he, rfl⟩ := Option.map_eq_some_iff.1 ht
  exact h id.index t' ctx he

theorem addTask (h : TasksReached host w) (ctx : S.Ctx) (root : S.Yielded) :
    TasksReached host (w.addTask ctx root).2 := by
  intro i t ctx' ht
  simp only [World.addTask, Array.getElem?_push] at ht
  split at ht
  · obtain ⟨rfl, rfl⟩ := Prod.mk.inj (Option.some.inj ht)
    exact .fresh _ _
  · exact h i t ctx' ht

theorem spawn (h : TasksReached host w) (ctx : S.Ctx) (root : S.Yielded) :
    TasksReached host (w.spawn ctx root).2 := (h.addTask ctx root).congr rfl

theorem requestCancel (h : TasksReached host w) (id : TaskId) :
    TasksReached host (w.requestCancel id).2 := by
  unfold World.requestCancel
  split
  · exact h.modifyTask id fun t ht => ht.take .cancel
  · exact h

theorem answer (h : TasksReached host w) (q : Query S.State S.Note) :
    TasksReached host (w.answer q).2 := by
  cases q with
  | requestCancel id => exact h.requestCancel id
  | fulfil id outcome => exact h.congr (tasks_fulfil w id outcome)
  | _ => exact h.congr rfl

theorem runSync (h : TasksReached host w) (code : S.Sync α) :
    TasksReached host (w.runSync code).2 := by
  induction code generalizing w with
  | done | panic => exact h
  | ask q k ih => exact ih _ (h.answer q)
  | perform e => exact nomatch e

theorem release (h : TasksReached host w) (generators : List S.Gen) :
    TasksReached host (w.release host generators) := by
  induction generators generalizing w with
  | nil => exact h
  | cons g gs ih => exact ih (h.runSync (host.release g))

/-! ### The moves of a thread -/

theorem crash (h : TasksReached host w) (id : ThreadId) (levels : List (Level S))
    (message : String) : TasksReached host (w.crash host id levels message) := by
  have released := h.release (w.unwound levels)
  refine congr ?_ (tasks_endThread _ _ _)
  split
  · exact (released.modifyTask _ fun t ht => ht.panicked message).congr (tasks_wake _ _ _)
  · split
    · exact released
    · exact released.congr rfl

theorem perform (h : TasksReached host w) (id : ThreadId) (below : List (Level S))
    (level : Flow S α → Level S) (e : Effect S.Ctx S.Gen S.Fn S.Seed) (k : Outcome → S.Code α) :
    TasksReached host (w.perform host id below level e k) := by
  cases e with
  | wait wait =>
    simp only [World.perform]
    split <;> exact h.congr rfl
  | spawn ctx root => exact (h.spawn ctx root).congr rfl
  | run ctx root => exact (h.addTask ctx root).congr rfl
  | go seed => exact h.congr rfl

theorem stepCode (h : TasksReached host w) (id : ThreadId) (below : List (Level S))
    (level : Flow S α → Level S) {finish : World S → α → World S}
    (hf : ∀ w a, TasksReached host w → TasksReached host (finish w a)) (code : S.Code α) :
    TasksReached host (w.stepCode host id below level finish code) := by
  cases code with
  | done a => exact hf w a h
  | panic message => exact h.crash _ _ message
  | ask q k => exact (h.answer q).congr rfl
  | perform e k => exact h.perform id below level e k

theorem stepSync (h : TasksReached host w) (id : ThreadId) (levels : List (Level S))
    {finish : World S → α → World S}
    (hf : ∀ w a, TasksReached host w → TasksReached host (finish w a)) (code : S.Sync α) :
    TasksReached host (w.stepSync host id levels finish code) := by
  have ran := h.runSync code
  unfold World.stepSync
  split
  · rename_i a w' hr
    rw [hr] at ran
    exact hf w' a ran
  · rename_i message w' hr
    rw [hr] at ran
    exact ran.crash id levels message

theorem grant (h : TasksReached host w) (id : ThreadId) (levels below : List (Level S))
    (task : TaskId) (ctx : S.Ctx) (request : Request S.Gen S.Fn S.Mw) :
    TasksReached host (w.grant host id levels below task ctx request) := by
  cases request with
  | silent => exact h
  | resume | retire | report => exact h.congr rfl
  | filter middleware op =>
    refine h.stepSync id levels (fun w accepts h => ?_) _
    exact h.modifyTask task fun t ht => ht.take (.filtered accepts)
  | handle middleware op =>
    refine h.stepSync id levels (fun w result h => ?_) _
    exact h.modifyTask task fun t ht => ht.take (.handled result)
  | invoke func args =>
    refine h.stepSync id levels (fun w result h => ?_) _
    exact h.modifyTask task fun t ht => ht.take (.invoked result)
  | fork root =>
    exact (h.spawn ctx (.operation root)).modifyTask task fun t ht => ht.take (.forked _)

theorem stepTask (h : TasksReached host w) (id : ThreadId) (below : List (Level S))
    (task : TaskId) : TasksReached host (w.stepTask host id below task) := by
  unfold World.stepTask
  split
  · rename_i t ctx ht hctx
    have moved : TasksReached host (w.modifyTask task fun _ => (t.step host.registry).1) :=
      h.modifyTask task fun _ _ => (h.task ht).take .move
    dsimp only
    split
    · exact moved.congr ((tasks_finishLevel _ _ _ _).trans (tasks_wake _ _ _))
    · exact moved.grant id _ below task ctx _
  · exact h.congr (tasks_finishLevel _ _ _ _)

theorem stepRoot (h : TasksReached host w) (id : ThreadId) (below : List (Level S))
    (task : TaskId) (ctx : S.Ctx) (life : Lifecycle S.Listener) :
    TasksReached host (w.stepRoot host id below task ctx life) := by
  unfold World.stepRoot
  split
  · exact h.congr rfl
  · exact h.congr rfl
  · exact h.congr rfl
  · exact h.congr (tasks_finishLevel _ _ _ _)

theorem rootHookEnded (h : TasksReached host w) (id : ThreadId) (below : List (Level S))
    (task : TaskId) (ctx : S.Ctx) (life : Lifecycle S.Listener) (result : Except Error Unit) :
    TasksReached host (w.rootHookEnded id below task ctx life result) := by
  cases result with
  | ok => exact h.congr rfl
  | error e =>
    simp only [World.rootHookEnded]
    split <;> exact h.congr rfl

theorem stepThread (h : TasksReached host w) (id : ThreadId) (levels : List (Level S)) :
    TasksReached host (w.stepThread host id levels) := by
  unfold World.stepThread
  split
  · exact h.congr (tasks_endThread _ _ _)
  · exact h.stepCode id _ _ (fun w outcome h => h.congr (tasks_finishLevel _ _ _ _)) _
  · exact h.stepTask id _ _
  · rename_i task c below
    refine h.stepCode id below _ (fun w resumed h => ?_) c
    obtain ⟨signal, generator⟩ := resumed
    have moved : TasksReached host (w.modifyTask task fun t => taskResumed t signal generator) := by
      refine h.modifyTask task fun t ht => ?_
      rw [taskResumed_eq host.registry]
      exact ht.take _
    exact moved.congr rfl
  · exact h.stepRoot id _ _ _ _
  · exact h.stepCode id _ _ (fun w result h => h.rootHookEnded id _ _ _ _ result) _
  · exact h
  · exact h
  · exact h

/-! ### The machine -/

theorem step (h : TasksReached host w) : TasksReached host (w.step host) := by
  unfold World.step
  split
  · split
    · exact h.stepThread _ _
    · exact h.congr rfl
  · split
    · exact h.congr (tasks_wake _ _ _)
    · exact h

theorem run (h : TasksReached host w) (goesOn : World S → Bool) (fuel : Nat) :
    TasksReached host (w.run host goesOn fuel) := by
  induction fuel generalizing w with
  | zero => exact h
  | succ fuel ih =>
    unfold World.run
    split
    · exact ih h.step
    · exact h

theorem abandon (h : TasksReached host w) (id : ThreadId) :
    TasksReached host (w.abandon host id) := by
  unfold World.abandon
  split
  · exact h
  · refine release ?_ _
    exact h.congr rfl

theorem lastTurn (h : TasksReached host w) (fuel : Nat) :
    TasksReached host (w.lastTurn host fuel) := by
  have woken : TasksReached host
      ({ w with clock := timeLimit }.wake (.deadline timeLimit) (.ok .null)) :=
    h.congr (tasks_wake _ _ _)
  refine run ?_ _ fuel
  exact woken.congr rfl

theorem comeToRest (h : TasksReached host w) (fuel : Nat) :
    TasksReached host (w.comeToRest host fuel) := by
  refine run ?_ _ fuel
  exact h.congr rfl

end TasksReached

theorem tasksReached_start (tag : UInt64) (state : S.State) (recording : Bool) :
    TasksReached host (start tag state recording) := by
  intro i t ctx ht
  simp [start] at ht

/-- All tasks of a program, whatever its main thread does, are tasks that impulses and panics can
make of new ones. -/
theorem tasksReached_runMain (host : Host S) (fuel : Nat) (tag : UInt64) (state : S.State)
    (recording : Bool) (body : S.Code Outcome) :
    TasksReached host ((start tag state recording).runMain host fuel body).2 := by
  have begun : TasksReached host ((start tag state recording).addMain body) :=
    (tasksReached_start tag state recording).congr rfl
  have main := begun.run (fun w => (w.fate? mainThread).isNone && w.movesBefore timeLimit) fuel
  refine TasksReached.comeToRest ?_ fuel
  split
  · split
    · exact (main.lastTurn fuel).abandon mainThread
    · exact main.lastTurn fuel
  · exact main

end World

end EffectEngine
