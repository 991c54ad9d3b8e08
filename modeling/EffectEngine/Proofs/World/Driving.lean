import EffectEngine.Proofs.World.Moves

/-!
# A thread that drives a task

`World.driving` is a world in which the running thread drives a task, with the flow at its innermost
level, the task and the state given. Each move of such a thread that touches nothing else is an
equation between two such worlds, so that what a task does until its thread has to wait is computed
by rewriting.
-/

namespace EffectEngine.World

variable {S : Sig} {w : World S} {host : Host S} {id : ThreadId} {task : TaskId} {ctx : S.Ctx}
  {below : List (Level S)} {flow : Option (Flow S (S.Signal × S.Gen))} {t t' : S.Task}
  {s : S.State}

/-- The running thread and a task of the world. -/
structure Drives (w : World S) (id : ThreadId) (task : TaskId) (ctx : S.Ctx) : Prop where
  head : w.ready.head? = some id
  thread : id.index < w.threads.size
  task : ∃ t, w.tasks[task.index]? = some (t, ctx)

theorem Drives.of_levels {levels : List (Level S)} (head : w.ready.head? = some id)
    (holds : w.levels? id = some levels) (known : w.tasks[task.index]? = some (t, ctx)) :
    w.Drives id task ctx := by
  obtain ⟨th, found, -⟩ := Option.map_eq_some_iff.1 holds
  exact ⟨head, (Array.getElem?_eq_some_iff.1 found).1, t, known⟩

def driving (w : World S) (id : ThreadId) (below : List (Level S)) (task : TaskId)
    (flow : Option (Flow S (S.Signal × S.Gen))) (t : S.Task) (s : S.State) : World S :=
  { (w.setLevels id (.task task flow :: below)).modifyTask task fun _ => t with state := s }

theorem levels?_driving (h : w.Drives id task ctx) :
    (w.driving id below task flow t s).levels? id = some (.task task flow :: below) := by
  obtain ⟨th, known⟩ : ∃ th, w.threads[id.index]? = some th :=
    ⟨_, Array.getElem?_eq_getElem h.thread⟩
  simp [driving, levels?, setLevels, modifyLevels, modifyTask, Array.getElem?_modify, known]

theorem task_driving (h : w.Drives id task ctx) :
    (w.driving id below task flow t s).tasks[task.index]? = some (t, ctx) := by
  obtain ⟨old, known⟩ := h.task
  simp [driving, setLevels, modifyLevels, modifyTask, Array.getElem?_modify, known]

theorem Drives.driving (h : w.Drives id task ctx) :
    (w.driving id below task flow t s).Drives id task ctx :=
  ⟨h.head, by simpa [World.driving, setLevels, modifyLevels, modifyTask] using h.thread,
    t, task_driving h⟩

theorem modify_modify {α : Type} (a : Array α) (i : Nat) (f g : α → α) :
    (a.modify i f).modify i g = a.modify i (g ∘ f) := by
  refine Array.ext_getElem? fun j => ?_
  simp only [Array.getElem?_modify]
  split <;> simp [Function.comp_def]

theorem push_modify {α : Type} {a : Array α} {i : Nat} (f : α → α) (x : α) (known : i < a.size) :
    (a.modify i f).push x = (a.push x).modify i f := by
  refine Array.ext_getElem? fun j => ?_
  simp only [Array.getElem?_modify, Array.getElem?_push, Array.size_modify]
  split <;> split <;> simp_all

theorem modify_comm {α : Type} {a : Array α} {i j : Nat} (f g : α → α) (other : i ≠ j) :
    (a.modify i f).modify j g = (a.modify j g).modify i f := by
  refine Array.ext_getElem? fun k => ?_
  simp only [Array.getElem?_modify]
  split <;> split <;> simp_all

theorem levels?_driving_other {other : ThreadId} (different : other.index ≠ id.index) :
    (w.driving id below task flow t s).levels? other = w.levels? other := by
  simp only [driving, levels?, setLevels, modifyLevels, modifyTask, Array.getElem?_modify,
    if_neg different.symm]

theorem task_driving_other {i : Nat} (different : i ≠ task.index) :
    (w.driving id below task flow t s).tasks[i]? = w.tasks[i]? := by
  simp only [driving, setLevels, modifyLevels, modifyTask, Array.getElem?_modify,
    if_neg different.symm]

/-- A world in which a thread does drive a task. -/
theorem driving_self (holds : w.levels? id = some (.task task flow :: below))
    (known : w.tasks[task.index]? = some (t, ctx)) :
    w.driving id below task flow t w.state = w := by
  obtain ⟨th, found, levels⟩ := Option.map_eq_some_iff.1 holds
  have threads : w.threads.modify id.index (fun th => ⟨.task task flow :: below, th.fate⟩) =
      w.threads := by
    refine Array.ext_getElem? fun i => ?_
    rw [Array.getElem?_modify]
    split
    · rename_i same
      rw [← same, found, ← levels]
      rfl
    · rfl
  have driven : w.setLevels id (.task task flow :: below) = w :=
    congrArg (fun threads => { w with threads }) threads
  rw [driving, driven, modifyTask_self known]

/-! ### Moves of the task -/

theorem asking?_driving (host : Host S) (h : w.Drives id task ctx) :
    (w.driving id below task none t s).asking? host =
      some (task, ctx, (t.step host.registry).2) :=
  asking?_eq host h.head (levels?_driving h) (task_driving h)

theorem asking?_code (host : Host S) (h : w.Drives id task ctx) {f : Flow S (S.Signal × S.Gen)} :
    (w.driving id below task (some f) t s).asking? host = none := by
  have head : (w.driving id below task (some f) t s).ready.head? = some id := h.head
  simp only [asking?, head, Option.bind_some, levels?_driving h]

theorem step_driving (h : w.Drives id task ctx) :
    (w.driving id below task flow t s).step host =
      (w.driving id below task flow t s).stepThread host id (.task task flow :: below) := by
  have holds : (w.driving id below task flow t s).levels? id = some (.task task flow :: below) :=
    levels?_driving h
  have head : (w.driving id below task flow t s).ready.head? = some id := h.head
  obtain ⟨th, known, levels⟩ := Option.map_eq_some_iff.1 holds
  obtain ⟨rest, ready⟩ := List.head?_eq_some_iff.1 head
  simp only [World.step, ready, known, levels]

theorem modifyTask_driving {change : S.Task → S.Task} :
    (w.driving id below task flow t s).modifyTask task change =
      w.driving id below task flow (change t) s := by
  simp only [driving, modifyTask, modify_modify]
  rfl

section Requests

variable {request : Request S.Gen S.Fn S.Mw} (h : w.Drives id task ctx)
  (steps : t.step host.registry = (t', request))
include h steps

theorem step_settled {outcome : Outcome} (settled : t'.outcome? = some outcome) :
    (w.driving id below task none t s).step host =
      ((w.driving id below task none t' s).wake (.task task) outcome).finishLevel id below
        outcome := by
  rw [step_driving h]
  simp only [stepThread, stepTask, task?, ctx?, task_driving h, Option.map_some, steps,
    modifyTask_driving,
    settled]

theorem step_grant (unsettled : t'.outcome? = none) :
    (w.driving id below task none t s).step host =
      (w.driving id below task none t' s).grant host id (.task task none :: below) below task ctx
        request := by
  rw [step_driving h]
  simp only [stepThread, stepTask, task?, ctx?, task_driving h, Option.map_some, steps,
    modifyTask_driving,
    unsettled]

end Requests

section Answers

variable (h : w.Drives id task ctx)
include h

theorem step_silent (steps : t.step host.registry = (t', .silent))
    (unsettled : t'.outcome? = none) :
    (w.driving id below task none t s).step host = w.driving id below task none t' s :=
  step_grant h steps unsettled

theorem step_resume {g : S.Gen} {input : Resume}
    (steps : t.step host.registry = (t', .resume g input)) (unsettled : t'.outcome? = none) :
    (w.driving id below task none t s).step host =
      w.driving id below task (some (.going (host.resume g input))) t' s := by
  rw [step_grant h steps unsettled]
  simp only [grant, driving, setLevels, modifyLevels, modifyTask, modify_modify]
  rfl

theorem step_filter {m : S.Mw} {op : S.Operation} {accepts : Bool}
    (steps : t.step host.registry = (t', .filter m op)) (unsettled : t'.outcome? = none)
    (filters : host.filter m op ctx = .done accepts) :
    (w.driving id below task none t s).step host =
      w.driving id below task none (t'.filtered accepts) s := by
  rw [step_grant h steps unsettled]
  simp only [grant, filters, stepSync, runSync]
  exact modifyTask_driving

theorem step_handle_ok {m : S.Mw} {op : S.Operation} {w' : World S} {result : Except Error S.Gen}
    (steps : t.step host.registry = (t', .handle m op)) (unsettled : t'.outcome? = none)
    (handles : (w.driving id below task none t' s).runSync (host.handle m op ctx) =
      (.ok result, w')) :
    (w.driving id below task none t s).step host = w'.modifyTask task (·.handled result) := by
  rw [step_grant h steps unsettled]
  simp only [grant, stepSync, handles]

/-- A new task and its thread come after those that there are. -/
theorem spawn_driving {root : S.Yielded} :
    (w.driving id below task flow t s).spawn ctx root =
      ((w.spawn ctx root).1, (w.spawn ctx root).2.driving id below task flow t s) := by
  obtain ⟨old, known⟩ := h.task
  have tasks := push_modify (fun e => (t, e.2)) (Task.fresh ⟨w.tag, w.tasks.size⟩ root, ctx)
    (Array.getElem?_eq_some_iff.1 known).1
  have threads := push_modify (fun th => ⟨.task task flow :: below, th.fate⟩)
    (⟨[.task ⟨w.tag, w.tasks.size⟩ none], none⟩ : Thread S) h.thread
  simp only [spawn, addTask, addThread, driving, setLevels, modifyLevels, modifyTask,
    Array.size_modify]
  rw [tasks, threads]

theorem step_fork {root : S.Operation}
    (steps : t.step host.registry = (t', .fork root)) (unsettled : t'.outcome? = none) :
    (w.driving id below task none t s).step host =
      (w.spawn ctx (.operation root)).2.driving id below task none
        (t'.forked (w.spawn ctx (.operation root)).1) s := by
  rw [step_grant h steps unsettled]
  simp only [grant, spawn_driving h, modifyTask_driving]

/-! ### Moves of its code -/

variable {c : S.Code (S.Signal × S.Gen)}

theorem step_get {k : S.State → S.Code (S.Signal × S.Gen)} :
    (w.driving id below task (some (.going (.ask .get k))) t s).step host =
      w.driving id below task (some (.going (k s))) t s := by
  rw [step_driving h]
  simp only [stepThread, stepCode, answer, driving, setLevels, modifyLevels, modifyTask,
    modify_modify]
  rfl

theorem step_put {s' : S.State} {k : Unit → S.Code (S.Signal × S.Gen)} :
    (w.driving id below task (some (.going (.ask (.put s') k))) t s).step host =
      w.driving id below task (some (.going (k ()))) t s' := by
  rw [step_driving h]
  simp only [stepThread, stepCode, answer, driving, setLevels, modifyLevels, modifyTask,
    modify_modify]
  rfl

theorem step_done {signal : S.Signal} {g : S.Gen} :
    (w.driving id below task (some (.going (.done (signal, g)))) t s).step host =
      w.driving id below task none (taskResumed t signal g) s := by
  rw [step_driving h]
  simp only [stepThread, stepCode, modifyTask_driving]
  simp only [driving, setLevels, modifyLevels, modifyTask, modify_modify]
  rfl

/-- A sleep of no length is over at once. -/
theorem step_sleep_zero {k : Outcome → S.Code (S.Signal × S.Gen)} :
    (w.driving id below task (some (.going (.perform (.wait (.sleep 0)) k))) t s).step host =
      w.driving id below task (some (.going (k (.ok .null)))) t s := by
  rw [step_driving h]
  simp only [stepThread, stepCode, perform, poll, driving, setLevels, modifyLevels, modifyTask,
    modify_modify]
  rfl

theorem step_sleep {ms : Nat} (long : ms ≠ 0) {k : Outcome → S.Code (S.Signal × S.Gen)} :
    (w.driving id below task (some (.going (.perform (.wait (.sleep ms)) k))) t s).step host =
      (w.driving id below task (some (.waiting k)) t s).block id (.deadline (w.clock + ms)) := by
  have long : (ms == 0) = false := by simpa using long
  rw [step_driving h]
  simp only [stepThread, stepCode, perform, poll, long, driving, setLevels, modifyLevels,
    modifyTask, modify_modify]
  rfl

omit h in
theorem requestCancel_driving {timer : TaskId} (other : timer.index ≠ task.index) :
    (w.driving id below task flow t s).requestCancel timer =
      ((w.requestCancel timer).1, (w.requestCancel timer).2.driving id below task flow t s) := by
  have same : (w.driving id below task flow t s).task? timer = w.task? timer := by
    simp only [driving, setLevels, modifyLevels, modifyTask, task?, Array.getElem?_modify,
      if_neg other.symm]
  unfold requestCancel
  rw [same]
  cases w.task? timer with
  | none => rfl
  | some old =>
    simp only [driving, setLevels, modifyLevels, modifyTask, modify_comm _ _ other.symm]

theorem step_requestCancel {timer : TaskId} (other : timer.index ≠ task.index)
    {k : Bool → S.Code (S.Signal × S.Gen)} :
    (w.driving id below task (some (.going (.ask (.requestCancel timer) k))) t s).step host =
      (w.requestCancel timer).2.driving id below task
        (some (.going (k (w.requestCancel timer).1))) t s := by
  rw [step_driving h]
  simp only [stepThread, stepCode, answer, requestCancel_driving other]
  simp only [driving, setLevels, modifyLevels, modifyTask, modify_modify]
  rfl

end Answers

end EffectEngine.World
