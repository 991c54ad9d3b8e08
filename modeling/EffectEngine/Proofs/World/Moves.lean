import EffectEngine.Proofs.World.Conduct

/-!
# The moves of discreet threads

`World.Tidy`: all threads outside of the reserve hold discreet code, and all tasks are orderly. A
thread outside of the reserve keeps a tidy world tidy and the reserve as it is with each of its
moves (`Tidy.step`); what a middleware does with an operation has to be said in addition.
-/

namespace EffectEngine

namespace Task

variable {G F M : Type} [Named G] {t : Task G F M} {registry : Registry M} {m : M}
  {op : Operation G F}

/-- What is about to have an operation handled. -/
theorem stage_of_handle (asks : (t.step registry).2 = .handle m op) :
    ∃ slot purpose, t.stage = .handling op slot purpose ∧ slot.handler? = some m := by
  match hs : t.stage with
  | .handling op' slot purpose =>
    simp only [step, hs] at asks
    split at asks
    · rename_i m' serves
      obtain ⟨rfl, rfl⟩ := Request.handle.inj asks
      exact ⟨slot, purpose, rfl, serves⟩
    · cases asks
  | .offering op' slot origin purpose =>
    simp only [step, hs] at asks
    split at asks
    · cases asks
    · simp only [core] at asks
      repeat' split at asks
      all_goals cases asks
  | .fresh _ | .ready | .replacing .. =>
    simp only [step, hs] at asks
    split at asks <;> cases asks
  | .dispatching .. | .retiring .. | .reporting .. | .dispatched .. | .unwinding | .resuming
  | .invoking _ | .forking _ | .settled _ =>
    simp only [step, hs] at asks
    cases asks

/-- A task that has something handled stays as it is until that is done. -/
theorem step_handle (asks : (t.step registry).2 = .handle m op) :
    t.step registry = (t, .handle m op) := by
  obtain ⟨slot, purpose, stage, serves⟩ := stage_of_handle asks
  simp only [step, stage, serves]

end Task

namespace World

variable {S : Sig} {p : Conduct S} {r : Reserve} {id : ThreadId} {busy : Option ThreadId}
  {w₀ w : World S} {host : Host S} {α : Type} {levels below : List (Level S)}

structure Tidy (p : Conduct S) (r : Reserve) (w : World S) : Prop where
  settled : Settled p r w
  threads : ∀ i th, w.threads[i]? = some th → ¬ r.threads i →
    (w.ready.head? = some ⟨i⟩ → p.levels r w.tasks.size w.state th.levels) ∧
    (w.ready.head? ≠ some ⟨i⟩ → p.stacked r w.tasks.size th.levels)

/-- A world after a move: tidy, and with the reserve as it was. -/
structure Moved (p : Conduct S) (r : Reserve) (w₀ w : World S) : Prop where
  tidy : Tidy p r w
  spared : Spared p r w₀ w

/-- The thread that is about to move. -/
theorem Tidy.kept (h : Tidy p r w) (head : w.ready.head? = some id) : Kept p r (some id) w w where
  settled := h.settled
  spared := .refl w
  runs other same := by rw [head, same]
  threads i th known free other :=
    (h.threads i th known free).2 fun same => other (head.symm.trans same)

theorem getElem?_setLevels {i : Nat} {th : Thread S}
    (known : (w.setLevels id levels).threads[i]? = some th) :
    (i = id.index ∧ th.levels = levels) ∨ (i ≠ id.index ∧ w.threads[i]? = some th) := by
  by_cases same : id.index = i
  · simp only [setLevels, modifyLevels, Array.getElem?_modify, if_pos same] at known
    obtain ⟨old, -, rfl⟩ := Option.map_eq_some_iff.1 known
    exact .inl ⟨same.symm, rfl⟩
  · simp only [setLevels, modifyLevels, Array.getElem?_modify, if_neg same] at known
    exact .inr ⟨fun other => same other.symm, known⟩

/-! ### The levels of a thread -/

def levels? (w : World S) (id : ThreadId) : Option (List (Level S)) :=
  w.threads[id.index]?.map (·.levels)

/-- What the running thread is about to ask for a task of its: the task, its context and the
request. -/
def asking? (host : Host S) (w : World S) : Option (TaskId × S.Ctx × Request S.Gen S.Fn S.Mw) :=
  match w.ready.head?.bind w.levels? with
  | some (.task task none :: _) =>
    w.tasks[task.index]?.map fun (t, ctx) => (task, ctx, (t.step host.registry).2)
  | _ => none

theorem asking?_eq (host : Host S) {task : TaskId} {t : S.Task} {ctx : S.Ctx}
    (head : w.ready.head? = some id)
    (holds : w.levels? id = some (.task task none :: below))
    (known : w.tasks[task.index]? = some (t, ctx)) :
    w.asking? host = some (task, ctx, (t.step host.registry).2) := by
  simp only [asking?, head, Option.bind_some, holds, known, Option.map_some]

theorem modifyTask_self {task : TaskId} {t : S.Task} {ctx : S.Ctx}
    (known : w.tasks[task.index]? = some (t, ctx)) : w.modifyTask task (fun _ => t) = w := by
  have same : w.tasks.modify task.index (fun e => (t, e.2)) = w.tasks := by
    refine Array.ext_getElem? fun i => ?_
    rw [Array.getElem?_modify]
    split
    · rename_i equal
      rw [← equal, known]
      rfl
    · rfl
  rw [modifyTask]
  exact congrArg (fun tasks => { w with tasks }) same

section Idle

variable {task : TaskId}

/-- What comes for a thread that drives a task and does not wait makes no difference. -/
theorem levels?_deliver (thread : ThreadId) (outcome : Outcome)
    (holds : w.levels? id = some (.task task none :: below)) :
    (w.deliver thread outcome).levels? id = some (.task task none :: below) := by
  by_cases same : thread.index = id.index
  · obtain ⟨th, known, levels⟩ := Option.map_eq_some_iff.1 holds
    simp only [levels?, deliver, modifyLevels, Array.getElem?_modify, if_pos same, known,
      Option.map_some, levels]
    rfl
  · rw [← holds]
    simp only [levels?, deliver, modifyLevels, Array.getElem?_modify, if_neg same]

theorem levels?_wake (event : Pending) (outcome : Outcome)
    (holds : w.levels? id = some (.task task none :: below)) :
    (w.wake event outcome).levels? id = some (.task task none :: below) := by
  have delivered (threads : List ThreadId) {w : World S}
      (holds : w.levels? id = some (.task task none :: below)) :
      (threads.foldl (fun w id => w.deliver id outcome) w).levels? id =
        some (.task task none :: below) := by
    induction threads generalizing w with
    | nil => exact holds
    | cons thread threads ih => exact ih (levels?_deliver thread outcome holds)
  exact delivered _ holds

theorem levels?_runSync (code : S.Sync α)
    (holds : w.levels? id = some (.task task none :: below)) :
    (w.runSync code).2.levels? id = some (.task task none :: below) := by
  induction code generalizing w with
  | done | panic => exact holds
  | ask q k ih =>
    refine ih _ ?_
    cases q with
    | fulfil promise outcome =>
      simp only [World.fulfil]
      split
      · exact levels?_wake _ outcome holds
      · exact holds
    | requestCancel task =>
      simp only [World.requestCancel]
      split <;> exact holds
    | _ => exact holds
  | perform e => exact nomatch e

end Idle

theorem levels?_spawn (ctx : S.Ctx) (root : S.Yielded) (holds : w.levels? id = some levels) :
    (w.spawn ctx root).2.levels? id = some levels := by
  obtain ⟨th, known, rfl⟩ := Option.map_eq_some_iff.1 holds
  have bound : id.index ≠ w.threads.size := Nat.ne_of_lt (Array.getElem?_eq_some_iff.1 known).1
  simp only [levels?, spawn, addTask, addThread, Array.getElem?_push, if_neg bound, known,
    Option.map_some]

theorem size_runSync (code : S.Sync α) : (w.runSync code).2.tasks.size = w.tasks.size := by
  induction code generalizing w with
  | done | panic => rfl
  | ask q k ih =>
    refine (ih _).trans ?_
    cases q with
    | fulfil promise outcome => exact congrArg Array.size (tasks_fulfil w promise outcome)
    | requestCancel task =>
      simp only [World.requestCancel]
      split
      · exact Array.size_modify
      · rfl
    | _ => rfl
  | perform e => exact nomatch e

/-- The task at the bottom of discreet levels is none of the reserve. -/
theorem free_of_bottom {n : Nat} {s : S.State} (fits : p.levels r n s levels) {task : TaskId}
    (bottom : bottomTask? levels = some task) : ¬ r.tasks task.index := by
  unfold bottomTask? at bottom
  split at bottom
  · rename_i task' flow last
    obtain rfl := Option.some.inj bottom
    cases levels with
    | nil => cases last
    | cons l below =>
      rcases List.mem_cons.1 (List.mem_of_getLast? last) with rfl | within
      · exact fits.1.2.1
      · exact (fits.2 _ within s).2.1
  · cases bottom

namespace Kept

/-- The thread goes on. -/
theorem goesOn (h : Kept p r (some id) w₀ w) (free : ¬ r.threads id.index)
    (fits : p.levels r w.tasks.size w.state levels) : Moved p r w₀ (w.setLevels id levels) := by
  have after := h.setLevels free levels
  refine ⟨⟨after.settled, fun i th known free' => ⟨fun head => ?_, fun waits => ?_⟩⟩, after.spared⟩
  · rcases getElem?_setLevels known with ⟨rfl, rfl⟩ | ⟨other, -⟩
    · exact fits
    · have same := (h.runs id rfl).symm.trans head
      exact absurd (congrArg ThreadId.index (Option.some.inj same)).symm other
  · refine after.threads i th known free' fun same => waits ?_
    exact (h.runs id rfl).trans same

/-- No thread is busy any more. -/
theorem idle (h : Kept p r none w₀ w) : Moved p r w₀ w :=
  ⟨⟨h.settled, fun i th known free =>
    have stacked := h.threads i th known free nofun
    ⟨fun _ => Conduct.levels_of_stacked stacked _, fun _ => stacked⟩⟩, h.spared⟩

/-- The thread has to wait. -/
theorem block (h : Kept p r (some id) w₀ w) (free : ¬ r.threads id.index)
    (bound : id.index < w.threads.size) (fits : p.stacked r w.tasks.size levels)
    {event : Pending} (later : ∀ t, event = .deadline t → w.clock ≤ t) :
    Moved p r w₀ ((w.setLevels id levels).block id event) := by
  obtain ⟨settled, spared, -, stacked⟩ := h.setLevels free levels
  have size : (w.setLevels id levels).threads.size = w.threads.size := Array.size_modify
  refine idle ⟨⟨settled.tasks, settled.tasksBound, settled.threadsBound, fun e he => ?_,
    fun e he => ?_, fun e he reserved => ?_⟩, ⟨spared.state, spared.clock, spared.tag, spared.size,
      spared.tasks, spared.threads, fun e he reserved => ?_⟩, nofun, fun i th known free' _ => ?_⟩
  · rcases List.mem_append.1 he with he | he
    · exact settled.waits e he
    · rw [List.mem_singleton.1 he]
      exact size ▸ bound
  · rcases List.mem_append.1 he with he | he
    · exact settled.deadlines e he
    · rw [List.mem_singleton.1 he]
      exact later
  · rcases List.mem_append.1 he with he | he
    · exact settled.sleepers e he reserved
    · rw [List.mem_singleton.1 he] at reserved
      exact absurd reserved free
  · rcases List.mem_append.1 he with he | he
    · exact spared.waits e he reserved
    · rw [List.mem_singleton.1 he] at reserved
      exact absurd reserved free
  · rcases getElem?_setLevels known with ⟨-, rfl⟩ | ⟨other, known'⟩
    · exact fits
    · refine stacked i th known free' fun same => other ?_
      exact (congrArg ThreadId.index (Option.some.inj same)).symm

/-- The thread ends. -/
theorem endThread (h : Kept p r (some id) w₀ w) (free : ¬ r.threads id.index) (fate : Fate) :
    Moved p r w₀ (w.endThread id fate) := by
  obtain ⟨settled, spared, -, stacked⟩ := h
  have size : (w.threads.modify id.index fun _ => ⟨[], some fate⟩).size = w.threads.size :=
    Array.size_modify
  have ended : Kept p r none w₀ { w with
      threads := w.threads.modify id.index fun _ => ⟨[], some fate⟩
      ready := w.ready.tail } := by
    refine ⟨⟨settled.tasks, settled.tasksBound, size ▸ settled.threadsBound, size ▸ settled.waits,
      settled.deadlines, settled.sleepers⟩, ⟨spared.state, spared.clock, spared.tag, spared.size,
      spared.tasks, fun i reserved => ?_, spared.waits⟩, nofun, fun i th known free' _ => ?_⟩
    · have other : id.index ≠ i := by rintro rfl; exact free reserved
      simp only [Array.getElem?_modify, if_neg other]
      exact spared.threads i reserved
    · by_cases same : id.index = i
      · simp only [Array.getElem?_modify, if_pos same] at known
        obtain ⟨old, -, rfl⟩ := Option.map_eq_some_iff.1 known
        exact nofun
      · simp only [Array.getElem?_modify, if_neg same] at known
        refine stacked i th known free' fun equal => same ?_
        exact congrArg ThreadId.index (Option.some.inj equal)
  exact (ended.wake (fun t => Pending.noConfusion) fate.outcome).idle

end Kept

/-- A level that holds what is permitted with any flow that does. -/
def Carries (p : Conduct S) (r : Reserve) (n : Nat) (ends : α → Prop) (level : Flow S α → Level S) :
    Prop := ∀ n' s f, n ≤ n' → p.flow ends s f → p.level r n' s (level f)

namespace Kept

theorem finishLevel (h : Kept p r (some id) w₀ w) (free : ¬ r.threads id.index)
    (fits : p.stacked r w.tasks.size below) (outcome : Outcome) :
    Moved p r w₀ (w.finishLevel id below outcome) := by
  unfold World.finishLevel
  split
  · exact h.endThread free _
  · rename_i task ctx life rest
    obtain ⟨root, rest⟩ := List.forall_mem_cons.1 fits
    exact h.goesOn free ⟨root w.state, rest⟩
  · rename_i level rest _
    obtain ⟨first, rest⟩ := List.forall_mem_cons.1 fits
    exact h.goesOn free ⟨Conduct.level_deliver (first w.state) outcome, rest⟩

theorem perform (h : Kept p r (some id) w₀ w) (obeyed : p.Obeyed host)
    (free : ¬ r.threads id.index) (bound : id.index < w.threads.size) {ends : α → Prop}
    {level : Flow S α → Level S} (carries : Carries p r w.tasks.size ends level)
    (fits : p.stacked r w.tasks.size below) {e : Effect S.Ctx S.Gen S.Fn S.Seed}
    {k : Outcome → S.Code α} (discreet : p.code ends (.perform e k) w.state) :
    Moved p r w₀ (w.perform host id below level e k) := by
  obtain ⟨permitted, discreet⟩ := discreet
  have goes {w : World S} (outcome : Outcome) : p.flow ends w.state (.going (k outcome)) :=
    discreet outcome w.state
  have waits (s : S.State) : p.flow ends s (.waiting k) := discreet
  cases e with
  | wait wait =>
    simp only [World.perform]
    split
    · rename_i outcome _
      exact h.goesOn free ⟨carries _ _ _ (Nat.le_refl _) (goes outcome), fits⟩
    · rename_i event polled
      refine h.block free bound (List.forall_mem_cons.2 ⟨fun s => ?_, fits⟩) fun t timed => ?_
      · exact carries _ _ _ (Nat.le_refl _) (waits s)
      · subst timed
        cases wait with
        | sleep ms =>
          simp only [poll] at polled
          split at polled
          · cases polled
          · cases polled
            exact Nat.le_add_right ..
        | task | promise | thread =>
          simp only [poll] at polled
          split at polled <;> cases polled
  | spawn ctx root =>
    have grown : w.tasks.size ≤ (w.spawn ctx root).2.tasks.size := by
      simp [World.spawn, World.addTask, World.addThread]
    refine (h.spawn permitted.1 permitted.2).goesOn free ⟨?_, Conduct.stacked_mono fits grown⟩
    exact carries _ _ _ grown (goes _)
  | run ctx root =>
    have grown : w.tasks.size ≤ (w.addTask ctx root).2.tasks.size := by simp [World.addTask]
    have fresh : ¬ r.tasks w.tasks.size := fun reserved =>
      Nat.lt_irrefl _ (h.settled.tasksBound _ reserved)
    refine (h.addTask permitted.1 permitted.2).goesOn free
      ⟨⟨?_, fresh, permitted.1, by rintro _ ⟨⟩⟩, ?_⟩
    · simp [World.addTask]
    · refine List.forall_mem_cons.2 ⟨fun s => ?_, Conduct.stacked_mono fits grown⟩
      exact carries _ _ _ grown (waits s)
  | go seed =>
    have begins : p.stacked r w.tasks.size [.body (.going (host.start seed))] :=
      List.forall_mem_singleton.2 fun s => obeyed.start seed s
    exact (h.addThread begins).goesOn free ⟨carries _ _ _ (Nat.le_refl _) (goes _), fits⟩

/-- A panic of the thread, which drives no task of the reserve. -/
theorem crash (h : Kept p r (some id) w₀ w) (obeyed : p.Obeyed host) (free : ¬ r.threads id.index)
    (drives : ∀ task, bottomTask? levels = some task → ¬ r.tasks task.index) (message : String) :
    Moved p r w₀ (w.crash host id levels message) := by
  have released := h.release obeyed (w.unwound levels)
  refine Kept.endThread ?_ free _
  split
  · rename_i task bottom
    have settled (t : S.Task) (_ : t.Orderly p.permits) : (t.panicked message).Orderly p.permits :=
      .inl rfl
    exact (released.modifyTask (drives task bottom) settled).wake (fun t => Pending.noConfusion) _
  · split
    · exact released
    · exact released.of_eq rfl rfl rfl rfl rfl rfl (p.spares_refl _)

theorem stepCode (h : Kept p r (some id) w₀ w) (obeyed : p.Obeyed host)
    (free : ¬ r.threads id.index) (bound : id.index < w.threads.size) {ends : α → Prop}
    {level : Flow S α → Level S} (carries : Carries p r w.tasks.size ends level)
    (fits : p.stacked r w.tasks.size below) {finish : World S → α → World S}
    (finishes : ∀ a, ends a → Moved p r w₀ (finish w a)) {code : S.Code α}
    (drives : ∀ message task, bottomTask? (level (.going (.panic message)) :: below) = some task →
      ¬ r.tasks task.index)
    (discreet : p.code ends code w.state) :
    Moved p r w₀ (w.stepCode host id below level finish code) := by
  cases code with
  | done a => exact finishes a discreet
  | panic message => exact h.crash obeyed free (drives message) message
  | ask q k =>
    have size := (h.restart.answer discreet).1.spared.size
    obtain ⟨answered, discreet⟩ := h.answer discreet
    exact answered.goesOn free ⟨carries _ _ _ size discreet, Conduct.stacked_mono fits size⟩
  | perform e k => exact h.perform obeyed free bound carries fits discreet

theorem stepSync (obeyed : p.Obeyed host) (free : ¬ r.threads id.index)
    (drives : ∀ task, bottomTask? levels = some task → ¬ r.tasks task.index) {ends : α → Prop}
    {finish : World S → α → World S} {code : S.Sync α}
    (ran : Kept p r (some id) w₀ (w.runSync code).2 ∧ ∀ a, (w.runSync code).1 = .ok a → ends a)
    (finishes : ∀ a, ends a → Moved p r w₀ (finish (w.runSync code).2 a)) :
    Moved p r w₀ (w.stepSync host id levels finish code) := by
  obtain ⟨kept, ended⟩ := ran
  unfold World.stepSync
  split
  · rename_i a w' result
    rw [result] at finishes ended
    exact finishes a (ended a rfl)
  · rename_i message w' result
    rw [result] at kept
    exact kept.crash obeyed free drives message

/-- The thread goes on with its levels as they are. -/
theorem stays (h : Kept p r (some id) w₀ w) (holds : w.levels? id = some levels)
    (fits : p.levels r w.tasks.size w.state levels) : Moved p r w₀ w := by
  refine ⟨⟨h.settled, fun i th known free => ⟨fun head => ?_, fun waits => ?_⟩⟩, h.spared⟩
  · obtain rfl : id = ⟨i⟩ := Option.some.inj ((h.runs id rfl).symm.trans head)
    rw [levels?, known] at holds
    exact (Option.some.inj holds : th.levels = levels) ▸ fits
  · refine h.threads i th known free fun same => waits ?_
    exact (h.runs id rfl).trans same

/-! ### Tasks -/

section Tasks

variable {task : TaskId} {ctx : S.Ctx}

theorem adjust (h : Kept p r (some id) w₀ w) (obeyed : p.Obeyed host)
    (holds : w.levels? id = some (.task task none :: below))
    (fits : p.levels r w.tasks.size w.state (.task task none :: below)) {i : Impulse S.Gen S.Fn}
    (permitted : p.permits.impulse i) :
    Moved p r w₀ (w.modifyTask task (·.take host.registry i)) := by
  refine (h.modifyTask fits.1.2.1 fun t orderly => orderly.take obeyed.registers permitted).stays
    holds ?_
  rw [show (w.modifyTask task (·.take host.registry i)).tasks.size = w.tasks.size from
    Array.size_modify]
  exact fits

theorem grant (h : Kept p r (some id) w₀ w) (obeyed : p.Obeyed host)
    (free : ¬ r.threads id.index) (holds : w.levels? id = some (.task task none :: below))
    (fits : p.levels r w.tasks.size w.state (.task task none :: below)) (shared : p.context ctx)
    {request : Request S.Gen S.Fn S.Mw} (permitted : p.permits.request request)
    (handles : ∀ m op, request = .handle m op →
      Kept p r (some id) w₀ (w.runSync (host.handle m op ctx)).2 ∧
        ∀ a, (w.runSync (host.handle m op ctx)).1 = .ok a → p.making a) :
    Moved p r w₀ (w.grant host id (.task task none :: below) below task ctx request) := by
  have drives (task' : TaskId) (bottom : bottomTask? (.task task none :: below) = some task') :
      ¬ r.tasks task'.index := free_of_bottom fits bottom
  have resumes {code : S.Code (S.Signal × S.Gen)} (discreet : p.code p.resumption code w.state) :
      Moved p r w₀ (w.setLevels id (.task task (some (.going code)) :: below)) := by
    refine h.goesOn free ⟨⟨fits.1.1, fits.1.2.1, fun f hf => ?_⟩, fits.2⟩
    rw [← Option.some.inj hf]
    exact discreet
  have asks {α : Type} {code : S.Sync α} {ends : α → Prop} (answer : α → Impulse S.Gen S.Fn)
      (ran : Kept p r (some id) w₀ (w.runSync code).2 ∧ ∀ a, (w.runSync code).1 = .ok a → ends a)
      (permits : ∀ a, ends a → p.permits.impulse (answer a)) :
      Moved p r w₀ (w.stepSync host id (.task task none :: below)
        (fun w a => w.modifyTask task (·.take host.registry (answer a))) code) := by
    refine stepSync obeyed free drives ran fun a ended => ?_
    have grown : w.tasks.size ≤ (w.runSync code).2.tasks.size := Nat.le_of_eq (size_runSync code).symm
    refine ran.1.adjust obeyed (levels?_runSync code holds) ?_ (permits a ended)
    exact ⟨Conduct.level_mono ⟨fits.1.1, fits.1.2.1, nofun⟩ grown, Conduct.stacked_mono fits.2 grown⟩
  cases request with
  | silent => exact h.stays holds fits
  | resume g input => exact resumes (obeyed.resume g permitted input w.state)
  | retire g =>
    refine resumes (Code.Discreet.bind (obeyed.resume g permitted .forcedReturn w.state) ?_)
    intro a s resumed
    refine Code.Discreet.bind (Code.Discreet.lift (obeyed.release a.2 s)) ?_
    exact fun _ _ _ => resumed
  | filter m op =>
    exact asks .filtered (h.runSync (obeyed.filter m op permitted.1 ctx w.state))
      fun _ _ => trivial
  | handle m op => exact asks .handled (handles m op rfl) fun _ made => made
  | invoke func args =>
    exact asks .invoked (h.runSync (obeyed.invoke func args w.state)) fun _ made => made
  | fork root =>
    have grown : w.tasks.size ≤ (w.spawn ctx (.operation root)).2.tasks.size := by
      simp [World.spawn, World.addTask, World.addThread]
    have spawned : Kept p r (some id) w₀ (w.spawn ctx (.operation root)).2 :=
      h.spawn shared permitted
    have child : p.permits.impulse (.forked (w.spawn ctx (.operation root)).1) := trivial
    refine spawned.adjust obeyed (levels?_spawn _ _ holds) ?_ child
    exact ⟨Conduct.level_mono ⟨fits.1.1, fits.1.2.1, nofun⟩ grown, Conduct.stacked_mono fits.2 grown⟩
  | report d =>
    have reported : Kept p r (some id) w₀ (w.report d) :=
      h.of_eq rfl rfl rfl rfl rfl rfl (p.spares_refl _)
    exact reported.stays holds fits

/-- The task of a thread moves. -/
theorem stepTask (h : Kept p r (some id) w₀ w) (obeyed : p.Obeyed host)
    (free : ¬ r.threads id.index) (holds : w.levels? id = some (.task task none :: below))
    (fits : p.levels r w.tasks.size w.state (.task task none :: below))
    (handles : ∀ m op ctx, w.asking? host = some (task, ctx, .handle m op) →
      Kept p r (some id) w₀ (w.runSync (host.handle m op ctx)).2 ∧
        ∀ a, (w.runSync (host.handle m op ctx)).1 = .ok a → p.making a) :
    Moved p r w₀ (w.stepTask host id below task) := by
  unfold World.stepTask
  split
  · rename_i t ctx known shared
    obtain ⟨⟨t, ctx⟩, entry, rfl⟩ := Option.map_eq_some_iff.1 known
    obtain rfl : ctx = _ := by simpa [ctx?, entry] using shared
    obtain ⟨shared, orderly⟩ := h.settled.tasks _ _ _ entry
    have orderly := orderly fits.1.2.1
    have asks := asking?_eq host (h.runs id rfl) holds entry
    have stepped : (t.step host.registry).1.Orderly p.permits :=
      orderly.take obeyed.registers (i := .move) trivial
    have moved : Kept p r (some id) w₀ (w.modifyTask task fun _ => (t.step host.registry).1) :=
      h.modifyTask fits.1.2.1 fun _ _ => stepped
    have size : (w.modifyTask task fun _ => (t.step host.registry).1).tasks.size = w.tasks.size :=
      Array.size_modify
    dsimp only
    split
    · refine (moved.wake (fun t => Pending.noConfusion) _).finishLevel free ?_ _
      rw [tasks_wake, size]
      exact fits.2
    · rename_i unsettled
      have held : t.Permitted p.permits := by
        refine orderly.resolve_left fun settled => ?_
        obtain ⟨outcome, settled⟩ := Task.isSettled_iff.1 settled
        simp [Task.step, Task.outcome?, settled] at unsettled
      refine moved.grant obeyed free holds ?_ shared (held.step obeyed.registers).2 ?_
      · rw [size]
        exact fits
      · intro m op request
        rw [Task.step_handle request, modifyTask_self entry]
        exact handles m op ctx (asks.trans (by rw [request]))
  · exact h.finishLevel free fits.2 _

end Tasks

/-! ### Root tasks -/

section Roots

variable {task : TaskId} {ctx : S.Ctx} {life : Lifecycle S.Listener}

theorem stepRoot (h : Kept p r (some id) w₀ w) (obeyed : p.Obeyed host)
    (free : ¬ r.threads id.index)
    (fits : p.levels r w.tasks.size w.state (.root task ctx life none :: below)) :
    Moved p r w₀ (w.stepRoot host id below task ctx life) := by
  obtain ⟨⟨bound, held, shared, -⟩, stacked⟩ := fits
  have rests (life : Lifecycle S.Listener) (s : S.State) :
      p.level r w.tasks.size s (.root task ctx life none) := ⟨bound, held, shared, nofun⟩
  unfold World.stepRoot
  split
  · exact h.goesOn free ⟨rests _ _, stacked⟩
  · rename_i life listener hook _
    refine h.goesOn free ⟨⟨bound, held, shared, fun f hf => ?_⟩, stacked⟩
    rw [← Option.some.inj hf]
    exact obeyed.hook listener hook ctx w.state shared
  · rename_i life _
    refine h.goesOn free ⟨⟨bound, held, nofun⟩, ?_⟩
    exact List.forall_mem_cons.2 ⟨rests _, stacked⟩
  · exact h.finishLevel free stacked _

theorem rootHookEnded (h : Kept p r (some id) w₀ w) (free : ¬ r.threads id.index)
    (bound : task.index < w.tasks.size) (held : ¬ r.tasks task.index) (shared : p.context ctx)
    (stacked : p.stacked r w.tasks.size below) (result : Except Error Unit) :
    Moved p r w₀ (w.rootHookEnded id below task ctx life result) := by
  have ends {w : World S} (h : Kept p r (some id) w₀ w) (bound : task.index < w.tasks.size)
      (stacked : p.stacked r w.tasks.size below) (life : Lifecycle S.Listener) :
      Moved p r w₀ (w.setLevels id (.root task ctx life none :: below)) :=
    h.goesOn free ⟨⟨bound, held, shared, nofun⟩, stacked⟩
  unfold World.rootHookEnded
  cases result with
  | ok => exact ends h bound stacked _
  | error e =>
    dsimp only
    split
    · rename_i event _
      have written : Kept p r (some id) w₀ (w.write (.event event)) :=
        h.of_eq rfl rfl rfl rfl rfl rfl (p.spares_refl _)
      exact ends written bound stacked _
    · exact ends h bound stacked _

end Roots

/-! ### Threads -/

theorem stepThread (h : Kept p r (some id) w₀ w) (obeyed : p.Obeyed host)
    (free : ¬ r.threads id.index) (holds : w.levels? id = some levels)
    (fits : p.levels r w.tasks.size w.state levels)
    (handles : ∀ task m op ctx, w.asking? host = some (task, ctx, .handle m op) →
      Kept p r (some id) w₀ (w.runSync (host.handle m op ctx)).2 ∧
        ∀ a, (w.runSync (host.handle m op ctx)).1 = .ok a → p.making a) :
    Moved p r w₀ (w.stepThread host id levels) := by
  have bound : id.index < w.threads.size := by
    obtain ⟨th, known, -⟩ := Option.map_eq_some_iff.1 holds
    exact (Array.getElem?_eq_some_iff.1 known).1
  cases levels with
  | nil => exact h.endThread free _
  | cons level below =>
    obtain ⟨first, stacked⟩ := fits
    -- Whatever the code of the innermost level comes to, that level drives the same task.
    have drives {level' : Level S} (same : ∀ s, p.level r w.tasks.size s level')
        (task : TaskId) (bottom : bottomTask? (level' :: below) = some task) :
        ¬ r.tasks task.index := by
      have whole : p.levels r w.tasks.size w.state (level' :: below) := ⟨same _, stacked⟩
      exact free_of_bottom whole bottom
    cases level with
    | body flow =>
      cases flow with
      | waiting k => exact h.stays holds ⟨first, stacked⟩
      | going c =>
        simp only [World.stepThread]
        refine h.stepCode obeyed free bound ?_ stacked ?_ ?_ first
        · exact fun n' s f _ fits => fits
        · exact fun outcome _ => h.finishLevel free stacked outcome
        · exact fun message => drives fun s => trivial
    | task task flow =>
      obtain ⟨known, held, flows⟩ := first
      match flow with
      | none => exact h.stepTask obeyed free holds ⟨⟨known, held, flows⟩, stacked⟩ (handles task)
      | some (.waiting k) => exact h.stays holds ⟨⟨known, held, flows⟩, stacked⟩
      | some (.going c) =>
        simp only [World.stepThread]
        refine h.stepCode obeyed free bound ?_ stacked ?_ ?_ (flows _ rfl)
        · exact fun n' s f grown fits =>
            ⟨Nat.lt_of_lt_of_le known grown, held, fun f' hf => Option.some.inj hf ▸ fits⟩
        · rintro ⟨signal, g⟩ resumed
          have size : (w.modifyTask task fun t => taskResumed t signal g).tasks.size =
              w.tasks.size := Array.size_modify
          have answered : Kept p r (some id) w₀
              (w.modifyTask task fun t => taskResumed t signal g) := by
            refine h.modifyTask held fun t orderly => ?_
            rw [taskResumed_eq host.registry]
            exact orderly.take obeyed.registers resumed
          refine answered.goesOn free ⟨⟨size ▸ known, held, nofun⟩, ?_⟩
          rw [size]
          exact stacked
        · exact fun message => drives fun s => ⟨known, held, fun f hf => Option.some.inj hf ▸ trivial⟩
    | root task ctx life flow =>
      obtain ⟨known, held, shared, flows⟩ := first
      match flow with
      | none => exact h.stepRoot obeyed free ⟨⟨known, held, shared, flows⟩, stacked⟩
      | some (.waiting k) => exact h.stays holds ⟨⟨known, held, shared, flows⟩, stacked⟩
      | some (.going c) =>
        simp only [World.stepThread]
        refine h.stepCode obeyed free bound ?_ stacked ?_ ?_ (flows _ rfl)
        · exact fun n' s f grown fits =>
            ⟨Nat.lt_of_lt_of_le known grown, held, shared, fun f' hf => Option.some.inj hf ▸ fits⟩
        · exact fun result _ => h.rootHookEnded free known held shared stacked result
        · exact fun message => drives fun s =>
            ⟨known, held, shared, fun f hf => Option.some.inj hf ▸ trivial⟩

end Kept

/-- A thread outside of the reserve keeps a tidy world tidy. -/
theorem Tidy.step (h : Tidy p r w) (obeyed : p.Obeyed host) (head : w.ready.head? = some id)
    (free : ¬ r.threads id.index)
    (handles : ∀ task m op ctx, w.asking? host = some (task, ctx, .handle m op) →
      Kept p r (some id) w (w.runSync (host.handle m op ctx)).2 ∧
        ∀ a, (w.runSync (host.handle m op ctx)).1 = .ok a → p.making a) :
    Moved p r w (w.step host) := by
  have kept := h.kept head
  obtain ⟨rest, ready⟩ := List.head?_eq_some_iff.1 head
  simp only [World.step, ready]
  split
  · rename_i th known
    refine kept.stepThread obeyed free (congrArg (Option.map _) known) ?_ handles
    exact (h.threads id.index th known free).1 head
  · rename_i missing
    obtain ⟨settled, spared, -, stacked⟩ := kept
    refine Kept.idle ⟨⟨settled.tasks, settled.tasksBound, settled.threadsBound, settled.waits,
      settled.deadlines, settled.sleepers⟩, ⟨spared.state, spared.clock, spared.tag, spared.size,
        spared.tasks, spared.threads, spared.waits⟩, nofun, fun i th known free _ => ?_⟩
    refine stacked i th known free fun same => ?_
    obtain rfl := Option.some.inj same
    exact absurd (missing.symm.trans known) nofun

end World

end EffectEngine
