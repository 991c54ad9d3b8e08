import EffectEngine.Proofs.World.Driving

/-!
# Threads that are set apart

`World.Engaged`: the running thread drives a task of which nothing is known, and all else is tidy.
This lasts while the thread changes its task, forks a task that is set apart, or cancels one that
is. It ends with a tidy world when the task is orderly again, when the thread goes to sleep or when
it ends. The clock keeps a world tidy as well.
-/

namespace EffectEngine

namespace Reserve

/-- One more task and its thread are set apart. -/
def add (r : Reserve) (task thread : Nat) : Reserve :=
  ⟨fun i => r.tasks i ∨ i = task, fun i => r.threads i ∨ i = thread⟩

/-- One more task is set apart. -/
def addTask (r : Reserve) (task : Nat) : Reserve := ⟨fun i => r.tasks i ∨ i = task, r.threads⟩

/-- All threads but one are set apart still. -/
def others (r : Reserve) (thread : Nat) : Reserve :=
  ⟨r.tasks, fun i => r.threads i ∧ i ≠ thread⟩

end Reserve

namespace Conduct

variable {S : Sig} {p : Conduct S} {r r' : Reserve} {n : Nat} {s : S.State} {l : Level S}
  {below : List (Level S)}

/-- Only the tasks of the reserve below the bound matter to a level. -/
theorem level_reserve (h : p.level r n s l) (fewer : ∀ i, i < n → r'.tasks i → r.tasks i) :
    p.level r' n s l := by
  cases l with
  | body => exact h
  | task id => exact ⟨h.1, fun held => h.2.1 (fewer _ h.1 held), h.2.2⟩
  | root id => exact ⟨h.1, fun held => h.2.1 (fewer _ h.1 held), h.2.2⟩

theorem stacked_reserve (h : p.stacked r n below) (fewer : ∀ i, i < n → r'.tasks i → r.tasks i) :
    p.stacked r' n below := fun l hl s => level_reserve (h l hl s) fewer

end Conduct

namespace World

variable {S : Sig} {p : Conduct S} {r r' : Reserve} {id : ThreadId} {task : TaskId} {ctx : S.Ctx}
  {w₀ w : World S} {below levels : List (Level S)} {flow : Option (Flow S (S.Signal × S.Gen))}
  {t : S.Task} {s : S.State}

structure Engaged (p : Conduct S) (r : Reserve) (id : ThreadId) (task : TaskId) (w : World S) :
    Prop where
  settled : Settled p (r.addTask task.index) w
  head : w.ready.head? = some id
  threads : ∀ i th, w.threads[i]? = some th → ¬ r.threads i → i ≠ id.index →
    p.stacked r w.tasks.size th.levels

theorem Kept.engaged (h : Kept p r (some id) w₀ w) (bound : task.index < w.tasks.size) :
    Engaged p r id task w := by
  obtain ⟨settled, -, runs, stacked⟩ := h
  have settled' : Settled p (r.addTask task.index) w :=
    { settled with
      tasks := fun i t ctx known => ⟨(settled.tasks i t ctx known).1, fun free =>
        (settled.tasks i t ctx known).2 fun held => free (.inl held)⟩
      tasksBound := by
        rintro i (held | rfl)
        · exact settled.tasksBound i held
        · exact bound }
  refine ⟨settled', runs id rfl, fun i th known free other => ?_⟩
  refine stacked i th known free fun same => other ?_
  exact (congrArg ThreadId.index (Option.some.inj same)).symm

namespace Engaged

theorem driving (h : Engaged p r id task w) (drives : w.Drives id task ctx) :
    Engaged p r id task (w.driving id below task flow t s) := by
  obtain ⟨settled, head, stacked⟩ := h
  have tasks : (w.driving id below task flow t s).tasks.size = w.tasks.size := Array.size_modify
  have threads : (w.driving id below task flow t s).threads.size = w.threads.size :=
    Array.size_modify
  have settled' : Settled p (r.addTask task.index) (w.driving id below task flow t s) :=
    { tasks := fun i t' ctx' known => by
        by_cases same : task.index = i
        · obtain ⟨old, held⟩ := drives.task
          rw [← same, task_driving drives] at known
          obtain ⟨rfl, rfl⟩ := Prod.mk.inj (Option.some.inj known)
          exact ⟨(settled.tasks _ _ _ held).1, fun free => absurd (.inr same.symm) free⟩
        · refine settled.tasks i t' ctx' ?_
          rw [← known]
          simp only [World.driving, setLevels, modifyLevels, modifyTask, Array.getElem?_modify,
            if_neg same]
      tasksBound := tasks ▸ settled.tasksBound
      threadsBound := threads ▸ settled.threadsBound
      waits := threads ▸ settled.waits
      deadlines := settled.deadlines
      sleepers := settled.sleepers }
  refine ⟨settled', head, fun i th known free other => ?_⟩
  rw [tasks]
  refine stacked i th ?_ free other
  rw [← known]
  simp only [World.driving, setLevels, modifyLevels, modifyTask, Array.getElem?_modify,
    if_neg other.symm]

/-- A task is forked and set apart. -/
theorem spawn (h : Engaged p r id task w) (shared : p.context ctx) (root : S.Yielded) :
    Engaged p (r.add w.tasks.size w.threads.size) id task (w.spawn ctx root).2 := by
  obtain ⟨settled, head, stacked⟩ := h
  have tasks : (w.spawn ctx root).2.tasks.size = w.tasks.size + 1 := Array.size_push ..
  have threads : (w.spawn ctx root).2.threads.size = w.threads.size + 1 := Array.size_push ..
  have settled' : Settled p ((r.add w.tasks.size w.threads.size).addTask task.index)
      (w.spawn ctx root).2 :=
    { tasks := fun i t' ctx' known => by
        simp only [World.spawn, World.addTask, World.addThread, Array.getElem?_push] at known
        split at known
        · rename_i new
          obtain ⟨rfl, rfl⟩ := Prod.mk.inj (Option.some.inj known)
          exact ⟨shared, fun free => absurd (.inl (.inr new)) free⟩
        · obtain ⟨shared, orderly⟩ := settled.tasks i t' ctx' known
          refine ⟨shared, fun free => orderly ?_⟩
          rintro (held | same)
          · exact free (.inl (.inl held))
          · exact free (.inr same)
      tasksBound := by
        rw [tasks]
        rintro i ((held | rfl) | rfl)
        · exact Nat.lt_succ_of_lt (settled.tasksBound i (.inl held))
        · exact Nat.lt_succ_self _
        · exact Nat.lt_succ_of_lt (settled.tasksBound _ (.inr rfl))
      threadsBound := by
        rw [threads]
        rintro i (held | rfl)
        · exact Nat.lt_succ_of_lt (settled.threadsBound i held)
        · exact Nat.lt_succ_self _
      waits := by
        intro e he
        rw [threads]
        exact Nat.lt_succ_of_lt (settled.waits e he)
      deadlines := settled.deadlines
      sleepers := by
        rintro e he (held | new)
        · exact settled.sleepers e he held
        · exact absurd (settled.waits e he) (by rw [new]; exact Nat.lt_irrefl _) }
  refine ⟨settled', ?_, ?_⟩
  · simp only [World.spawn, World.addTask, World.addThread, List.head?_append, head]
    rfl
  · intro i th known free other
    simp only [World.spawn, World.addTask, World.addThread, Array.getElem?_push] at known
    split at known
    · rename_i new
      exact absurd (.inr new) free
    · have before := stacked i th known (fun held => free (.inl held)) other
      refine Conduct.stacked_mono (Conduct.stacked_reserve before fun j bound held => ?_) ?_
      · exact held.resolve_right (Nat.ne_of_lt bound)
      · exact tasks ▸ Nat.le_succ _

/-- A task that is set apart is asked to cancel. -/
theorem requestCancel (h : Engaged p r id task w) {timer : TaskId} (held : r.tasks timer.index) :
    Engaged p r id task (w.requestCancel timer).2 := by
  unfold World.requestCancel
  split
  · obtain ⟨settled, head, stacked⟩ := h
    have size (change : S.Task → S.Task) :
        (w.modifyTask timer change).tasks.size = w.tasks.size := Array.size_modify
    refine ⟨⟨fun i t' ctx' known => ?_, size _ ▸ settled.tasksBound, settled.threadsBound,
      settled.waits, settled.deadlines, settled.sleepers⟩, head, size _ ▸ stacked⟩
    by_cases same : timer.index = i
    · simp only [World.modifyTask, Array.getElem?_modify, if_pos same] at known
      obtain ⟨⟨old, ctx⟩, found, changed⟩ := Option.map_eq_some_iff.1 known
      obtain ⟨-, rfl⟩ := Prod.mk.inj changed
      exact ⟨(settled.tasks i old ctx found).1, fun free => absurd (.inl (same ▸ held)) free⟩
    · simp only [World.modifyTask, Array.getElem?_modify, if_neg same] at known
      exact settled.tasks i t' ctx' known
  · exact h

/-- The thread and its task are no longer set apart. -/
theorem dismiss (h : Engaged p r id task w) (tasks : ∀ i, r'.tasks i ↔ r.tasks i ∧ i ≠ task.index)
    (threads : ∀ i, r'.threads i ↔ r.threads i ∧ i ≠ id.index) : Engaged p r' id task w := by
  obtain ⟨settled, head, stacked⟩ := h
  have settled' : Settled p (r'.addTask task.index) w :=
    { settled with
      tasks := fun i t ctx known => by
        refine ⟨(settled.tasks i t ctx known).1, fun free => ?_⟩
        refine (settled.tasks i t ctx known).2 fun held => free ?_
        by_cases same : i = task.index
        · exact .inr same
        · exact .inl ((tasks i).2 ⟨held.resolve_right same, same⟩)
      tasksBound := by
        rintro i (held | rfl)
        · exact settled.tasksBound i (.inl ((tasks i).1 held).1)
        · exact settled.tasksBound _ (.inr rfl)
      threadsBound := fun i held => settled.threadsBound i ((threads i).1 held).1
      sleepers := fun e he held => settled.sleepers e he ((threads _).1 held).1 }
  refine ⟨settled', head, fun i th known free other => ?_⟩
  have before := stacked i th known (fun held => free ((threads i).2 ⟨held, other⟩)) other
  exact Conduct.stacked_reserve before fun j _ held => ((tasks j).1 held).1

theorem tidy (h : Engaged p r id task w) (known : w.tasks[task.index]? = some (t, ctx))
    (orderly : ¬ r.tasks task.index → t.Orderly p.permits) (holds : w.levels? id = some levels)
    (fits : ¬ r.threads id.index → p.levels r w.tasks.size w.state levels) : Tidy p r w := by
  obtain ⟨settled, head, stacked⟩ := h
  refine ⟨⟨fun i t' ctx' found => ⟨(settled.tasks i t' ctx' found).1, fun free => ?_⟩, ?_,
    settled.threadsBound, settled.waits, settled.deadlines, settled.sleepers⟩, ?_⟩
  · by_cases same : i = task.index
    · subst same
      obtain ⟨rfl, rfl⟩ := Prod.mk.inj (Option.some.inj (known.symm.trans found))
      exact orderly free
    · exact (settled.tasks i t' ctx' found).2 fun held => held.elim free same
  · exact fun i held => settled.tasksBound i (.inl held)
  · intro i th found free
    refine ⟨fun runs => ?_, fun waits => ?_⟩
    · obtain rfl : id = ⟨i⟩ := Option.some.inj (head.symm.trans runs)
      rw [levels?, found] at holds
      exact (Option.some.inj holds : th.levels = levels) ▸ fits free
    · refine stacked i th found free fun same => waits ?_
      rw [head, same]

end Engaged

/-! ### Threads of the reserve -/

/-- When a thread of the reserve is the running one, no other thread is. -/
theorem Tidy.undisturbed (h : Tidy p r w) (head : w.ready.head? = some id)
    (held : r.threads id.index) : Kept p r none w w :=
  ⟨h.settled, .refl w, nofun, fun i th known free _ => (h.threads i th known free).2 fun runs => by
    obtain rfl : id = ⟨i⟩ := Option.some.inj (head.symm.trans runs)
    exact free held⟩

/-- A thread of the reserve goes to sleep. -/
theorem Tidy.sleep (h : Tidy p r w) (head : w.ready.head? = some id) (held : r.threads id.index)
    {time : Nat} (later : w.clock ≤ time) : Tidy p r (w.block id (.deadline time)) := by
  obtain ⟨settled, -, -, stacked⟩ := h.undisturbed head held
  have bound := settled.threadsBound _ held
  have waits (P : ThreadId × Pending → Prop) (old : ∀ e ∈ w.waiting, P e)
      (new : P (id, .deadline time)) : ∀ e ∈ (w.block id (.deadline time)).waiting, P e := by
    intro e he
    rcases List.mem_append.1 he with he | he
    · exact old e he
    · rw [List.mem_singleton.1 he]
      exact new
  have slept : Kept p r none (w.block id (.deadline time)) (w.block id (.deadline time)) := by
    refine ⟨⟨settled.tasks, settled.tasksBound, settled.threadsBound, ?_, ?_, ?_⟩, .refl _, nofun,
      stacked⟩
    · exact waits _ settled.waits bound
    · exact waits _ settled.deadlines fun t same => Pending.deadline.inj same ▸ later
    · exact waits _ settled.sleepers fun _ => ⟨time, rfl⟩
  exact slept.idle.tidy

theorem Spared.others {w' : World S} (h : Spared p r w w') : Spared p (r.others id.index) w w' :=
  ⟨h.state, h.clock, h.tag, h.size, h.tasks, fun i held => h.threads i held.1,
    fun e he held => h.waits e he held.1⟩

theorem Spared.trans {w' w'' : World S} (h : Spared p r w w') (h' : Spared p r w' w'') :
    Spared p r w w'' :=
  ⟨p.spares_trans h.state h'.state, h'.clock.trans h.clock, h'.tag.trans h.tag,
    Nat.le_trans h.size h'.size, fun i held => (h.tasks i held).trans (h'.tasks i held),
    fun i held => (h'.threads i held).trans (h.threads i held),
    fun e he held => h.waits e (h'.waits e he held) held⟩

/-- A thread of the reserve has ended, and nothing else that is set apart has changed. -/
structure Ended (p : Conduct S) (r : Reserve) (id : ThreadId) (w w' : World S) : Prop where
  tidy : Tidy p r w'
  spared : Spared p (r.others id.index) w w'
  tasks : w'.tasks = w.tasks
  levels : w'.levels? id = some []
  waits : ∀ e ∈ w'.waiting, r.threads e.1.index → e ∈ w.waiting

/-- A thread of the reserve ends. -/
theorem Kept.ended (h : Kept p r none w₀ w) (held : r.threads id.index) (fate : Fate) :
    Ended p r id w (w.endThread id fate) := by
  obtain ⟨settled, -, -, stacked⟩ := h
  let w' : World S := { w with
    threads := w.threads.modify id.index fun _ => ⟨[], some fate⟩
    ready := w.ready.tail }
  have size : w'.threads.size = w.threads.size := Array.size_modify
  have elsewhere (i : Nat) (other : i ≠ id.index) : w'.threads[i]? = w.threads[i]? := by
    simp only [w', Array.getElem?_modify, if_neg other.symm]
  have ended : Kept p r none w' w' := by
    refine ⟨⟨settled.tasks, settled.tasksBound, size ▸ settled.threadsBound, size ▸ settled.waits,
      settled.deadlines, settled.sleepers⟩, .refl _, nofun, fun i th known free _ => ?_⟩
    refine stacked i th ?_ free nofun
    rw [← elsewhere i fun same => free (same ▸ held)]
    exact known
  have woken : Kept p r none w' (w.endThread id fate) :=
    ended.wake (fun t => Pending.noConfusion) fate.outcome
  have spared : Spared p (r.others id.index) w w' :=
    ⟨p.spares_refl _, rfl, rfl, Nat.le_refl _, fun _ _ => .inl rfl,
      fun i held => elsewhere i held.2, fun e he _ => he⟩
  refine ⟨woken.idle.tidy, spared.trans woken.spared.others, tasks_endThread w id fate, ?_,
    woken.spared.waits⟩
  have bound := settled.threadsBound _ held
  have last : w'.threads[id.index]? = some ⟨[], some fate⟩ := by
    rw [Array.getElem?_modify, if_pos rfl, Array.getElem?_eq_getElem bound]
    rfl
  rw [levels?, woken.spared.threads _ held, last]
  rfl

/-- The task of a thread of the reserve settles, and with it the thread ends. -/
theorem Tidy.finish (h : Tidy p r w) (head : w.ready.head? = some id) (held : r.threads id.index)
    (outcome : Outcome) :
    Ended p r id w ((w.wake (.task task) outcome).finishLevel id [] outcome) := by
  have woken : Kept p r none w (w.wake (.task task) outcome) :=
    (h.undisturbed head held).wake (fun t => Pending.noConfusion) outcome
  obtain ⟨tidy, spared, tasks, levels, waits⟩ := woken.ended held (.ended outcome)
  exact ⟨tidy, woken.spared.others.trans spared, tasks.trans (tasks_wake ..), levels,
    fun e he held => woken.spared.waits e (waits e he held) held⟩

/-! ### The clock -/

/-- The earlier of two times, if there are any. -/
def earliest (known : Option Nat) : ThreadId × Pending → Option Nat
  | (_, .deadline t) => some (known.elim t (min · t))
  | _ => known

theorem nextDeadline?_eq (w : World S) : w.nextDeadline? = w.waiting.foldl earliest none := by
  unfold nextDeadline?
  congr
  funext known e
  obtain ⟨thread, event⟩ := e
  cases known <;> cases event <;> rfl

/-- The next deadline is the first of all. -/
theorem nextDeadline?_spec {time : Nat} (h : w.nextDeadline? = some time) :
    (∃ e ∈ w.waiting, e.2 = .deadline time) ∧
      ∀ e ∈ w.waiting, ∀ t, e.2 = .deadline t → time ≤ t := by
  rw [nextDeadline?_eq] at h
  have first (l : List (ThreadId × Pending)) (known : Option Nat)
      (found : l.foldl earliest known = some time) :
      (known = some time ∨ ∃ e ∈ l, e.2 = .deadline time) ∧ (∀ t ∈ known, time ≤ t) ∧
        ∀ e ∈ l, ∀ t, e.2 = .deadline t → time ≤ t := by
    induction l generalizing known with
    | nil =>
      refine ⟨.inl found, fun t ht => ?_, nofun⟩
      exact Nat.le_of_eq (Option.some.inj (found.symm.trans ht))
    | cons e l ih =>
      obtain ⟨reached, bound, rest⟩ := ih _ found
      obtain ⟨thread, event⟩ := e
      cases event with
      | task | promise | thread =>
        refine ⟨reached.imp_right fun ⟨e, he, now⟩ => ⟨e, List.mem_cons_of_mem _ he, now⟩,
          bound, ?_⟩
        exact List.forall_mem_cons.2 ⟨fun t => nofun, rest⟩
      | deadline t =>
        have least : time ≤ known.elim t (min · t) := bound _ rfl
        have first : time ≤ t ∧ ∀ t' ∈ known, time ≤ t' := by
          cases known with
          | none => exact ⟨least, nofun⟩
          | some t' => exact ⟨by simp at least; omega, by simp at least ⊢; omega⟩
        refine ⟨?_, first.2, List.forall_mem_cons.2 ⟨fun t' same => ?_, rest⟩⟩
        · rcases reached with now | ⟨e, he, now⟩
          · cases known with
            | none =>
              exact .inr ⟨_, List.mem_cons_self, congrArg Pending.deadline (Option.some.inj now)⟩
            | some t' =>
              have now : min t' t = time := Option.some.inj now
              rcases Nat.le_total t' t with le | le
              · exact .inl (by rw [← now, Nat.min_eq_left le])
              · refine .inr ⟨_, List.mem_cons_self, ?_⟩
                rw [← now, Nat.min_eq_right le]
          · exact .inr ⟨e, List.mem_cons_of_mem _ he, now⟩
        · exact Pending.deadline.inj same ▸ first.1
  obtain ⟨reached, -, rest⟩ := first _ _ h
  exact ⟨reached.resolve_left nofun, rest⟩

/-- If there is no deadline, nothing waits for one. -/
theorem timeless_of_nextDeadline? (h : w.nextDeadline? = none) :
    ∀ e ∈ w.waiting, ∀ t, e.2 ≠ .deadline t := by
  rw [nextDeadline?_eq] at h
  have found (l : List (ThreadId × Pending)) (t : Nat) : l.foldl earliest (some t) ≠ none := by
    induction l generalizing t with
    | nil => exact nofun
    | cons e l ih =>
      obtain ⟨thread, event⟩ := e
      cases event <;> exact ih _
  generalize w.waiting = l at h
  induction l with
  | nil => exact List.forall_mem_nil _
  | cons e l ih =>
    obtain ⟨thread, event⟩ := e
    cases event with
    | deadline t => exact absurd h (found l t)
    | task | promise | thread => exact List.forall_mem_cons.2 ⟨nofun, ih h⟩

theorem deliver_deliver (outcome : Outcome) (l : Level S) :
    (l.deliver outcome).deliver outcome = l.deliver outcome := by
  have flow {α : Type} (f : Flow S α) :
      (f.deliver outcome).deliver outcome = f.deliver outcome := by
    cases f <;> rfl
  cases l with
  | body f => simp only [Level.deliver, flow]
  | task id f => cases f <;> simp only [Level.deliver, Option.map_none, Option.map_some, flow]
  | root id ctx life f =>
    cases f <;> simp only [Level.deliver, Option.map_none, Option.map_some, flow]

theorem levels?_deliver_eq (w : World S) (thread : ThreadId) (outcome : Outcome) :
    (w.deliver thread outcome).levels? id = if thread.index = id.index then
      (w.levels? id).map (·.modifyHead (Level.deliver outcome)) else w.levels? id := by
  simp only [levels?, deliver, modifyLevels, Array.getElem?_modify]
  split
  · rw [Option.map_map, Option.map_map]
    rfl
  · rfl

/-- The threads that wait for the event are woken, and their innermost levels get the outcome. -/
theorem wake_spec (w : World S) (event : Pending) (outcome : Outcome) :
    ∃ threads : Array (Thread S), threads.size = w.threads.size ∧
      w.wake event outcome = { w with
        waiting := w.waiting.filter (·.2 != event)
        ready := w.ready ++ (w.waiting.filter (·.2 == event)).map (·.1)
        threads } ∧
      ∀ id : ThreadId, (w.wake event outcome).levels? id =
        if (id, event) ∈ w.waiting then
          (w.levels? id).map (·.modifyHead (Level.deliver outcome))
        else w.levels? id := by
  have delivered (ids : List ThreadId) (w : World S) :
      ∃ threads : Array (Thread S), threads.size = w.threads.size ∧
        ids.foldl (fun w id => w.deliver id outcome) w = { w with threads } ∧
        ∀ id : ThreadId, levels? { w with threads } id =
          if id ∈ ids then (w.levels? id).map (·.modifyHead (Level.deliver outcome))
          else w.levels? id := by
    induction ids generalizing w with
    | nil => exact ⟨w.threads, rfl, rfl, fun id => rfl⟩
    | cons first ids ih =>
      obtain ⟨threads, size, eq, levels⟩ := ih (w.deliver first outcome)
      refine ⟨threads, size.trans Array.size_modify, eq, fun id => (levels id).trans ?_⟩
      rw [levels?_deliver_eq]
      by_cases same : first.index = id.index
      · -- A thread that is listed twice gets the outcome once.
        have again (ls : List (Level S)) :
            (ls.modifyHead (Level.deliver outcome)).modifyHead (Level.deliver outcome) =
              ls.modifyHead (Level.deliver outcome) := by
          cases ls with
          | nil => rfl
          | cons l below => exact congrArg (· :: below) (deliver_deliver outcome l)
        obtain rfl : first = id := congrArg ThreadId.mk same
        simp [Option.map_map, Function.comp_def, again]
      · have other : id ≠ first := fun equal => same (equal ▸ rfl)
        simp [same, other]
  obtain ⟨threads, size, eq, levels⟩ := delivered ((w.waiting.filter (·.2 == event)).map (·.1))
    { w with
      waiting := w.waiting.filter (·.2 != event)
      ready := w.ready ++ (w.waiting.filter (·.2 == event)).map (·.1) }
  refine ⟨threads, size, eq, fun id => ?_⟩
  have woken : id ∈ (w.waiting.filter (·.2 == event)).map (·.1) ↔ (id, event) ∈ w.waiting := by
    simp
  rw [wake, eq]
  simp only [levels, woken]
  rfl

theorem step_clock (host : Host S) (idle : w.ready = []) {time : Nat}
    (next : w.nextDeadline? = some time) :
    w.step host = World.wake { w with clock := time } (.deadline time) (.ok .null) := by
  simp only [World.step, idle, next]

/-- When the clock goes on, some thread wakes up. -/
theorem ready_of_deadline {host : Host S} (idle : w.ready = []) {time : Nat}
    (next : w.nextDeadline? = some time) : (w.step host).ready ≠ [] := by
  obtain ⟨⟨e, he, timed⟩, -⟩ := nextDeadline?_spec next
  obtain ⟨threads, -, eq, -⟩ := wake_spec { w with clock := time } (.deadline time) (.ok .null)
  rw [step_clock host idle next, eq]
  refine List.ne_nil_of_mem (List.mem_append_right _ (List.mem_map_of_mem (a := e) ?_))
  exact List.mem_filter.2 ⟨he, beq_iff_eq.2 timed⟩

/-- The clock goes on to the next deadline, and the threads that sleep until then wake up. -/
theorem Tidy.wakeUp (h : Tidy p r w) (idle : w.ready = []) {time : Nat}
    (next : w.nextDeadline? = some time) :
    Tidy p r ({ w with clock := time }.wake (.deadline time) (.ok .null)) := by
  obtain ⟨settled, stacked⟩ := h
  obtain ⟨-, first⟩ := nextDeadline?_spec next
  obtain ⟨threads, size, eq, levels⟩ :=
    wake_spec { w with clock := time } (.deadline time) (.ok .null)
  have sub : ∀ e ∈ w.waiting.filter (·.2 != .deadline time), e ∈ w.waiting :=
    fun e he => (List.mem_filter.1 he).1
  have woken : Kept p r none ({ w with clock := time }.wake (.deadline time) (.ok .null))
      ({ w with clock := time }.wake (.deadline time) (.ok .null)) := by
    refine ⟨?_, .refl _, nofun, fun i th known free _ => ?_⟩
    · rw [eq]
      exact ⟨settled.tasks, settled.tasksBound, size ▸ settled.threadsBound,
        fun e he => size ▸ settled.waits e (sub e he), fun e he => first e (sub e he),
        fun e he => settled.sleepers e (sub e he)⟩
    · have tasks := congrArg World.tasks eq
      simp only at tasks
      rw [tasks]
      have waited (th₀ : Thread S) (known₀ : w.threads[i]? = some th₀) :
          p.stacked r w.tasks.size th₀.levels := by
        refine (stacked i th₀ known₀ free).2 ?_
        rw [idle]
        exact nofun
      have holds : ({ w with clock := time }.wake (.deadline time) (.ok .null)).levels? ⟨i⟩ =
          some th.levels := congrArg (Option.map _) known
      have gets := (levels ⟨i⟩).symm.trans holds
      split at gets
      · obtain ⟨old, held, gets⟩ := Option.map_eq_some_iff.1 gets
        obtain ⟨th₀, known₀, rfl⟩ := Option.map_eq_some_iff.1 held
        exact gets ▸ Conduct.stacked_deliver (waited th₀ known₀) (.ok .null)
      · obtain ⟨th₀, known₀, same⟩ := Option.map_eq_some_iff.1 gets
        exact same ▸ waited th₀ known₀
  exact woken.idle.tidy

end World

end EffectEngine
