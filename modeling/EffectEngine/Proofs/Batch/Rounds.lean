import EffectEngine.Proofs.Batch.Alarms
import EffectEngine.Proofs.Batch.Timers

/-!
# The turns of timers and of the clock

Whenever all timers rest, and the thread of one is the running one, they will all rest again when
its turn is over (`Good.timer`): one that has been cancelled ends, one that has not begins to sleep,
or takes its batch if it has slept long enough. The same holds when only the clock can go on
(`Good.clock`).
-/

namespace EffectEngine.Batch

variable {T : ClientSig} {c : Client T} {listeners : List T.Listener} {ctx : ContextId}
  {d : Nat} {crew before after : List Alarm} {a : Alarm} {w : World T.sig}
  {es : List (BatchEvent T.Fn)}

/-- One timer less. -/
theorem reserve_without (index : Alarm → Nat) (apart : ((before ++ a :: after).map index).Nodup)
    (i : Nat) : (∃ a' ∈ before ++ after, index a' = i) ↔
      (∃ a' ∈ before ++ a :: after, index a' = i) ∧ i ≠ index a := by
  constructor
  · rintro ⟨a', ha, rfl⟩
    exact ⟨⟨a', mem_of_rest ha, rfl⟩, ne_of_rest apart ha⟩
  · rintro ⟨⟨a', ha, rfl⟩, other⟩
    exact ⟨a', (mem_place.1 ha).resolve_left fun same => other (congrArg index same), rfl⟩

/-- A batch that has been flushed is run by the timer that flushed it. -/
theorem executes_of_flush {b : PendingBatch T.Fn} {s s' : T.sig.State}
    (drives : w.Drives a.thread a.task ctx) :
    let host := c.host (plugin d) listeners
    let r : Diary T := ⟨w.driving a.thread [] a.task none a.firing s, es⟩
    event? host r.world = some (.flushed a.task (some b) w.clock) →
    r.tick host = ⟨w.driving a.thread [] a.task none
      (a.firing.handled (.ok (.ofOpening (.executeBatch (some b))))) s',
      es ++ [.flushed a.task (some b) w.clock]⟩ →
    r.Executes host := by
  intro host r happened ticked task b' time flushes
  obtain ⟨rfl, same, rfl⟩ := BatchEvent.flushed.inj
    (Option.some.inj (happened.symm.trans flushes))
  obtain rfl := Option.some.inj same
  obtain ⟨k, calls, heads, -⟩ := Diary.count_of_leads
    (leads_calling (c := c) (d := d) drives b (s := s'))
  rw [← ticked, ← Function.iterate_succ_apply] at calls
  refine ⟨k, fun j le => ?_, ?_⟩
  · cases j with
    | zero => rfl
    | succ j =>
      rw [Function.iterate_succ_apply, ticked]
      exact heads j (Nat.le_of_succ_le_succ le)
  · rw [calls]
    exact ⟨rfl, rfl, ctx, .batchCalls d, World.asking?_driving host drives⟩

/-- A timer that has flushed its batch may go on like any other task. -/
theorem permitted_of_flush (batch : Option (PendingBatch T.Fn)) :
    (a.firing.handled (.ok (.ofOpening (.executeBatch batch))) : T.sig.Task).Permitted
      (conduct T ctx d).permits := by
  refine .of_frames (fun f hf => ?_) trivial
  rcases List.mem_cons.1 hf with rfl | hf
  · refine ⟨⟨List.forall_mem_nil _, ?_⟩, .executeBatch _ _⟩
    rintro slot ⟨⟩ m hm
    exact .inr (List.mem_singleton.1 hm)
  · rw [List.mem_singleton.1 hf]
    exact ⟨⟨List.forall_mem_nil _, by rintro _ ⟨⟩⟩, .delaying _⟩

/-- A timer that goes on like any other task is no longer one of the crew. -/
theorem Stationed.dismiss (h : Stationed d ctx (before ++ a :: after) w)
    (drives : w.Drives a.thread a.task ctx) {t : T.sig.Task} {s : T.sig.State}
    (permitted : t.Permitted (conduct T ctx d).permits) (context : ctx.index < s.contexts.size) :
    Stationed d ctx (before ++ after) (w.driving a.thread [] a.task none t s) := by
  let w' := w.driving a.thread [] a.task none t s
  have member : a ∈ before ++ a :: after := List.mem_append_right _ List.mem_cons_self
  have bound := h.tidy.settled.tasksBound _ (Stationed.held_task member)
  have size : w'.tasks.size = w.tasks.size := Array.size_modify
  have engaged : World.Engaged (conduct T ctx d) (reserve (before ++ after)) a.thread a.task w' :=
    (((h.tidy.kept drives.head).engaged bound).driving drives).dismiss
      (reserve_without (·.task.index) h.tasks)
      (reserve_without (·.thread.index) h.threads)
  have free : ¬ (reserve (before ++ after)).tasks a.task.index := fun held =>
    ((reserve_without (·.task.index) h.tasks _).1 held).2 rfl
  have tidy : World.Tidy (conduct T ctx d) (reserve (before ++ after)) w' := by
    refine engaged.tidy (World.task_driving drives) (fun _ => .inr permitted)
      (World.levels?_driving drives)
      fun _ => ⟨⟨size ▸ bound, free, by rintro _ ⟨⟩⟩, List.forall_mem_nil _⟩
  have rests : ∀ a' ∈ before ++ after, a'.Rests d ctx w' := by
    intro a' ha
    have different : a' ≠ a := by
      rintro rfl
      exact free ⟨a', ha, rfl⟩
    refine (h.rests a' (mem_of_rest ha)).congr ?_ ?_ (fun e he _ => he) (Nat.le_refl _)
    · exact World.levels?_driving_other (h.other_thread member (mem_of_rest ha) different)
    · exact World.task_driving_other (h.other_task member (mem_of_rest ha) different)
  exact ⟨tidy, context, rests, h.threads.sublist (rest_sublist.map _),
    h.tasks.sublist (rest_sublist.map _)⟩

section Timers

variable (h : Stationed d ctx crew w) (roster : Roster d w.tasks.size crew (tableOf ctx w) es)
  (member : a ∈ crew)
include h roster member

/-- A timer that has been cancelled settles. -/
theorem Good.settles (head : w.ready.head? = some a.thread) (canceled : a.canceled = true)
    {t t' : T.sig.Task} {outcome : Outcome} (steps : t.step (plugin d) = (t', .silent))
    (settled : t'.outcome? = some outcome) (flagged : t'.canceled = true) :
    Diary.Coming (c.host (plugin d) listeners) (Rested d ctx es)
      ⟨w.driving a.thread [] a.task none t w.state, es⟩ := by
  have drives := h.drives member head
  let w₁ := w.driving a.thread [] a.task none t' w.state
  have moved : World.Tidy (conduct T ctx d) (reserve crew) w₁ ∧
      ∀ a' ∈ crew, a' ≠ a → a'.Rests d ctx w₁ := h.driving member drives
  have known : w₁.tasks[a.task.index]? = some (t', ctx) := World.task_driving drives
  have gone : World.Ended (conduct T ctx d) (reserve crew) a.thread w₁
      ((w₁.wake (.task a.task) outcome).finishLevel a.thread [] outcome) :=
    moved.1.finish head (Stationed.held_thread member) outcome
  have stationed := h.ended member canceled moved.2 known flagged h.context (fun _ he => he)
    (Nat.le_refl _) gone
  refine .quiet ?_ ?_
  · have asks : (w.driving a.thread [] a.task none t w.state).asking?
        (c.host (plugin d) listeners) = some (a.task, ctx, .silent) := by
      rw [World.asking?_driving _ drives]
      exact congrArg (fun move => some (a.task, ctx, move.2)) steps
    simp only [event?, asks]
  · dsimp only
    rw [World.step_settled drives steps settled]
    refine .of_stationed stationed roster gone.spared.state.2 ?_
    exact Nat.le_trans (Nat.le_of_eq Array.size_modify.symm) gone.spared.size

/-- A timer that has slept long enough takes its batch, and goes on like any other task. -/
theorem Good.fires (head : w.ready.head? = some a.thread) (calm : a.canceled = false)
    (due : a.time + d ≤ w.clock) :
    Diary.Coming (c.host (plugin d) listeners) (Rested d ctx es)
      ⟨w.driving a.thread [] a.task none a.firing w.state, es⟩ := by
  let host := c.host (plugin d) listeners
  have drives := h.drives member head
  let w₁ := w.driving a.thread [] a.task none a.firing w.state
  obtain ⟨before, after, rfl⟩ := List.append_of_mem member
  obtain ⟨b, took, roster'⟩ := roster.flush rfl calm due
  -- Having its operation handled, the timer takes its batch; only the state changes.
  obtain ⟨w', ran, leaves, -⟩ := runSync_flush (c := c) (w := w₁) h.context executeKind a.identity
    a.ticket.key
  have same : w' = w.driving a.thread [] a.task none a.firing w'.state := by
    rw [← (Prod.mk.inj ran).2]
    rfl
  rw [show tableOf ctx w₁ = tableOf ctx w from rfl] at ran leaves
  rw [took] at ran
  let g : T.sig.Gen := .ofOpening (.executeBatch (some b))
  let t : T.sig.Task := a.firing.handled (.ok g)
  let w₂ := w.driving a.thread [] a.task none t w'.state
  have steps : a.firing.step host.registry = (a.firing, .handle .executeBatch a.flush) := rfl
  have stepped : w₁.step host = w₂ := by
    have handled : w₁.step host = w'.modifyTask a.task (·.handled (.ok g)) :=
      World.step_handle_ok drives steps rfl ran
    rw [handled, same]
    exact World.modifyTask_driving
  have happened : event? host w₁ = some (.flushed a.task (some b) w.clock) := by
    have asks : w₁.asking? host = some (a.task, ctx, .handle .executeBatch a.flush) :=
      World.asking?_driving host drives
    have answer : (w₁.runSync (host.handle .executeBatch a.flush ctx)).1 = .ok (.ok g) :=
      congrArg Prod.fst ran
    simp only [event?, asks, answer]
    rfl
  have ticked : Diary.tick host ⟨w₁, es⟩ = ⟨w₂, es ++ [.flushed a.task (some b) w.clock]⟩ := by
    rw [Diary.tick, stepped, happened]
    rfl
  have executes : Diary.Executes host ⟨w₁, es⟩ := executes_of_flush drives happened ticked
  have stationed : Stationed d ctx (before ++ after) w₂ :=
    h.dismiss drives (permitted_of_flush (some b)) (leaves.contexts ▸ h.context)
  refine .next executes ?_
  rw [ticked]
  refine ⟨⟨before ++ after, stationed, ?_⟩, .inr ⟨_, rfl, ?_⟩⟩
  · have taken : tableOf ctx w₂ = ((tableOf ctx w).take a.ticket.key).2 := leaves.table
    have size : w₂.tasks.size = w.tasks.size := Array.size_modify
    dsimp only
    rw [taken, size]
    exact roster'
  · intro ticket time joined
    cases List.mem_singleton.1 joined

/-- The turn of a timer. -/
theorem Good.timer (head : w.ready.head? = some a.thread) :
    Diary.Coming (c.host (plugin d) listeners) (Rested d ctx es) ⟨w, es⟩ := by
  have drives := h.drives member head
  have begun := (h.rests a member).begun
  obtain ⟨levels, t, holds, known, stands⟩ := (h.rests a member).stands
  -- A timer that goes on after its sleep either ends or flushes its batch.
  have woken (due : a.time + d ≤ w.clock) :
      Diary.Coming (c.host (plugin d) listeners) (Rested d ctx es)
        ⟨w.driving a.thread [] a.task (some (.going a.flushes)) (a.asleep d) w.state, es⟩ := by
    cases canceled : a.canceled with
    | false =>
      exact .after (leads_woken drives canceled) (Good.fires h roster member head canceled due)
    | true =>
      have steps : (a.stopped : T.sig.Task).step (plugin d) = (a.stopped.settle, .silent) := rfl
      refine .after (leads_stopped drives canceled) ?_
      exact Good.settles h roster member head canceled steps rfl rfl
  cases stands with
  | unborn =>
    have self : w.driving a.thread [] a.task none (a.unborn d) w.state = w :=
      World.driving_self holds known
    rw [← self]
    cases canceled : a.canceled with
    | true =>
      have steps : (a.unborn d : T.sig.Task).step (plugin d) = ((a.unborn d).settle, .silent) := by
        simp only [Task.step, Alarm.unborn, canceled, if_true]
      exact Good.settles h roster member head canceled steps rfl canceled
    | false =>
      refine .after (leads_unborn drives canceled) ?_
      by_cases long : d = 0
      · subst long
        refine .after (.single (Diary.leads_code drives (World.step_sleep_zero drives) rfl)) ?_
        exact woken begun
      · refine .quiet (by simp only [event?, World.asking?_code _ drives]) ?_
        dsimp only
        rw [World.step_sleep drives long]
        exact .of_stationed (h.sleeps member drives) roster rfl
          (Nat.le_of_eq Array.size_modify.symm)
  | asleep =>
    -- A thread that waits does not move.
    have self : w.driving a.thread [] a.task (some (.waiting fun _ => a.flushes)) (a.asleep d)
        w.state = w := World.driving_self holds known
    have idle : w.step (c.host (plugin d) listeners) = w := by
      conv_lhs => rw [← self]
      rw [World.step_driving drives, self]
      rfl
    refine .quiet ?_ ?_
    · dsimp only
      rw [← self]
      simp only [event?, World.asking?_code _ drives]
    · dsimp only
      rw [idle]
      exact .of_stationed h roster rfl (Nat.le_refl _)
  | woken due =>
    have self : w.driving a.thread [] a.task (some (.going a.flushes)) (a.asleep d) w.state = w :=
      World.driving_self holds known
    rw [← self]
    exact woken due
  | gone canceled flagged =>
    have stepped : w.step (c.host (plugin d) listeners) =
        w.endThread a.thread (.ended (.ok .null)) := by
      obtain ⟨th, found, levels⟩ := Option.map_eq_some_iff.1 holds
      obtain ⟨rest, ready⟩ := List.head?_eq_some_iff.1 head
      simp only [World.step, ready, found, levels]
      rfl
    have gone := (h.tidy.undisturbed head (Stationed.held_thread member)).ended
      (Stationed.held_thread member) (.ended (.ok .null))
    have stationed := h.ended member canceled (fun a' ha _ => h.rests a' ha) known flagged h.context
      (fun _ he => he) (Nat.le_refl _) gone
    refine .quiet (by simp only [event?, World.asking?, head, Option.bind_some, holds]) ?_
    dsimp only
    rw [stepped]
    exact .of_stationed stationed roster gone.spared.state.2 gone.spared.size

end Timers

/-- A timer whose thread is woken has slept long enough. -/
theorem Alarm.Rests.wakeUp (h : a.Rests d ctx w) {time : Nat} (later : w.clock ≤ time) :
    a.Rests d ctx ({ w with clock := time }.wake (.deadline time) (.ok .null)) := by
  obtain ⟨threads, -, eq, levels⟩ :=
    World.wake_spec { w with clock := time } (.deadline time) (.ok .null)
  generalize { w with clock := time }.wake (.deadline time) (.ok .null) = w' at eq levels
  have clock : w'.clock = time := (congrArg World.clock eq :)
  have tasks : w'.tasks = w.tasks := (congrArg World.tasks eq :)
  have still : ∀ e ∈ w'.waiting, e ∈ w.waiting := by
    rw [congrArg World.waiting eq]
    exact fun e he => (List.mem_filter.1 he).1
  have later' : w.clock ≤ w'.clock := Nat.le_trans later (Nat.le_of_eq clock.symm)
  have gets := levels a.thread
  split at gets
  case isFalse => exact h.congr gets (by rw [tasks]) (fun e he _ => still e he) later'
  case isTrue waits =>
    obtain ⟨time', timed, due⟩ := h.waits _ waits rfl
    obtain rfl : time = time' := Pending.deadline.inj timed
    obtain ⟨l, t, holds, known, stands⟩ := h.stands
    have holds' := gets.trans (congrArg (Option.map _) holds)
    refine ⟨⟨_, t, holds', by rw [tasks]; exact known, ?_⟩,
      fun e he same => h.waits e (still e he) same, Nat.le_trans h.begun later'⟩
    rw [clock]
    cases stands with
    | unborn => exact .unborn
    | asleep => exact .woken due
    | woken => exact .woken due
    | gone canceled flagged => exact .gone canceled flagged

/-- When only the clock can go on, the timers whose time has come wake up. -/
theorem Good.clock (h : Stationed d ctx crew w)
    (roster : Roster d w.tasks.size crew (tableOf ctx w) es) (idle : w.ready = []) :
    Diary.Coming (c.host (plugin d) listeners) (Rested d ctx es) ⟨w, es⟩ := by
  have quiet : event? (c.host (plugin d) listeners) w = none := by
    simp only [event?, World.asking?, idle, List.head?_nil, Option.bind_none]
  refine .quiet quiet ?_
  dsimp only
  cases next : w.nextDeadline? with
  | none =>
    have stepped : w.step (c.host (plugin d) listeners) = w := by
      simp only [World.step, idle, next]
    rw [stepped]
    exact .of_stationed h roster rfl (Nat.le_refl _)
  | some time =>
    obtain ⟨⟨e, he, timed⟩, -⟩ := World.nextDeadline?_spec next
    have later : w.clock ≤ time := h.tidy.settled.deadlines e he time timed
    obtain ⟨threads, -, eq, -⟩ :=
      World.wake_spec { w with clock := time } (.deadline time) (.ok .null)
    have state := congrArg World.state eq
    have tasks := congrArg World.tasks eq
    have rests := fun a ha => (h.rests a ha).wakeUp later
    have tidy := h.tidy.wakeUp idle next
    rw [World.step_clock _ idle next]
    generalize { w with clock := time }.wake (.deadline time) (.ok .null) = w' at *
    have stationed : Stationed d ctx crew w' :=
      ⟨tidy, by rw [state]; exact h.context, rests, h.threads, h.tasks⟩
    exact .of_stationed stationed roster (by rw [state]) (Nat.le_of_eq (by rw [tasks]))

end EffectEngine.Batch
