import EffectEngine.Proofs.Batch.Roster
import EffectEngine.Proofs.Task.Marks

/-!
# Timers that have not fired

`Alarm.Rests` says what the task and the thread of a timer are between their turns: not begun,
asleep until no earlier than the timeout after the call joined, just woken, or over after having
been cancelled. `Stationed` says that all else in the world is tidy. What a timer does in its turn
keeps this, and a timer that has been cancelled ends without flushing anything.
-/

namespace EffectEngine.Batch

open Relation

variable {T : ClientSig} {c : Client T} {listeners : List T.Listener} {ctx : ContextId}
  {d : Nat} {crew before after : List Alarm} {a a' : Alarm} {w w' : World T.sig}
  {es : List (BatchEvent T.Fn)}

namespace Alarm

/-- The operation that a timer delays. -/
def flush (a : Alarm) : T.sig.Operation :=
  .custom executeKind (.sealed a.identity (.batch a.ticket.key))

/-- What the code of a timer comes to when it wakes up. -/
def flushes (a : Alarm) : T.sig.Code (T.sig.Signal × T.sig.Gen) :=
  .done (.yielded (.operation a.flush), .library "delay" (.suspended .delay))

/-- The task of a timer that has not begun. -/
def unborn (d : Nat) (a : Alarm) : T.sig.Task :=
  ⟨a.task, a.canceled, [], .ok .null, .fresh (.operation (Delay.delay d a.flush))⟩

/-- The task of a timer that sleeps or has just been woken. -/
def asleep (d : Nat) (a : Alarm) : T.sig.Task :=
  ⟨a.task, a.canceled, [⟨.ofOpening (.delay d a.flush), "delay",
    if a.canceled then .pending else .clear, .ok .null, [], false, none⟩], .ok .null, .resuming⟩

/-- The task of a timer that is about to have its operation handled. -/
def firing (a : Alarm) : T.sig.Task :=
  ⟨a.task, false, [⟨.library "delay" (.suspended .delay), "delay", .clear, .ok .null, [], false,
    none⟩], .ok .null, .handling a.flush ⟨executeKind, [.executeBatch], 0⟩ .yielded⟩

/-- The task of a timer that has taken a batch, when it is about to offer the call of the batch to
the middleware. -/
def calling (d : Nat) (a : Alarm) (b : PendingBatch T.Fn) : T.sig.Task :=
  let slot : HandlerSlot T.sig.Mw := ⟨executeKind, [.executeBatch], 0⟩
  ⟨a.task, false, [⟨.library "execute_batch" (.suspended (.executeBatch b.promise)),
    Task.handlerName executeKind, .clear, .ok .null, [], false, some slot⟩,
    ⟨.library "delay" (.suspended .delay), "delay", .clear, .ok .null, [], false, none⟩], .ok .null,
    .offering (.call b.func b.args) ⟨callKind, [.batchCalls d], 0⟩ (some slot) .yielded⟩

/-- The task of a timer that was cancelled, when its only frame has gone. -/
def stopped (a : Alarm) : T.sig.Task := ⟨a.task, true, [], .ok .null, .ready⟩

/-- Where a timer stands. -/
inductive Whereabouts (d clock : Nat) (a : Alarm) : List (Level T.sig) → T.sig.Task → Prop
  | unborn : Whereabouts d clock a [.task a.task none] (a.unborn d)
  | asleep : Whereabouts d clock a [.task a.task (some (.waiting fun _ => a.flushes))] (a.asleep d)
  | woken (due : a.time + d ≤ clock) :
    Whereabouts d clock a [.task a.task (some (.going a.flushes))] (a.asleep d)
  | gone {t : T.sig.Task} (canceled : a.canceled = true) (same : t.canceled = true) :
    Whereabouts d clock a [] t

structure Rests (d : Nat) (ctx : ContextId) (w : World T.sig) (a : Alarm) : Prop where
  stands : ∃ levels t, w.levels? a.thread = some levels ∧
    w.tasks[a.task.index]? = some (t, ctx) ∧ Whereabouts d w.clock a levels t
  waits : ∀ e ∈ w.waiting, e.1.index = a.thread.index →
    ∃ time, e.2 = .deadline time ∧ a.time + d ≤ time
  begun : a.time ≤ w.clock

theorem Rests.congr (h : a.Rests d ctx w) (levels : w'.levels? a.thread = w.levels? a.thread)
    (task : w'.tasks[a.task.index]? = w.tasks[a.task.index]?)
    (waiting : ∀ e ∈ w'.waiting, e.1.index = a.thread.index → e ∈ w.waiting)
    (clock : w.clock ≤ w'.clock) : a.Rests d ctx w' := by
  obtain ⟨l, t, holds, known, stands⟩ := h.stands
  refine ⟨⟨l, t, levels.trans holds, task.trans known, ?_⟩,
    fun e he same => h.waits e (waiting e he same) same, Nat.le_trans h.begun clock⟩
  cases stands with
  | unborn => exact .unborn
  | asleep => exact .asleep
  | woken due => exact .woken (Nat.le_trans due clock)
  | gone canceled same => exact .gone canceled same

theorem Rests.task? (h : a.Rests d ctx w) :
    ∃ t, w.tasks[a.task.index]? = some (t, ctx) ∧ t.canceled = a.canceled := by
  obtain ⟨levels, t, -, known, stands⟩ := h.stands
  refine ⟨t, known, ?_⟩
  cases stands with
  | unborn | asleep | woken => rfl
  | gone canceled same => exact same.trans canceled.symm

theorem Rests.canceled? (h : a.Rests d ctx w) : w.canceled? a.task = some a.canceled := by
  obtain ⟨t, known, same⟩ := h.task?
  simp only [World.canceled?, World.task?, known, Option.map_some, same]

/-- Unless a timer comes to be cancelled, its task is as it was. -/
theorem Rests.heeded (h : a.Rests d ctx w)
    (heeded : World.Heeded w.tasks[a.task.index]? w'.tasks[a.task.index]?)
    (calm : a.canceled = false → w'.canceled? a.task = some false) :
    w'.tasks[a.task.index]? = w.tasks[a.task.index]? := by
  obtain ⟨t, known, same⟩ := h.task?
  cases canceled : a.canceled with
  | true =>
    rcases heeded with same' | asked
    · exact same'
    · have refused : (t.isSettled || t.canceled) = true := by rw [same, canceled, Bool.or_true]
      rw [asked, known]
      exact congrArg (fun asked => some (asked.2, ctx)) (Task.requestCancel_of_refused refused)
  | false =>
    exact heeded.eq_of_uncanceled ((Option.map_map ..).symm.trans (calm canceled))

end Alarm

def reserve (crew : List Alarm) : Reserve :=
  ⟨fun i => ∃ a ∈ crew, a.task.index = i, fun i => ∃ a ∈ crew, a.thread.index = i⟩

/-- All timers of the crew rest, and all else is tidy. -/
structure Stationed (d : Nat) (ctx : ContextId) (crew : List Alarm) (w : World T.sig) : Prop where
  tidy : World.Tidy (conduct T ctx d) (reserve crew) w
  context : ctx.index < w.state.contexts.size
  rests : ∀ a ∈ crew, a.Rests d ctx w
  threads : (crew.map (·.thread.index)).Nodup
  tasks : (crew.map (·.task.index)).Nodup

namespace Stationed

theorem held_thread (member : a ∈ crew) : (reserve crew).threads a.thread.index := ⟨a, member, rfl⟩

theorem held_task (member : a ∈ crew) : (reserve crew).tasks a.task.index := ⟨a, member, rfl⟩

theorem other_thread (h : Stationed d ctx crew w) (ha : a ∈ crew) (ha' : a' ∈ crew)
    (different : a' ≠ a) : a'.thread.index ≠ a.thread.index :=
  fun same => different (List.inj_on_of_nodup_map h.threads ha' ha same)

theorem other_task (h : Stationed d ctx crew w) (ha : a ∈ crew) (ha' : a' ∈ crew)
    (different : a' ≠ a) : a'.task.index ≠ a.task.index :=
  fun same => different (List.inj_on_of_nodup_map h.tasks ha' ha same)

theorem drives (h : Stationed d ctx crew w) (member : a ∈ crew)
    (head : w.ready.head? = some a.thread) : w.Drives a.thread a.task ctx := by
  obtain ⟨levels, t, -, known, -⟩ := (h.rests a member).stands
  exact ⟨head, h.tidy.settled.threadsBound _ (held_thread member), t, known⟩

/-- Other threads have moved, and cancelled none of the timers. -/
theorem elsewhere (h : Stationed d ctx crew w)
    (moved : World.Moved (conduct T ctx d) (reserve crew) w w')
    (calm : ∀ a ∈ crew, a.canceled = false → w'.canceled? a.task = some false) :
    Stationed d ctx crew w' := by
  obtain ⟨tidy, spared⟩ := moved
  refine ⟨tidy, Nat.lt_of_lt_of_le h.context spared.state.1, fun a ha => ?_, h.threads, h.tasks⟩
  have task := (h.rests a ha).heeded (spared.tasks _ (held_task ha)) (calm a ha)
  refine (h.rests a ha).congr ?_ task (fun e he same => ?_) ?_
  · exact congrArg (Option.map _) (spared.threads _ (held_thread ha))
  · exact spared.waits e he (same ▸ held_thread ha)
  · exact Nat.le_of_eq spared.clock.symm

/-- The timers that have not been cancelled are live. -/
theorem calm (h : Stationed d ctx crew w) {n : Nat} {table : BatchTable T.Fn}
    (roster : Roster d n crew table es) {host : Host T.sig}
    (spares : Diary.SparesTimers host ⟨w, es⟩) :
    ∀ a ∈ crew, a.canceled = false → (w.step host).canceled? a.task = some false := by
  intro a ha calm
  refine spares a.ticket.key a.task ⟨⟨a.ticket, roster.forked a ha, BEq.rfl⟩, ?_,
    roster.unflushed a ha⟩
  exact calm ▸ (h.rests a ha).canceled?

/-- A timer moves: all others rest. -/
theorem driving (h : Stationed d ctx crew w) (member : a ∈ crew)
    (drives : w.Drives a.thread a.task ctx) {flow : Option (Flow T.sig (T.sig.Signal × T.sig.Gen))}
    {t : T.sig.Task} :
    let w' := w.driving a.thread [] a.task flow t w.state
    World.Tidy (conduct T ctx d) (reserve crew) w' ∧
      ∀ a' ∈ crew, a' ≠ a → a'.Rests d ctx w' := by
  intro w'
  have bound := h.tidy.settled.tasksBound _ (held_task member)
  have engaged : World.Engaged (conduct T ctx d) (reserve crew) a.thread a.task w' :=
    ((h.tidy.kept drives.head).engaged bound).driving drives
  refine ⟨engaged.tidy (World.task_driving drives) ?_ (World.levels?_driving drives) ?_, ?_⟩
  · exact fun free => absurd (held_task member) free
  · exact fun free => absurd (held_thread member) free
  · intro a' ha different
    refine (h.rests a' ha).congr ?_ ?_ (fun e he _ => he) (Nat.le_refl _)
    · exact World.levels?_driving_other (h.other_thread member ha different)
    · exact World.task_driving_other (h.other_task member ha different)

theorem of_others (a : Alarm) (tidy : World.Tidy (conduct T ctx d) (reserve crew) w')
    (context : ctx.index < w'.state.contexts.size)
    (others : ∀ a' ∈ crew, a' ≠ a → a'.Rests d ctx w') (rests : a.Rests d ctx w')
    (threads : (crew.map (·.thread.index)).Nodup) (tasks : (crew.map (·.task.index)).Nodup) :
    Stationed d ctx crew w' := by
  refine ⟨tidy, context, fun a' ha => ?_, threads, tasks⟩
  by_cases same : a' = a
  · exact same ▸ rests
  · exact others a' ha same

/-- The thread of a timer that was cancelled has ended. -/
theorem ended (h : Stationed d ctx crew w) (member : a ∈ crew) (canceled : a.canceled = true)
    {w₁ : World T.sig} (others : ∀ a' ∈ crew, a' ≠ a → a'.Rests d ctx w₁) {t : T.sig.Task}
    (known : w₁.tasks[a.task.index]? = some (t, ctx)) (flagged : t.canceled = true)
    (context : ctx.index < w₁.state.contexts.size)
    (waits : ∀ e ∈ w₁.waiting, e ∈ w.waiting) (clock : w.clock ≤ w₁.clock)
    (gone : World.Ended (conduct T ctx d) (reserve crew) a.thread w₁ w') :
    Stationed d ctx crew w' := by
  obtain ⟨tidy', spared, tasks, levels, waits'⟩ := gone
  have clock' : w₁.clock = w'.clock := spared.clock.symm
  refine of_others a tidy' (Nat.lt_of_lt_of_le context spared.state.1)
    (fun a' ha different => ?_) ?_ h.threads h.tasks
  · have other := h.other_thread member ha different
    refine (others a' ha different).congr ?_ (by rw [tasks]) (fun e he same => ?_)
      (Nat.le_of_eq clock')
    · exact congrArg (Option.map _) (spared.threads _ ⟨held_thread ha, other⟩)
    · exact waits' e he (same ▸ held_thread ha)
  · refine ⟨⟨[], t, levels, ?_, .gone canceled flagged⟩, fun e he same => ?_, ?_⟩
    · rw [tasks]
      exact known
    · have waits := waits e (waits' e he (same ▸ held_thread member))
      exact (h.rests a member).waits e waits same
    · exact clock' ▸ Nat.le_trans (h.rests a member).begun clock

/-- A timer goes to sleep. -/
theorem sleeps (h : Stationed d ctx crew w) (member : a ∈ crew)
    (drives : w.Drives a.thread a.task ctx) :
    Stationed d ctx crew ((w.driving a.thread [] a.task (some (.waiting fun _ => a.flushes))
      (a.asleep d) w.state).block a.thread (.deadline (w.clock + d))) := by
  let w₁ := w.driving a.thread [] a.task (some (.waiting fun _ => a.flushes)) (a.asleep d) w.state
  have moved : World.Tidy (conduct T ctx d) (reserve crew) w₁ ∧
      ∀ a' ∈ crew, a' ≠ a → a'.Rests d ctx w₁ := h.driving member drives
  have head : w₁.ready.head? = some a.thread := drives.head
  have slept := moved.1.sleep head (held_thread member) (Nat.le_add_right w.clock d)
  have begun := (h.rests a member).begun
  refine of_others a slept h.context (fun a' ha different => ?_) ?_ h.threads h.tasks
  · refine (moved.2 a' ha different).congr rfl rfl (fun e he same => ?_) (Nat.le_refl _)
    refine (List.mem_append.1 he).resolve_right fun new => ?_
    rw [List.mem_singleton.1 new] at same
    exact h.other_thread member ha different same.symm
  · refine ⟨⟨_, _, ?_, ?_, .asleep⟩, ?_, begun⟩
    · exact World.levels?_driving drives (s := w.state)
    · exact World.task_driving drives (s := w.state)
    intro e he same
    rcases List.mem_append.1 he with he | new
    · exact (h.rests a member).waits e he same
    · rw [List.mem_singleton.1 new]
      exact ⟨_, rfl, Nat.add_le_add_right begun d⟩

/-- A timer goes on. -/
theorem wakes (h : Stationed d ctx crew w) (member : a ∈ crew)
    (drives : w.Drives a.thread a.task ctx) (due : a.time + d ≤ w.clock) :
    Stationed d ctx crew (w.driving a.thread [] a.task (some (.going a.flushes)) (a.asleep d)
      w.state) := by
  obtain ⟨tidy, others⟩ := h.driving member drives
  refine of_others a tidy h.context others ⟨⟨_, _, World.levels?_driving drives,
    World.task_driving drives, .woken due⟩, ?_, ?_⟩ h.threads h.tasks
  · exact (h.rests a member).waits
  · exact (h.rests a member).begun

end Stationed

/-- All timers rest, and the events so far are in order. -/
def Good (d : Nat) (ctx : ContextId) (r : Diary T) : Prop :=
  ∃ crew, Stationed d ctx crew r.world ∧
    Roster d r.world.tasks.size crew (tableOf ctx r.world) r.events

/-- All timers rest again. If a call has joined a batch meanwhile, it has just come to wait. -/
structure Rested (d : Nat) (ctx : ContextId) (es : List (BatchEvent T.Fn)) (r : Diary T) :
    Prop where
  good : Good d ctx r
  joined : r.world.aboutToWait = true ∨
    ∃ more, r.events = es ++ more ∧ ∀ ticket time, .joined ticket time ∉ more

/-- A world with the same table and all tasks is as good. -/
theorem Rested.of_stationed {w' : World T.sig} (stationed : Stationed d ctx crew w')
    (roster : Roster d w.tasks.size crew (tableOf ctx w) es)
    (table : table? (ctx.slots w'.state) = table? (ctx.slots w.state))
    (size : w.tasks.size ≤ w'.tasks.size) : Rested d ctx es ⟨w', es⟩ := by
  have same : tableOf ctx w' = tableOf ctx w := by simp only [tableOf, table]
  refine ⟨⟨crew, stationed, same ▸ roster.mono size⟩, .inr ⟨[], ?_, fun _ _ => List.not_mem_nil⟩⟩
  exact (List.append_nil es).symm

/-! ### The turns of a timer -/

section Turns

variable (drives : w.Drives a.thread a.task ctx)
include drives

/-- A timer that has not been cancelled before its first turn begins to sleep. -/
theorem leads_unborn (calm : a.canceled = false) {s : T.sig.State} :
    ReflTransGen (Diary.Leads (c.host (plugin d) listeners))
      ⟨w.driving a.thread [] a.task none (a.unborn d) s, es⟩
      ⟨w.driving a.thread [] a.task
        (some (.going (.perform (.wait (.sleep d)) fun _ => a.flushes))) (a.asleep d) s, es⟩ := by
  let root : T.sig.Operation := Delay.delay d a.flush
  let g : T.sig.Gen := .ofOpening (.delay d a.flush)
  let frame : Frame T.sig.Gen T.sig.Fn T.sig.Mw := ⟨g, "delay", .clear, .ok .null, [], false, none⟩
  let task (frames : List (Frame T.sig.Gen T.sig.Fn T.sig.Mw)) (stage) : T.sig.Task :=
    ⟨a.task, false, frames, .ok .null, stage⟩
  let registry : Registry T.sig.Mw := plugin d
  have begins : (task [] (.fresh (.operation root))).step registry =
      (task [] (.dispatching (.operation root) none .yielded), .silent) := rfl
  have dispatches : (task [] (.dispatching (.operation root) none .yielded)).step registry =
      (task [] (.offering root ⟨EffectEngine.executeKind, [], 0⟩ none .yielded), .silent) := rfl
  have pushes :
      (task [] (.offering root ⟨EffectEngine.executeKind, [], 0⟩ none .yielded)).step registry =
        (task [frame] (.dispatched (.ok ()) .yielded), .silent) := rfl
  have concludes : (task [frame] (.dispatched (.ok ()) .yielded)).step registry =
      (task [frame] .ready, .silent) := rfl
  have resumes : (task [frame] .ready).step registry =
      (task [frame] .resuming, .resume g (.next .null)) := rfl
  have born : a.unborn d = task [] (.fresh (.operation root)) := by
    simp only [Alarm.unborn, calm, task, root]
  have sleeps : a.asleep d = task [frame] .resuming := by
    simp [Alarm.asleep, calm, task, frame, g]
  have code : (c.host (plugin d) listeners).resume g (.next .null) =
      .perform (.wait (.sleep d)) fun _ => a.flushes := rfl
  rw [born, sleeps, ← code]
  refine .head (Diary.leads_silent drives begins rfl) ?_
  refine .head (Diary.leads_silent drives dispatches rfl) ?_
  refine .head (Diary.leads_silent drives pushes rfl) ?_
  refine .head (Diary.leads_silent drives concludes rfl) ?_
  exact .single (Diary.leads_resume drives resumes rfl)

/-- A timer that wakes up has its operation handled. -/
theorem leads_woken (calm : a.canceled = false) {s : T.sig.State} :
    ReflTransGen (Diary.Leads (c.host (plugin d) listeners))
      ⟨w.driving a.thread [] a.task (some (.going a.flushes)) (a.asleep d) s, es⟩
      ⟨w.driving a.thread [] a.task none a.firing s, es⟩ := by
  let g : T.sig.Gen := .library "delay" (.suspended .delay)
  let frame : Frame T.sig.Gen T.sig.Fn T.sig.Mw := ⟨g, "delay", .clear, .ok .null, [], false, none⟩
  let slot : HandlerSlot T.sig.Mw := ⟨executeKind, [.executeBatch], 0⟩
  let task (stage) : T.sig.Task := ⟨a.task, false, [frame], .ok .null, stage⟩
  let registry : Registry T.sig.Mw := plugin d
  have yields : World.taskResumed (a.asleep d) (.yielded (.operation a.flush)) g =
      task (.dispatching (.operation a.flush) none .yielded) := by
    rw [Alarm.asleep, calm]
    rfl
  have dispatches : (task (.dispatching (.operation a.flush) none .yielded)).step registry =
      (task (.offering a.flush slot none .yielded), .silent) := rfl
  have offers : (task (.offering a.flush slot none .yielded)).step registry =
      (task (.offering a.flush slot none .yielded), .filter .executeBatch a.flush) := rfl
  have accepts : (task (.offering a.flush slot none .yielded)).filtered true = a.firing := rfl
  refine .head (Diary.leads_done drives yields) ?_
  refine .head (Diary.leads_silent drives dispatches rfl) ?_
  rw [← accepts]
  exact .single (Diary.leads_filter drives offers rfl rfl)

/-- A timer that has taken a batch goes on to call its function. -/
theorem leads_calling (b : PendingBatch T.Fn) {s : T.sig.State} :
    ReflTransGen (Diary.Leads (c.host (plugin d) listeners))
      ⟨w.driving a.thread [] a.task none
        (a.firing.handled (.ok (.ofOpening (.executeBatch (some b))))) s, es⟩
      ⟨w.driving a.thread [] a.task none (a.calling d b) s, es⟩ := by
  let g : T.sig.Gen := .library "execute_batch" (.created (.executeBatch (some b)))
  let g' : T.sig.Gen := .library "execute_batch" (.suspended (.executeBatch b.promise))
  let slot : HandlerSlot T.sig.Mw := ⟨executeKind, [.executeBatch], 0⟩
  let call : T.sig.Operation := .call b.func b.args
  let task (g : T.sig.Gen) (stage) : T.sig.Task :=
    ⟨a.task, false, [⟨g, Task.handlerName executeKind, .clear, .ok .null, [], false, some slot⟩,
      ⟨.library "delay" (.suspended .delay), "delay", .clear, .ok .null, [], false, none⟩],
      .ok .null, stage⟩
  let registry : Registry T.sig.Mw := plugin d
  have concludes : (task g (.dispatched (.ok ()) .yielded)).step registry =
      (task g .ready, .silent) := rfl
  have resumes : (task g .ready).step registry = (task g .resuming, .resume g (.next .null)) := rfl
  have code : (c.host (plugin d) listeners).resume g (.next .null) =
      .done (.yielded (.operation call), g') := rfl
  have yields : World.taskResumed (task g .resuming) (.yielded (.operation call)) g' =
      task g' (.dispatching (.operation call) (some slot) .yielded) := rfl
  have dispatches : (task g' (.dispatching (.operation call) (some slot) .yielded)).step registry =
      (a.calling d b, .silent) := rfl
  refine .head (Diary.leads_silent drives concludes rfl) ?_
  refine .head (Diary.leads_resume drives resumes rfl) ?_
  rw [code]
  refine .head (Diary.leads_done drives yields) ?_
  exact .single (Diary.leads_silent drives dispatches rfl)

/-- A timer that wakes up after it has been cancelled is forced to return. -/
theorem leads_stopped (canceled : a.canceled = true) {s : T.sig.State} :
    ReflTransGen (Diary.Leads (c.host (plugin d) listeners))
      ⟨w.driving a.thread [] a.task (some (.going a.flushes)) (a.asleep d) s, es⟩
      ⟨w.driving a.thread [] a.task none a.stopped s, es⟩ := by
  let rest : T.sig.Gen := .library "delay" (.suspended .delay)
  let g : T.sig.Gen := .library "delay" .finished
  let frame (g : T.sig.Gen) (mark : Mark) (completed : Bool) :
    Frame T.sig.Gen T.sig.Fn T.sig.Mw := ⟨g, "delay", mark, .ok .null, [], completed, none⟩
  let task (frames) (stage) : T.sig.Task := ⟨a.task, true, frames, .ok .null, stage⟩
  let registry : Registry T.sig.Mw := plugin d
  have drops : World.taskResumed (a.asleep d) (.yielded (.operation a.flush)) rest =
      task [frame rest .pending false] .ready := by
    rw [Alarm.asleep, canceled]
    rfl
  have forces : (task [frame rest .pending false] .ready).step registry =
      (task [frame rest .forced false] .resuming, .resume rest .forcedReturn) := rfl
  have returns : (c.host (plugin d) listeners).resume rest .forcedReturn =
      .done (.complete (.error .interrupted), g) := rfl
  have completes : World.taskResumed (task [frame rest .forced false] .resuming)
      (.complete (.error .interrupted)) g = task [frame g .forced true] .unwinding := rfl
  have unwinds : (task [frame g .forced true] .unwinding).step registry =
      (a.stopped, .silent) := rfl
  refine .head (Diary.leads_done drives drops) ?_
  refine .head (Diary.leads_resume drives forces rfl) ?_
  rw [returns]
  refine .head (Diary.leads_done drives completes) ?_
  exact .single (Diary.leads_silent drives unwinds rfl)

end Turns

end EffectEngine.Batch
