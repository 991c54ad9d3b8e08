import EffectEngine.Proofs.Batch.Rounds
import EffectEngine.Proofs.Task.Turn

/-!
# A call joins a batch

What the task of a call does once its call has joined a batch is the same whatever else is on its
stack: it forks a timer, arms it and then waits for the batch. All this is one turn, at the end of
which there is one more timer that rests, and the one that it replaces has been cancelled.
-/

namespace EffectEngine

namespace World

variable {S : Sig} {w : World S} {id : ThreadId} {task timer : TaskId} {ctx : S.Ctx}

theorem Drives.spawn (h : w.Drives id task ctx) (ctx' : S.Ctx) (root : S.Yielded) :
    (w.spawn ctx' root).2.Drives id task ctx := by
  obtain ⟨head, thread, t, known⟩ := h
  have bound := (Array.getElem?_eq_some_iff.1 known).1
  refine ⟨?_, ?_, t, ?_⟩
  · show (w.ready ++ [_]).head? = some id
    rw [List.head?_append, head]
    rfl
  · show id.index < (w.threads.push _).size
    rw [Array.size_push]
    exact Nat.lt_succ_of_lt thread
  · show (w.tasks.push _)[task.index]? = some (t, ctx)
    rw [Array.getElem?_push, if_neg (Nat.ne_of_lt bound)]
    exact known

theorem Drives.requestCancel (h : w.Drives id task ctx) (timer : TaskId) :
    (w.requestCancel timer).2.Drives id task ctx := by
  obtain ⟨head, thread, t, known⟩ := h
  obtain ⟨tasks, -, eq, changed, same⟩ := requestCancel_spec w timer
  rw [eq]
  refine ⟨head, thread, ?_⟩
  by_cases other : task.index = timer.index
  · rw [other] at known ⊢
    exact ⟨_, changed.trans (congrArg _ known)⟩
  · exact ⟨t, (same _ other).trans known⟩

theorem canceled?_modifyTask {change : S.Task → S.Task}
    (keeps : ∀ t, (change t).canceled = t.canceled) :
    (w.modifyTask task change).canceled? timer = w.canceled? timer := by
  simp only [canceled?, task?, modifyTask, Array.getElem?_modify]
  split
  · cases w.tasks[timer.index]? with
    | none => rfl
    | some e => exact congrArg some (keeps e.1)
  · rfl

/-- Cancels a task, if there is one to cancel. -/
def cancelIf (task? : Option TaskId) (w : World S) : World S :=
  task?.elim w fun task => (w.requestCancel task).2

theorem Drives.cancelIf (h : w.Drives id task ctx) (task? : Option TaskId) :
    (w.cancelIf task?).Drives id task ctx := by
  cases task? with
  | none => exact h
  | some timer => exact h.requestCancel timer

theorem size_cancelIf (task? : Option TaskId) : (w.cancelIf task?).tasks.size = w.tasks.size := by
  cases task? with
  | none => rfl
  | some timer =>
    obtain ⟨tasks, size, eq, -⟩ := requestCancel_spec w timer
    rw [← size]
    exact congrArg (Array.size ∘ World.tasks) eq

end World

namespace Task

variable {G F M : Type} {t : Task G F M} {purpose : Purpose}

theorem canceled_handled (t : Task G F M) (result : Except Error G) :
    (t.handled result).canceled = t.canceled := by
  unfold handled
  split
  · split <;> rfl
  · rfl

/-- A frame that is pushed by a dispatch is resumed next. -/
theorem conclude_push (h : t.Coherent) (underway : t.stage.underway? = some purpose) (g : G)
    (name : String) (slot : Option (HandlerSlot M)) :
    ∃ fs, (t.push g name slot purpose).conclude (.ok ()) purpose = ⟨t.id, t.canceled,
        ⟨g, name, .pushed purpose.shields t.canceled (t.frames.head?.map (·.mark)), .ok .null, [],
          false, slot⟩ :: fs, t.root, .ready⟩ ∧
      fs.map Permits.holding = t.frames.map Permits.holding := by
  have fits := h.underway purpose underway
  cases purpose with
  | yielded => exact ⟨t.frames, rfl, rfl⟩
  | deferred level prior =>
    obtain ⟨f, rest, frames, -, rfl⟩ := fits
    refine ⟨{ f with result := prior } :: rest, ?_, by rw [frames]; rfl⟩
    simp [Task.conclude, Task.push, atLevel, frames, Frame.afterDefer]

end Task

namespace Batch

open Relation

variable {T : ClientSig} {c : Client T} {listeners : List T.Listener} {ctx : ContextId}
  {d : Nat} {crew : List Alarm} {a : Alarm} {w w' : World T.sig} {es : List (BatchEvent T.Fn)}
  {id : ThreadId} {task : TaskId} {below : List (Level T.sig)} {s : T.sig.State}

/-- The task of a call that has joined a batch, apart from what the call itself does. -/
structure Caller (T : ClientSig) where
  id : TaskId
  root : Outcome
  mark : Mark
  slot : HandlerSlot T.sig.Mw
  frames : List (Frame T.sig.Gen T.sig.Fn T.sig.Mw)

namespace Caller

variable (k : Caller T)

/-- The task, given the generator of the call and what that is due. -/
def doing (g : T.sig.Gen) (result : Outcome) (stage : Stage T.sig.Gen T.sig.Fn T.sig.Mw) :
    T.sig.Task :=
  ⟨k.id, false, ⟨g, Task.handlerName k.slot.kind, k.mark, result, [], false, some k.slot⟩ ::
    k.frames, k.root, stage⟩

end Caller

section Turns

variable {k : Caller T} {ticket : BatchTicket} (drives : w.Drives id task ctx)
  (calm : k.mark ≠ .pending)
include drives calm

/-- A call that has joined asks for its timer. -/
theorem leads_started :
    let flush : T.sig.Operation :=
      .custom executeKind (.sealed s.allocations (.batch ticket.key))
    let root : T.sig.Operation := Delay.delay ticket.timeout flush
    ReflTransGen (Diary.Leads (c.host (plugin d) listeners))
      ⟨w.driving id below task none
        (k.doing (callGen (.created (.batch ticket))) (.ok .null) .ready) s, es⟩
      ⟨w.driving id below task none
        (k.doing (callGen (.suspended (.batch ticket))) (.ok .null)
          (.offering (.fork root) ⟨forkKind, [], 0⟩ (some k.slot) .yielded))
        s.nextAllocation.2, es⟩ := by
  intro flush root
  let host := c.host (plugin d) listeners
  let created : T.sig.Gen := callGen (.created (.batch ticket))
  let suspended : T.sig.Gen := callGen (.suspended (.batch ticket))
  have calm : (k.mark == .pending) = false := by simpa using calm
  have resumes : (k.doing created (.ok .null) .ready).step host.registry =
      (k.doing created (.ok .null) .resuming, .resume created (.next .null)) := by
    simp only [Caller.doing, Task.step, Task.resumeTop, calm]
    rfl
  have yields : World.taskResumed (k.doing created (.ok .null) .resuming)
      (.yielded (.operation (.fork root))) suspended = k.doing suspended (.ok .null)
        (.dispatching (.operation (.fork root)) (some k.slot) .yielded) := by
    simp only [Caller.doing, World.taskResumed, Task.resumed, calm]
    rfl
  have dispatches : (k.doing suspended (.ok .null)
      (.dispatching (.operation (.fork root)) (some k.slot) .yielded)).step host.registry =
      (k.doing suspended (.ok .null)
        (.offering (.fork root) ⟨forkKind, [], 0⟩ (some k.slot) .yielded), .silent) := rfl
  refine .head (Diary.leads_resume drives resumes rfl) ?_
  refine .head (Diary.leads_get drives) ?_
  refine .head (Diary.leads_put drives) ?_
  refine .head (Diary.leads_done drives yields) ?_
  exact .single (Diary.leads_silent drives dispatches rfl)

omit calm in
/-- The timer of a call is forked. -/
theorem leads_forked {inner : T.sig.Operation} :
    Diary.Leads (c.host (plugin d) listeners)
      ⟨w.driving id below task none (k.doing (callGen (.suspended (.batch ticket))) (.ok .null)
        (.offering (.fork inner) ⟨forkKind, [], 0⟩ (some k.slot) .yielded)) s, es⟩
      ⟨(w.spawn ctx (.operation inner)).2.driving id below task none
        (k.doing (callGen (.suspended (.batch ticket))) (.ok (.task ⟨w.tag, w.tasks.size⟩))
          (.dispatched (.ok ()) .yielded)) s,
        es ++ [.forked ticket ⟨w.tag, w.tasks.size⟩]⟩ := by
  let host := c.host (plugin d) listeners
  let suspended : T.sig.Gen := callGen (.suspended (.batch ticket))
  let asking (stage) : T.sig.Task := k.doing suspended (.ok .null) stage
  have steps : (asking (.offering (.fork inner) ⟨forkKind, [], 0⟩ (some k.slot) .yielded)).step
      host.registry = (asking (.forking .yielded), .fork inner) := rfl
  let w₁ := w.driving id below task none
    (asking (.offering (.fork inner) ⟨forkKind, [], 0⟩ (some k.slot) .yielded)) s
  have happened : event? host w₁ = some (.forked ticket ⟨w.tag, w.tasks.size⟩) := by
    have asks : w₁.asking? host = some (task, ctx, .fork inner) := by
      rw [World.asking?_driving host drives]
      exact congrArg (fun move => some (task, ctx, move.2)) steps
    have known : w₁.task? task = some (asking
        (.offering (.fork inner) ⟨forkKind, [], 0⟩ (some k.slot) .yielded)) :=
      congrArg (Option.map Prod.fst) (World.task_driving drives)
    have size : w₁.tasks.size = w.tasks.size := Array.size_modify
    simp only [event?, asks, known, size]
    rfl
  have forks : w₁.step host = (w.spawn ctx (.operation inner)).2.driving id below task none
      ((asking (.forking .yielded)).forked ⟨w.tag, w.tasks.size⟩) s :=
    World.step_fork drives steps rfl
  refine ⟨?_, ?_, Diary.executes_of_event happened fun _ _ _ flushes => by cases flushes⟩
  · rw [Diary.tick, happened]
    exact congrArg (Diary.mk · _) forks
  · obtain ⟨rest, ready⟩ := List.head?_eq_some_iff.1 drives.head
    show (w.ready ++ [_]).head? = w.ready.head?
    rw [ready]
    rfl

/-- A call that has got its timer arms it, cancels the one that it replaces and is about to wait. -/
theorem leads_armed {timer : TaskId}
    (other : ∀ old ∈ ((table? (ticket.ctx.slots s)).getD .empty).arm ticket.key
      ticket.seat.generation timer |>.1, old.index ≠ task.index) :
    let armed := ((table? (ticket.ctx.slots s)).getD .empty).arm ticket.key
      ticket.seat.generation timer
    TransGen (Diary.Leads (c.host (plugin d) listeners))
      ⟨w.driving id below task none (k.doing (callGen (.suspended (.batch ticket)))
        (.ok (.task timer)) (.dispatched (.ok ()) .yielded)) s, es⟩
      ⟨(w.cancelIf armed.1).driving id below task
        (some (.going (.perform (.wait (.promise ticket.seat.promise)) fun outcome =>
          .done (finished (selectFrom ticket.seat.index outcome) "batch"))))
        (k.doing (callGen (.suspended (.batch ticket))) (.ok .null) .resuming)
        (ticket.ctx.setSlots (setTable (ticket.ctx.slots s) armed.2) s), es⟩ := by
  intro armed
  let host := c.host (plugin d) listeners
  let suspended : T.sig.Gen := callGen (.suspended (.batch ticket))
  have calm : (k.mark == .pending) = false := by simpa using calm
  have concludes : (k.doing suspended (.ok (.task timer)) (.dispatched (.ok ()) .yielded)).step
      host.registry = (k.doing suspended (.ok (.task timer)) .ready, .silent) := rfl
  have resumes : (k.doing suspended (.ok (.task timer)) .ready).step host.registry =
      (k.doing suspended (.ok .null) .resuming, .resume suspended (.next (.task timer))) := by
    simp only [Caller.doing, Task.step, Task.resumeTop, calm]
    rfl
  refine .head' (Diary.leads_silent drives concludes rfl) ?_
  refine .head (Diary.leads_resume drives resumes rfl) ?_
  refine .head (Diary.leads_get drives) ?_
  let s' := ticket.ctx.setSlots (setTable (ticket.ctx.slots s) armed.2) s
  let pause (_ : Unit) : T.sig.Code (Pause T.sig.Yielded Midway) :=
    .perform (.wait (.promise ticket.seat.promise)) fun results =>
      .done (.finish (selectFrom ticket.seat.index results))
  let code (replaced : Option TaskId) : T.sig.Code (T.sig.Signal × T.sig.Gen) :=
    (((cancelReplaced replaced).bind pause).bind fun pause => .done (Coroutine.settle pause)).bind
      fun r => .done (r.1, .library "batch" r.2)
  refine .head (Diary.leads_put drives) ?_
  change ReflTransGen _ (Diary.mk (w.driving id below task (some (.going (code armed.1)))
    (k.doing suspended (.ok .null) .resuming) s') es) _
  cases replaced : armed.1 with
  | none => exact .refl
  | some old =>
    refine .single (Diary.leads_code drives
      (World.step_requestCancel drives (other old replaced)) ?_)
    exact (drives.requestCancel old).head.trans drives.head.symm

end Turns

/-! ### Joining -/

/-- Getting a seat changes the state, and makes a promise. -/
theorem runSync_enqueue_world (key : BatchKey) (func : T.Fn) (args : List Value) :
    ∃ s, (w.runSync (enqueue ctx key func args)).2 =
      { w with state := s, promises := w.promises.push none } := by
  have got : w.runSync (ctx.get? .batches) = (.ok (table? (ctx.slots w.state)),
      { w with state := ctx.setSlots (ctx.slots w.state) w.state }) := rfl
  have ensured : ∃ t s, w.runSync (ensureTable (φ := T.Target) (κ := T.Grouping) ctx) =
      (.ok t, { w with state := s }) := by
    cases found : table? (ctx.slots w.state) with
    | none =>
      rw [found] at got
      exact ⟨_, _, (World.runSync_bind _ _ got).trans rfl⟩
    | some t =>
      rw [found] at got
      exact ⟨_, _, (World.runSync_bind _ _ got).trans rfl⟩
  obtain ⟨t, s, ensured⟩ := ensured
  exact ⟨_, congrArg Prod.snd ((World.runSync_bind _ _ ensured).trans rfl)⟩

/-- A call with a truthy key joins a batch; only the state changes, and there is a new promise. -/
theorem runSync_joins {func underlying : T.Fn} {grouping : T.Grouping} {args : List Value}
    {key : Value} (batched : func.batched? = some (underlying, grouping))
    (keyed : w.runSync (c.key grouping args) = (.ok key, w')) (truthy : key.isTruthy = true)
    (h : ctx.index < w'.state.contexts.size) :
    let batchKey : BatchKey := ⟨underlying.identity, key.key⟩
    let placed := (tableOf ctx w').enqueue batchKey underlying args ⟨w'.promises.size⟩
    ∃ s, w.runSync (c.handleMw (.batchCalls d) (.call func args) ctx) =
        (.ok (.ok (callGen (.created (.batch ⟨ctx, batchKey, placed.1, d⟩)))),
          { w' with state := s, promises := w'.promises.push none }) ∧
      s.contexts.size = w'.state.contexts.size ∧
      (table? (ctx.slots s)).getD .empty = placed.2 := by
  intro batchKey placed
  obtain ⟨w'', enqueued, leaves⟩ := runSync_enqueue h batchKey underlying args
  obtain ⟨s, eq⟩ := runSync_enqueue_world (w := w') batchKey underlying args
  rw [enqueued] at eq
  subst eq
  refine ⟨s, ?_, leaves.contexts, leaves.table⟩
  simp only [Client.handleMw, handleCall, batched]
  refine (World.runSync_bind _ _ keyed).trans ?_
  rw [if_pos truthy]
  exact (World.runSync_bind _ _ enqueued).trans rfl

/-! ### One more timer -/

theorem reserve_enlist (crew : List Alarm) (replaced : Option TaskId) (a : Alarm) :
    reserve (crew.map (·.cancelIf replaced) ++ [a]) =
      (reserve crew).add a.task.index a.thread.index := by
  simp [reserve, Reserve.add, Alarm.cancelIf, or_and_right, exists_or, eq_comm]

theorem nodup_enlist (index : Alarm → Nat) (replaced : Option TaskId)
    (same : ∀ a : Alarm, index (a.cancelIf replaced) = index a)
    (apart : (crew.map index).Nodup) (fresh : ∀ b ∈ crew, index b ≠ index a) :
    ((crew.map (·.cancelIf replaced) ++ [a]).map index).Nodup := by
  have older : (crew.map (·.cancelIf replaced)).map index = crew.map index := by
    rw [List.map_map]
    exact List.map_congr_left fun b _ => same b
  rw [List.map_append, older]
  refine List.nodup_append.2 ⟨apart, List.nodup_singleton _, fun i hi j hj => ?_⟩
  obtain ⟨b, hb, rfl⟩ := List.mem_map.1 hi
  exact List.mem_singleton.1 hj ▸ fresh b hb

/-- A timer that is cancelled stands where it stood. -/
theorem Alarm.Whereabouts.cancel {clock : Nat} {levels : List (Level T.sig)} {t : T.sig.Task}
    (h : a.Whereabouts d clock levels t) :
    Alarm.Whereabouts d clock { a with canceled := true } levels t.requestCancel.2 := by
  have asleep : (a.asleep d : T.sig.Task).requestCancel.2 =
      Alarm.asleep d { a with canceled := true } := by
    cases canceled : a.canceled <;>
      simp [Alarm.asleep, Task.requestCancel, Task.isSettled, Task.outcome?, canceled, Alarm.flush,
        Mark.cancel]
  cases h with
  | unborn =>
    have unborn : (a.unborn d : T.sig.Task).requestCancel.2 =
        Alarm.unborn d { a with canceled := true } := by
      cases canceled : a.canceled <;>
        simp [Alarm.unborn, Task.requestCancel, Task.isSettled, Task.outcome?, canceled,
          Alarm.flush]
    exact unborn ▸ .unborn
  | asleep => exact asleep ▸ .asleep
  | woken due => exact asleep ▸ .woken due
  | gone canceled flagged =>
    have same : t.requestCancel.2 = t := by simp [Task.requestCancel, flagged]
    exact same.symm ▸ .gone rfl flagged

namespace Alarm.Rests

theorem spawn (h : a.Rests d ctx w) (ctx' : ContextId) (root : T.sig.Yielded) :
    a.Rests d ctx (w.spawn ctx' root).2 := by
  obtain ⟨levels, t, holds, known, -⟩ := h.stands
  have bound := (Array.getElem?_eq_some_iff.1 known).1
  refine h.congr ((World.levels?_spawn _ _ holds).trans holds.symm) ?_ (fun e he _ => he)
    (Nat.le_refl _)
  show (w.tasks.push _)[a.task.index]? = _
  rw [Array.getElem?_push, if_neg (Nat.ne_of_lt bound)]

/-- A timer that is replaced is cancelled. -/
theorem cancelIf (h : a.Rests d ctx w) {replaced : Option TaskId}
    (apart : ∀ old ∈ replaced, old ≠ a.task → a.task.index ≠ old.index) :
    (a.cancelIf replaced).Rests d ctx (w.cancelIf replaced) := by
  cases replaced with
  | none =>
    have same : a.cancelIf none = a := by simp [Alarm.cancelIf]
    exact same.symm ▸ h
  | some old =>
    obtain ⟨tasks, -, eq, changed, others⟩ := World.requestCancel_spec w old
    rw [World.cancelIf, Option.elim_some, eq]
    by_cases its : old = a.task
    · subst its
      have cancelled : a.cancelIf (some a.task) = { a with canceled := true } := by
        simp [Alarm.cancelIf]
      rw [cancelled]
      obtain ⟨levels, t, holds, known, stands⟩ := h.stands
      exact ⟨⟨levels, _, holds, changed.trans (congrArg _ known), stands.cancel⟩, h.waits, h.begun⟩
    · have other : (some old == some a.task) = false := by simpa using its
      have same : a.cancelIf (some old) = a := by simp only [Alarm.cancelIf, other, Bool.or_false]
      rw [same]
      exact h.congr rfl (others _ (apart old rfl its)) (fun e he _ => he) (Nat.le_refl _)

end Alarm.Rests

/-- The timer that a call forks. -/
def newest (ticket : BatchTicket) (identity : Nat) (w : World T.sig) : Alarm :=
  ⟨ticket, ⟨w.tag, w.tasks.size⟩, ⟨w.threads.size⟩, identity, w.clock, false⟩

/-- A timer rests as soon as it has been forked. -/
theorem Alarm.rests_newest (waits : ∀ e ∈ w.waiting, e.1.index < w.threads.size)
    (ticket : BatchTicket) (identity : Nat) :
    (newest ticket identity w).Rests d ctx
      (w.spawn ctx (.operation (Delay.delay d (newest ticket identity w).flush))).2 := by
  refine ⟨⟨_, _, ?_, ?_, .unborn⟩, fun e he same => ?_, Nat.le_refl _⟩
  · show ((w.threads.push _)[w.threads.size]?.map (·.levels)) = _
    rw [Array.getElem?_push_size]
    rfl
  · show (w.tasks.push _)[w.tasks.size]? = _
    rw [Array.getElem?_push_size]
    rfl
  · exact absurd same (Nat.ne_of_lt (waits e he))

/-- A call forks its timer and asks the timer that it replaces to cancel. -/
theorem Stationed.engaged (h : Stationed d ctx crew w) (drives : w.Drives id task ctx)
    (bound : task.index < w.tasks.size) (root : T.sig.Yielded) {replaced : Option TaskId}
    (known : ∀ old ∈ replaced, ∃ a ∈ crew, a.task = old) :
    World.Engaged (conduct T ctx d) ((reserve crew).add w.tasks.size w.threads.size) id task
      ((w.spawn ctx root).2.cancelIf replaced) := by
  have spawned : World.Engaged (conduct T ctx d) ((reserve crew).add w.tasks.size w.threads.size)
      id task (w.spawn ctx root).2 := ((h.tidy.kept drives.head).engaged bound).spawn rfl root
  cases replaced with
  | none => exact spawned
  | some old =>
    obtain ⟨a, ha, rfl⟩ := known old rfl
    exact spawned.requestCancel (.inl (Stationed.held_task ha))

/-- The timers rest before the thread of the call that has armed one has moved on. -/
theorem Stationed.rests_enlisted (h : Stationed d ctx crew w) (ticket : BatchTicket)
    (identity : Nat) {replaced : Option TaskId}
    (known : ∀ old ∈ replaced, ∃ a ∈ crew, a.task = old) :
    let a := newest ticket identity w
    ∀ a' ∈ crew.map (·.cancelIf replaced) ++ [a], a'.Rests d ctx
      ((w.spawn ctx (.operation (Delay.delay d a.flush))).2.cancelIf replaced) := by
  intro a a' ha
  have settled := h.tidy.settled
  rcases List.mem_append.1 ha with ha | ha
  · obtain ⟨b, hb, rfl⟩ := List.mem_map.1 ha
    refine ((h.rests b hb).spawn ..).cancelIf fun old its other => ?_
    obtain ⟨b', hb', rfl⟩ := known old its
    exact h.other_task hb' hb fun same => other (same ▸ rfl)
  · obtain rfl := List.mem_singleton.1 ha
    have apart : ∀ old ∈ replaced, a.task.index ≠ old.index := by
      intro old its
      obtain ⟨b, hb, rfl⟩ := known old its
      exact (Nat.ne_of_lt (settled.tasksBound _ (Stationed.held_task hb))).symm
    have kept : a.cancelIf replaced = a := by
      have other : (replaced == some a.task) = false := by
        refine beq_eq_false_iff_ne.2 fun same => ?_
        exact apart a.task same rfl
      simp only [Alarm.cancelIf, other, Bool.or_false]
    rw [← kept]
    exact (Alarm.rests_newest settled.waits ticket identity).cancelIf fun old its _ => apart old its

/-- A call has armed its timer, and is about to wait. -/
theorem Stationed.enlists (h : Stationed d ctx crew w) (drives : w.Drives id task ctx)
    (free : ¬ (reserve crew).threads id.index)
    (fits : (conduct T ctx d).levels (reserve crew) w.tasks.size w.state (.task task none :: below))
    (ticket : BatchTicket) (identity : Nat) {replaced : Option TaskId}
    (known : ∀ old ∈ replaced, ∃ a ∈ crew, a.task = old) {t : T.sig.Task}
    (permitted : t.Permitted (conduct T ctx d).permits)
    {flow : Flow T.sig (T.sig.Signal × T.sig.Gen)}
    (discreet : (conduct T ctx d).flow (conduct T ctx d).resumption s flow)
    (context : ctx.index < s.contexts.size) :
    let a := newest ticket identity w
    let w' := (w.spawn ctx (.operation (Delay.delay d a.flush))).2
    Stationed d ctx (crew.map (·.cancelIf replaced) ++ [a])
      ((w'.cancelIf replaced).driving id below task (some flow) t s) := by
  intro a w'
  let p := conduct T ctx d
  let w'' := w'.cancelIf replaced
  obtain ⟨⟨bound, unheld, -⟩, stacked⟩ := fits
  have settled := h.tidy.settled
  have drives'' : w''.Drives id task ctx := (drives.spawn ..).cancelIf replaced
  have size : w''.tasks.size = w.tasks.size + 1 :=
    (World.size_cancelIf replaced).trans (Array.size_push ..)
  have engaged : World.Engaged p ((reserve crew).add w.tasks.size w.threads.size) id task w'' :=
    h.engaged drives bound _ known
  have enlisted : reserve (crew.map (·.cancelIf replaced) ++ [a]) =
      (reserve crew).add w.tasks.size w.threads.size := reserve_enlist crew replaced a
  -- None of the timers is on the thread of the call, nor its task.
  have away : ∀ a' ∈ crew.map (·.cancelIf replaced) ++ [a],
      a'.thread.index ≠ id.index ∧ a'.task.index ≠ task.index := by
    intro a' ha
    rcases List.mem_append.1 ha with ha | ha
    · obtain ⟨b, hb, rfl⟩ := List.mem_map.1 ha
      exact ⟨fun same => free ⟨b, hb, same⟩, fun same => unheld ⟨b, hb, same⟩⟩
    · rw [List.mem_singleton.1 ha]
      exact ⟨(Nat.ne_of_lt drives.thread).symm, (Nat.ne_of_lt bound).symm⟩
  exact
    { tidy := by
        rw [enlisted]
        refine (engaged.driving drives'').tidy (World.task_driving drives'')
          (fun _ => .inr permitted) (World.levels?_driving drives'') fun _ => ?_
        have size : (w''.driving id below task (some flow) t s).tasks.size = w.tasks.size + 1 :=
          Array.size_modify.trans size
        rw [size]
        refine ⟨⟨Nat.lt_succ_of_lt bound, ?_, ?_⟩, ?_⟩
        · rintro (held | new)
          · exact unheld held
          · exact Nat.ne_of_lt bound new
        · intro f hf
          exact Option.some.inj hf ▸ discreet
        · refine Conduct.stacked_mono (Conduct.stacked_reserve stacked fun i lt held => ?_)
            (Nat.le_succ _)
          exact held.resolve_right (Nat.ne_of_lt lt)
      context
      rests := by
        intro a' ha
        obtain ⟨thread, other⟩ := away a' ha
        refine (h.rests_enlisted ticket identity known a' ha).congr ?_ ?_ (fun e he _ => he)
          (Nat.le_refl _)
        · exact World.levels?_driving_other thread
        · exact World.task_driving_other other
      threads := by
        refine nodup_enlist _ replaced (fun _ => rfl) h.threads fun b hb => ?_
        exact Nat.ne_of_lt (settled.threadsBound _ (Stationed.held_thread hb))
      tasks := by
        refine nodup_enlist _ replaced (fun _ => rfl) h.tasks fun b hb => ?_
        exact Nat.ne_of_lt (settled.tasksBound _ (Stationed.held_task hb)) }

/-- A call that has joined a batch forks its timer and arms it. -/
theorem Good.arms (h : Stationed d ctx crew w) (drives : w.Drives id task ctx)
    (free : ¬ (reserve crew).threads id.index)
    (fits : (conduct T ctx d).levels (reserve crew) w.tasks.size w.state (.task task none :: below))
    {k : Caller T} (calm : k.mark = .clear ∨ k.mark = .shielded)
    (serves : (conduct T ctx d).permits.slot k.slot)
    (frames : (conduct T ctx d).permits.frames k.frames) (context : ctx.index < s.contexts.size)
    {table : BatchTable T.Fn} (roster : Roster d w.tasks.size crew table es) {key : BatchKey}
    {func : T.Fn} {args : List Value} {promise : PromiseId}
    (enqueued : (table? (ctx.slots s)).getD .empty = (table.enqueue key func args promise).2) :
    let ticket : BatchTicket := ⟨ctx, key, (table.enqueue key func args promise).1, d⟩
    ∃ r, Rested d ctx es r ∧ TransGen (Diary.Leads (c.host (plugin d) listeners))
      ⟨w.driving id below task none
        (k.doing (callGen (.created (.batch ticket))) (.ok .null) .ready) s,
        es ++ [.joined ticket w.clock]⟩ r := by
  intro ticket
  let s₁ := s.nextAllocation.2
  let a : Alarm := newest ticket s.allocations w
  let w' := (w.spawn ctx (.operation (Delay.delay d a.flush))).2
  let armed := ((table? (ctx.slots s₁)).getD .empty).arm key ticket.seat.generation a.task
  let suspended : T.sig.Gen := callGen (.suspended (.batch ticket))
  let s₂ := ctx.setSlots (setTable (ctx.slots s₁) armed.2) s₁
  have joined := roster.join ticket func args promise rfl (Nat.le_refl a.task.index) a.thread
    a.identity w.clock
  rw [← enqueued] at joined
  obtain ⟨known, roster'⟩ := joined
  have unforced : k.mark ≠ .pending := by rcases calm with calm | calm <;> simp [calm]
  have apart : ∀ old ∈ armed.1, old.index ≠ task.index := by
    intro old its same
    obtain ⟨b, hb, rfl⟩ := known old its
    exact fits.1.2.1 ⟨b, hb, same⟩
  have permitted :
      (k.doing suspended (.ok .null) .resuming).Permitted (conduct T ctx d).permits := by
    refine ⟨List.forall_mem_cons.2 ⟨⟨nofun, fun slot its => ?_⟩, fun f hf => ?_⟩,
      fun f hf => (frames f hf).2, trivial⟩
    · exact Option.some.inj its ▸ serves
    · exact (frames f hf).1
  let waits : Flow T.sig (T.sig.Signal × T.sig.Gen) :=
    .going (.perform (.wait (.promise ticket.seat.promise)) fun outcome =>
      .done (finished (selectFrom ticket.seat.index outcome) "batch"))
  let w₂ := (w'.cancelIf armed.1).driving id below task (some waits)
    (k.doing suspended (.ok .null) .resuming) s₂
  have context₂ : ctx.index < s₂.contexts.size :=
    Nat.lt_of_lt_of_eq context (ContextId.size_setSlots s₁ _).symm
  have discreet : (conduct T ctx d).flow (conduct T ctx d).resumption s₂ waits :=
    ⟨trivial, fun _ _ => ⟨trivial, .finished _⟩⟩
  have stationed : Stationed d ctx (crew.map (·.cancelIf armed.1) ++ [a]) w₂ :=
    h.enlists drives free fits ticket s.allocations known permitted discreet context₂
  have size : w₂.tasks.size = a.task.index + 1 :=
    Array.size_modify.trans ((World.size_cancelIf armed.1).trans (Array.size_push ..))
  have tables : tableOf ctx w₂ = armed.2 := by
    show (table? (ctx.slots s₂)).getD .empty = armed.2
    rw [ContextId.slots_setSlots (s := s₁) context, table?_setTable, Option.getD_some]
  have waiting : w₂.aboutToWait = true := by
    have drives₂ : (w'.cancelIf armed.1).Drives id task ctx := (drives.spawn ..).cancelIf armed.1
    have head : w₂.ready.head? = some id := drives₂.head
    have holds : w₂.levels? id = _ := World.levels?_driving drives₂
    simp only [World.aboutToWait, head, Option.bind_some, holds, waits]
  have good : Good d ctx ⟨w₂, es ++ [.joined ticket w.clock] ++ [.forked ticket a.task]⟩ := by
    refine ⟨_, stationed, ?_⟩
    rw [size, tables]
    exact roster'
  refine ⟨_, ⟨good, .inl waiting⟩, .trans_right (leads_started drives unforced)
    (.head (leads_forked drives) ?_)⟩
  exact leads_armed (drives.spawn ..) unforced apart

/-- A call joins a batch when it is handled. -/
theorem step_joins {m : Middleware T.Mw} {op : T.sig.Operation} {ticket : BatchTicket}
    {t : T.sig.Task} (head : w.ready.head? = some id)
    (holds : w.levels? id = some (.task task none :: below))
    (known : w.tasks[task.index]? = some (t, ctx)) (asks : (t.step (plugin d)).2 = .handle m op)
    {v : World T.sig} (ran : w.runSync (c.handleMw m op ctx) =
      (.ok (.ok (callGen (.created (.batch ticket)))), v)) (listeners : List T.Listener) :
    let host := c.host (plugin d) listeners
    w.step host = v.modifyTask task (·.handled (.ok (callGen (.created (.batch ticket))))) ∧
      event? host w = some (.joined ticket w.clock) ∧ caller? host w = some task := by
  intro host
  let created : T.sig.Gen := callGen (.created (.batch ticket))
  obtain ⟨slot, purpose, stage, -⟩ := Task.stage_of_handle asks
  have unsettled : t.outcome? = none := by simp only [Task.outcome?, stage]
  have self : w.driving id below task none t w.state = w := World.driving_self holds known
  have stepped : w.step host = v.modifyTask task (·.handled (.ok created)) := by
    rw [← self] at ran
    have stepped : (w.driving id below task none t w.state).step host =
        v.modifyTask task (·.handled (.ok created)) :=
      World.step_handle_ok (.of_levels head holds known) (Task.step_handle asks) unsettled ran
    rwa [self] at stepped
  have request : w.asking? host = some (task, ctx, .handle m op) := by
    rw [World.asking?_eq host head holds known]
    exact congrArg (fun request => some (task, ctx, request)) asks
  have happened : event? host w = some (.joined ticket w.clock) := by
    have answer : (w.runSync (host.handle m op ctx)).1 = .ok (.ok created) :=
      congrArg Prod.fst ran
    simp only [event?, request, answer]
    rfl
  refine ⟨stepped, happened, ?_⟩
  simp only [caller?, happened, request, Option.map_some]

/-- Nothing but the state and the promises changes while the key of a call is found and a promise is
made for its batch. -/
theorem Stationed.keyed (h : Stationed d ctx crew w) (discreet : Discreet c ctx d)
    (head : w.ready.head? = some id) (holds : w.levels? id = some (.task task none :: below))
    {grouping : T.Grouping} {args : List Value} {key : Except String Value}
    (keyed : w.runSync (c.key grouping args) = (key, w')) :
    let v : World T.sig := { w' with promises := w'.promises.push none }
    World.Kept (conduct T ctx d) (reserve crew) (some id) w v ∧ v.tasks.size = w.tasks.size ∧
      v.levels? id = some (.task task none :: below) := by
  intro v
  have quiet : (conduct T ctx d).sync (fun _ => True) (c.key grouping args) w.state :=
    discreet.key grouping args w.state
  have kept := ((h.tidy.kept head).runSync quiet).1
  have size := World.size_runSync (w := w) (c.key grouping args)
  have holds := World.levels?_runSync (c.key grouping args) holds
  rw [keyed] at kept size holds
  exact ⟨kept.of_eq rfl rfl rfl rfl rfl rfl ((conduct T ctx d).spares_refl _), size, holds⟩

/-- When a call joins a batch, its task is handed the generator of the call. -/
theorem leads_joined {host : Host T.sig} {v : World T.sig} {t : T.sig.Task} {created : T.sig.Gen}
    {ticket : BatchTicket} (head : w.ready.head? = some id) (head' : v.ready.head? = some id)
    (holds : v.levels? id = some (.task task none :: below))
    (known : v.tasks[task.index]? = some (t, ctx))
    (stepped : w.step host =
      World.modifyTask { v with state := s } task (·.handled (.ok created)))
    (happened : event? host w = some (.joined ticket v.clock)) :
    Diary.Leads host ⟨w, es⟩
      ⟨v.driving id below task none (t.handled (.ok created)) s,
        es ++ [.joined ticket v.clock]⟩ := by
  have self : ({ v with state := s } : World T.sig) = v.driving id below task none t s :=
    congrArg (fun w : World T.sig => { w with state := s }) (World.driving_self holds known).symm
  refine ⟨?_, head'.trans head.symm,
    Diary.executes_of_event happened fun _ _ _ flushes => by cases flushes⟩
  rw [Diary.tick, stepped, happened, self, World.modifyTask_driving]
  rfl

/-- The turn of a call that joins a batch, up to where it has armed its timer. -/
theorem Good.joins (h : Stationed d ctx crew w)
    (roster : Roster d w.tasks.size crew (tableOf ctx w) es) (discreet : Discreet c ctx d)
    (head : w.ready.head? = some id) (free : ¬ (reserve crew).threads id.index)
    (holds : w.levels? id = some (.task task none :: below))
    (fits : (conduct T ctx d).levels (reserve crew) w.tasks.size w.state (.task task none :: below))
    {t : T.sig.Task} (known : w.tasks[task.index]? = some (t, ctx)) (coherent : t.Coherent)
    (standing : Standing t.canceled t.footings)
    (permitted : t.Permitted (conduct T ctx d).permits) {func underlying : T.Fn}
    {grouping : T.Grouping} {args : List Value} {key : Value}
    (asks : (t.step (plugin d)).2 = .handle (.batchCalls d) (.call func args))
    (batched : func.batched? = some (underlying, grouping))
    (keyed : w.runSync (c.key grouping args) = (.ok key, w')) (truthy : key.isTruthy = true)
    (callers : Diary.SparesCallers (c.host (plugin d) listeners) ⟨w, es⟩)
    (timers : Diary.SparesTimers (c.host (plugin d) listeners) ⟨w, es⟩) :
    Diary.Coming (c.host (plugin d) listeners) (Rested d ctx es) ⟨w, es⟩ := by
  let host := c.host (plugin d) listeners
  let p := conduct T ctx d
  let r := reserve crew
  obtain ⟨⟨bound, unheld, -⟩, stacked⟩ := fits
  -- The key is found first, and a promise is made for the batch.
  let v : World T.sig := { w' with promises := w'.promises.push none }
  obtain ⟨kept, size, holds'⟩ : World.Kept p r (some id) w v ∧ v.tasks.size = w.tasks.size ∧
      v.levels? id = some (.task task none :: below) := h.keyed discreet head holds keyed
  have fits' : p.levels r v.tasks.size v.state (.task task none :: below) := by
    rw [size]
    exact ⟨⟨bound, unheld, nofun⟩, stacked⟩
  have head' : v.ready.head? = some id := kept.runs id rfl
  have clock : v.clock = w.clock := kept.spared.clock
  -- The call joins.
  have context : ctx.index < v.state.contexts.size :=
    Nat.lt_of_lt_of_le h.context kept.spared.state.1
  obtain ⟨s, ran, contexts, table⟩ := runSync_joins (d := d) batched keyed truthy context
  let batchKey : BatchKey := ⟨underlying.identity, key.key⟩
  let ticket : BatchTicket :=
    ⟨ctx, batchKey, ((tableOf ctx w').enqueue batchKey underlying args ⟨w'.promises.size⟩).1, d⟩
  let created : T.sig.Gen := callGen (.created (.batch ticket))
  obtain ⟨stepped, happened, joining⟩ := step_joins head holds known asks ran listeners
  rw [← clock] at happened
  -- Neither its task nor a timer is cancelled meanwhile: all rest still.
  have flagged (timer : TaskId) : (w.step host).canceled? timer = v.canceled? timer := by
    rw [stepped]
    exact World.canceled?_modifyTask fun t => t.canceled_handled _
  have known' : v.tasks[task.index]? = some (t, ctx) := by
    have heeded := World.heeded_runSync w (c.key grouping args) task.index
    rw [keyed] at heeded
    have calm : v.canceled? task = some false := (flagged task).symm.trans (callers task joining)
    exact (heeded.eq_of_uncanceled ((Option.map_map ..).symm.trans calm)).trans known
  have uncanceled : t.canceled = false := by
    have calm : v.canceled? task = some false := (flagged task).symm.trans (callers task joining)
    rw [World.canceled?, World.task?, known'] at calm
    exact Option.some.inj calm
  have stationed : Stationed d ctx crew v :=
    h.elsewhere (kept.stays holds' fits') fun a ha calm =>
      (flagged a.task).symm.trans (h.calm roster timers a ha calm)
  have drives : v.Drives id task ctx := .of_levels head' holds' known'
  have joins : Diary.Leads host ⟨w, es⟩
      ⟨v.driving id below task none (t.handled (.ok created)) s,
        es ++ [.joined ticket v.clock]⟩ :=
    leads_joined head head' holds' known' stepped happened
  -- Its handler is pushed onto the stack of its task.
  obtain ⟨slot, purpose, stage, -⟩ := Task.stage_of_handle asks
  obtain ⟨fs, concludes, alike⟩ := Task.conclude_push coherent (congrArg Stage.underway? stage)
    created (Task.handlerName slot.kind) (some slot)
  rw [uncanceled] at concludes standing
  let k : Caller T :=
    ⟨t.id, t.root, .pushed purpose.shields false (t.frames.head?.map (·.mark)), slot, fs⟩
  have begins : Diary.Leads host
      ⟨v.driving id below task none (t.handled (.ok created)) s, es ++ [.joined ticket v.clock]⟩
      ⟨v.driving id below task none (k.doing created (.ok .null) .ready) s,
        es ++ [.joined ticket v.clock]⟩ := by
    have answered : t.handled (.ok created) =
        t.push created (Task.handlerName slot.kind) (some slot) purpose := by
      simp only [Task.handled, stage]
    rw [answered]
    refine Diary.leads_silent drives ?_ rfl
    exact congrArg (·, Request.silent) concludes
  have calm := Calm.pushed (p := purpose) fun f hf =>
    standing.calm f.footing (List.mem_map_of_mem hf)
  have served : p.permits.slot k.slot := by
    have held := permitted.stage
    rw [stage] at held
    exact held.2
  -- It forks its timer and arms it.
  have tables : tableOf ctx w' = tableOf ctx w := by
    have spared : table? (ctx.slots w'.state) = table? (ctx.slots w.state) := kept.spared.state.2
    simp only [tableOf, spared]
  rw [← tables, ← size] at roster
  have frames : p.permits.frames t.frames := permitted.dormant_frames (by simp [stage])
  have context : ctx.index < s.contexts.size := contexts ▸ stationed.context
  obtain ⟨r, rested, arms⟩ := Good.arms stationed drives free fits'
    calm served (Permits.frames_of_holding frames alike) context roster table
  exact .of_leads (.head joins (.head begins arms)) rested

end Batch

end EffectEngine
