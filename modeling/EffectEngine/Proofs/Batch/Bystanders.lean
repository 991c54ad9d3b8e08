import EffectEngine.Proofs.Batch.Joining

/-!
# Threads that run no timer

A thread that runs no timer either has a call join a batch, which is the turn of `Good.joins`, or
does nothing to any batch (`event?_aside`): its moves leave the table, the timers and the events as
they are (`Good.others`). With the turns of timers and of the clock that is all that can happen, so
that from any moment at which all timers rest the next such moment is coming (`Good.keeps`).
-/

namespace EffectEngine

namespace Task

variable {G F M : Type} [Named G] {t : Task G F M} {registry : Registry M} {p : Permits G F M}

/-- A task that asks for something is not over. -/
theorem Orderly.permitted (h : t.Orderly p) (asks : (t.step registry).2 ≠ .silent) :
    t.Permitted p := by
  refine h.resolve_left fun settled => asks ?_
  obtain ⟨outcome, settled⟩ := isSettled_iff.1 settled
  simp only [step, settled]

/-- No panic has ended a task that asks for something. -/
theorem Reached.run_of_asks (h : t.Reached registry) (asks : (t.step registry).2 ≠ .silent) :
    ∃ id root impulses, t = ((Run.start id root).after registry impulses).task := by
  refine h.run.resolve_right fun ⟨message, settled⟩ => asks ?_
  simp only [step, settled]

end Task

namespace World

variable {S : Sig} {p : Conduct S} {r : Reserve} {w : World S} {host : Host S} {id : ThreadId}
  {task : TaskId} {ctx : S.Ctx} {request : Request S.Gen S.Fn S.Mw}

theorem runSync_bind_error {α β : Type} (code : S.Sync α) (f : α → S.Sync β) {w' : World S}
    {message : String} (h : w.runSync code = (.error message, w')) :
    w.runSync (code.bind f) = (.error message, w') := by
  induction code generalizing w with
  | done a => simp [runSync] at h
  | panic m =>
    obtain ⟨rfl, rfl⟩ : m = message ∧ w = w' := by simpa [runSync] using h
    rfl
  | ask q k ih => exact ih _ h
  | perform e => cases e

/-- The task of a discreet thread that asks for something. -/
theorem Tidy.asking (h : Tidy p r w) (head : w.ready.head? = some id)
    (free : ¬ r.threads id.index) (asks : w.asking? host = some (task, ctx, request))
    (busy : request ≠ .silent) :
    ∃ below t, w.levels? id = some (.task task none :: below) ∧
      p.levels r w.tasks.size w.state (.task task none :: below) ∧
      w.tasks[task.index]? = some (t, ctx) ∧ p.context ctx ∧ t.Permitted p.permits ∧
      (t.step host.registry).2 = request := by
  unfold asking? at asks
  split at asks
  · rename_i task' below holds
    rw [head] at holds
    obtain ⟨th, found, levels⟩ := Option.map_eq_some_iff.1 holds
    have fits := (h.threads _ th found free).1 head
    rw [levels] at fits
    obtain ⟨⟨t, ctx'⟩, known, same⟩ := Option.map_eq_some_iff.1 asks
    obtain ⟨rfl, rest⟩ := Prod.mk.inj same
    obtain ⟨rfl, rfl⟩ := Prod.mk.inj rest
    obtain ⟨shared, orderly⟩ := h.settled.tasks _ _ _ known
    exact ⟨below, t, holds, fits, known, shared, (orderly fits.1.2.1).permitted busy, rfl⟩
  · cases asks

end World

namespace Batch

variable {T : ClientSig} {c : Client T} {listeners : List T.Listener} {ctx : ContextId}
  {d : Nat} {crew : List Alarm} {w w' : World T.sig} {es : List (BatchEvent T.Fn)}
  {id : ThreadId}

/-- What comes of an operation that batching handles without a batch. -/
inductive Aside : Except String (Except Error T.sig.Gen) → Prop
  | panics (message : String) : Aside (.error message)
  | fails (e : Error) : Aside (.ok (.error e))
  | alone (func : T.Fn) (args : List Value) : Aside (.ok (.ok (standalone func args)))

/-- The call joins a batch when it is handled. -/
def Joins (c : Client T) (d : Nat) (w : World T.sig) (m : Middleware T.Mw)
    (op : T.sig.Operation) : Prop :=
  ∃ func args underlying grouping key w', m = .batchCalls d ∧ op = .call func args ∧
    func.batched? = some (underlying, grouping) ∧
    w.runSync (c.key grouping args) = (.ok key, w') ∧ key.isTruthy = true

theorem PlainOp.keyless_custom {γ F : Type} {op : Operation (Gen γ F) F} (plain : PlainOp op) :
    (op.custom?.bind fun (_, payload) => payload.batchKey?) = none := by
  cases op with
  | custom kind payload => exact plain.keyless
  | _ => rfl

/-- Batching leaves all alone when it handles an operation that does not join a batch. -/
theorem handles_aside {r : Reserve} {m : Middleware T.Mw} {op : T.sig.Operation}
    (discreet : Discreet c ctx d) (kept : World.Kept (conduct T ctx d) r (some id) w w)
    (permitted : (conduct T ctx d).permits.request (.handle m op)) (aside : ¬ Joins c d w m op) :
    World.Kept (conduct T ctx d) r (some id) w (w.runSync (c.handleMw m op ctx)).2 ∧
      Aside (w.runSync (c.handleMw m op ctx)).1 := by
  obtain ⟨rfl | rfl, plain⟩ := permitted
  · cases op with
    | call func args =>
      cases batched : func.batched? with
      | none =>
        simp only [Client.handleMw, handleCall, batched]
        exact ⟨kept, .fails _⟩
      | some grouped =>
        obtain ⟨underlying, grouping⟩ := grouped
        have found := (kept.runSync (discreet.key grouping args w.state)).1
        rcases keyed : w.runSync (c.key grouping args) with ⟨message | key, w'⟩
        · have panics : w.runSync (c.handleMw (.batchCalls d) (.call func args) ctx) =
              (.error message, w') := by
            simp only [Client.handleMw, handleCall, batched]
            exact World.runSync_bind_error _ _ keyed
          rw [keyed] at found
          rw [panics]
          exact ⟨found, .panics message⟩
        · have falsy : ¬ key.isTruthy = true := fun truthy =>
            aside ⟨_, _, _, _, _, _, rfl, rfl, batched, keyed, truthy⟩
          have alone : w.runSync (c.handleMw (.batchCalls d) (.call func args) ctx) =
              (.ok (.ok (standalone underlying args)), w') := by
            simp only [Client.handleMw, handleCall, batched]
            refine (World.runSync_bind _ _ keyed).trans ?_
            rw [if_neg falsy]
            rfl
          rw [keyed] at found
          rw [alone]
          exact ⟨found, .alone underlying args⟩
    | _ => exact ⟨kept, .fails _⟩
  · simp only [Client.handleMw, handleExecute, PlainOp.keyless_custom plain]
    exact ⟨kept, .fails _⟩

/-- A discreet thread that does not join a batch does nothing to any batch. -/
theorem event?_aside {r : Reserve} {host : Host T.sig} (h : World.Tidy (conduct T ctx d) r w)
    (head : w.ready.head? = some id) (free : ¬ r.threads id.index)
    (aside : ∀ task m op ctx', w.asking? host = some (task, ctx', .handle m op) →
      Aside (w.runSync (host.handle m op ctx')).1) : event? host w = none := by
  rcases asks : w.asking? host with _ | ⟨task, ctx', request⟩
  · simp only [event?, asks]
  · cases request with
    | handle m op =>
      have answer := aside task m op ctx' asks
      simp only [event?, asks]
      generalize (w.runSync (host.handle m op ctx')).1 = result at answer
      cases answer <;> rfl
    | fork root =>
      obtain ⟨_, t, -, -, known, -, permitted, same⟩ := h.asking head free asks (by rintro ⟨⟩)
      have resting : t.stage ≠ .resuming := by
        intro stage
        simp only [Task.step, stage] at same
        cases same
      have frames := permitted.dormant_frames resting
      simp only [event?, asks]
      split
      · rename_i ticket top
        obtain ⟨t', found, top⟩ := Option.bind_eq_some_iff.1 top
        obtain rfl : t = t' := by simpa [World.task?, known] using found
        obtain ⟨f, top, generator⟩ := Option.map_eq_some_iff.1 top
        have plain : PlainGen f.generator := (frames f (List.mem_of_mem_head? top)).2
        rw [generator] at plain
        cases plain
      · rfl
    | silent | resume | retire | filter | invoke | report => simp only [event?, asks]

/-- The move of a thread that runs no timer. -/
theorem Good.others (h : Stationed d ctx crew w)
    (roster : Roster d w.tasks.size crew (tableOf ctx w) es) (discreet : Discreet c ctx d)
    (reached : w.TasksReached (c.host (plugin d) listeners)) (head : w.ready.head? = some id)
    (free : ¬ (reserve crew).threads id.index)
    (callers : Diary.SparesCallers (c.host (plugin d) listeners) ⟨w, es⟩)
    (timers : Diary.SparesTimers (c.host (plugin d) listeners) ⟨w, es⟩) :
    Diary.Coming (c.host (plugin d) listeners) (Rested d ctx es) ⟨w, es⟩ := by
  let host := c.host (plugin d) listeners
  by_cases joins : ∃ task ctx' m op, w.asking? host = some (task, ctx', .handle m op) ∧
      Joins c d w m op
  · obtain ⟨task, ctx', _, _, asks, func, args, underlying, grouping, key, w', rfl, rfl, batched,
      keyed, truthy⟩ := joins
    obtain ⟨below, t, holds, fits, known, rfl, permitted, same⟩ :=
      h.tidy.asking head free asks nofun
    obtain ⟨_, _, impulses, run⟩ := (reached _ t _ known).run_of_asks (by rw [same]; nofun)
    have coherent : t.Coherent := run ▸ Run.coherent impulses
    have standing : Standing t.canceled t.footings := run ▸ Run.standing impulses
    exact Good.joins h roster discreet head free holds fits known coherent standing permitted same
      batched keyed truthy callers timers
  · have obeyed := discreet.obeyed listeners
    have handles (task : TaskId) (m : Middleware T.Mw) (op : T.sig.Operation) (ctx' : ContextId)
        (asks : w.asking? host = some (task, ctx', .handle m op)) :
        World.Kept (conduct T ctx d) (reserve crew) (some id) w
          (w.runSync (host.handle m op ctx')).2 ∧ Aside (w.runSync (host.handle m op ctx')).1 := by
      obtain ⟨below, t, holds, fits, known, rfl, permitted, same⟩ :=
        h.tidy.asking head free asks nofun
      have requested := (permitted.step obeyed.registers).2
      rw [same] at requested
      exact handles_aside discreet (h.tidy.kept head) requested fun its =>
        joins ⟨task, _, m, op, asks, its⟩
    have moved := h.tidy.step obeyed head free fun task m op ctx' asks => by
      obtain ⟨kept, answer⟩ := handles task m op ctx' asks
      refine ⟨kept, fun result its => ?_⟩
      rw [its] at answer
      cases answer with
      | fails e => exact nofun
      | alone func args => exact fun g made => Except.ok.inj made ▸ .standalone _ func args
    have quiet := event?_aside h.tidy head free fun task m op ctx' asks =>
      (handles task m op ctx' asks).2
    refine .quiet quiet ?_
    exact .of_stationed (h.elsewhere moved (h.calm roster timers)) roster moved.spared.state.2
      moved.spared.size

/-- Whenever all timers rest, they will all rest again when the turn is over. -/
theorem Good.keeps (discreet : Discreet c ctx d) {r : Diary T} (h : Good d ctx r)
    (reached : r.world.TasksReached (c.host (plugin d) listeners))
    (callers : r.SparesCallers (c.host (plugin d) listeners))
    (timers : r.SparesTimers (c.host (plugin d) listeners)) :
    Diary.Coming (c.host (plugin d) listeners) (Rested d ctx r.events) r := by
  obtain ⟨w, es⟩ := r
  obtain ⟨crew, stationed, roster⟩ := h
  cases ready : w.ready with
  | nil => exact Good.clock stationed roster ready
  | cons id rest =>
    have head : w.ready.head? = some id := by rw [ready]; rfl
    by_cases held : (reserve crew).threads id.index
    · obtain ⟨a, member, same⟩ := held
      obtain rfl : a.thread = id := congrArg ThreadId.mk same
      exact Good.timer stationed roster member head
    · exact Good.others stationed roster discreet reached head held callers timers

end Batch

end EffectEngine
