import EffectEngine.Client
import EffectEngine.Machine
import EffectEngine.Proofs.Batch.Book
import EffectEngine.Proofs.Context.Slots

/-!
# What the batching code does to the world

`World.runAsks` runs code until it ends or has an effect, which is what a thread does without any
other thread in between. `Leaves ctx w w' table promises` says what such a section does to the table
of a context and to the promises; there is one lemma for each section of the batching middleware and
of its coroutines.
-/

namespace EffectEngine

namespace World

variable {S : Sig} {α β : Type} {w w' : World S}

/-- Runs code until it ends or has an effect. -/
def runAsks (w : World S) : S.Code α → S.Code α × World S
  | .ask q k =>
    let (a, w) := w.answer q
    runAsks w (k a)
  | code => (code, w)

theorem runSync_bind (code : S.Sync α) (f : α → S.Sync β) {a : α}
    (h : w.runSync code = (.ok a, w')) : w.runSync (code.bind f) = w'.runSync (f a) := by
  induction code generalizing w with
  | done a' =>
    obtain ⟨rfl, rfl⟩ : a' = a ∧ w = w' := by simpa [runSync] using h
    rfl
  | panic m => simp [runSync] at h
  | ask q k ih => exact ih _ h
  | perform e => exact nomatch e

theorem runAsks_bind (code : S.Code α) (f : α → S.Code β) {a : α}
    (h : w.runAsks code = (.done a, w')) : w.runAsks (code.bind f) = w'.runAsks (f a) := by
  induction code generalizing w with
  | done a' =>
    obtain ⟨rfl, rfl⟩ : a' = a ∧ w = w' := by simpa [runAsks] using h
    rfl
  | panic m => simp [runAsks] at h
  | ask q k ih => exact ih _ h
  | perform e => simp [runAsks] at h

theorem runAsks_bind_perform (code : S.Code α) (f : α → S.Code β)
    {e : Effect S.Ctx S.Gen S.Fn S.Seed} {k : Outcome → S.Code α}
    (h : w.runAsks code = (.perform e k, w')) :
    w.runAsks (code.bind f) = (.perform e fun outcome => (k outcome).bind f, w') := by
  induction code generalizing w with
  | done a' => simp [runAsks] at h
  | panic m => simp [runAsks] at h
  | ask q k ih => exact ih _ h
  | perform e' k' =>
    obtain ⟨⟨rfl, rfl⟩, rfl⟩ : (e' = e ∧ k' = k) ∧ w = w' := by simpa [runAsks] using h
    rfl

end World

namespace Batch

variable {T : ClientSig} {c : Client T} {ctx : ContextId} {w w' w'' : World T.sig}

/-- The table of a context; a context without one is as good as one with an empty table. -/
def tableOf (ctx : ContextId) (w : World T.sig) : BatchTable T.Fn :=
  (table? (ctx.slots w.state)).getD .empty

/-- What a section of code leaves behind. -/
structure Leaves (ctx : ContextId) (w w' : World T.sig) (table : BatchTable T.Fn)
    (promises : Array (Option Outcome)) : Prop where
  contexts : w'.state.contexts.size = w.state.contexts.size
  table : tableOf ctx w' = table
  promises : w'.promises = promises

theorem table?_setTable (m : Slots T.Key T.Fn) (t : BatchTable T.Fn) :
    table? (setTable m t) = some t := TypeMap.get?_insert ..

theorem leaves_refl (w : World T.sig) : Leaves ctx w w (tableOf ctx w) w.promises := ⟨rfl, rfl, rfl⟩

/-- A section that works on the slots of the context. -/
theorem leaves_setSlots (h : ctx.index < w.state.contexts.size) (m : Slots T.Key T.Fn) :
    Leaves ctx w { w with state := ctx.setSlots m w.state } ((table? m).getD .empty)
      w.promises := by
  refine ⟨ContextId.size_setSlots w.state m, ?_, rfl⟩
  simp only [tableOf]
  rw [ContextId.slots_setSlots (s := w.state) h]

theorem leaves_setTable (h : ctx.index < w.state.contexts.size) (m : Slots T.Key T.Fn)
    (t : BatchTable T.Fn) :
    Leaves ctx w { w with state := ctx.setSlots (setTable m t) w.state } t w.promises := by
  have leaves := leaves_setSlots h (setTable m t)
  rwa [table?_setTable, Option.getD_some] at leaves

theorem Leaves.trans {t t' : BatchTable T.Fn} {ps ps' : Array (Option Outcome)}
    (h : Leaves ctx w w' t ps) (h' : Leaves ctx w' w'' t' ps') : Leaves ctx w w'' t' ps' :=
  ⟨h'.contexts.trans h.contexts, h'.table, h'.promises⟩

theorem runSync_locked {α : Type} (f : Slots T.Key T.Fn → α × Slots T.Key T.Fn) :
    w.runSync (ctx.locked f) = (.ok (f (ctx.slots w.state)).1,
      { w with state := ctx.setSlots (f (ctx.slots w.state)).2 w.state }) := rfl

theorem runSync_ensureTable (h : ctx.index < w.state.contexts.size) :
    ∃ t w', w.runSync (ensureTable (φ := T.Target) (κ := T.Grouping) ctx) = (.ok t, w') ∧
      Leaves ctx w w' (tableOf ctx w) w.promises := by
  let m : Slots T.Key T.Fn := ctx.slots w.state
  let w₁ : World T.sig := { w with state := ctx.setSlots m w.state }
  have read : Leaves ctx w w₁ (tableOf ctx w) w.promises := leaves_setSlots h m
  have got : w.runSync (ctx.get? .batches) = (.ok (table? m), w₁) := rfl
  rcases found : table? m with _ | t
  · have h₁ : ctx.index < w₁.state.contexts.size := by rw [read.contexts]; exact h
    have same : ctx.slots w₁.state = m := ContextId.slots_setSlots (s := w.state) h m
    have offered : (ctx.slots w₁.state).offer .batches BatchTable.empty =
        (BatchTable.empty, setTable m .empty) := by
      rw [same]
      simp only [TypeMap.offer]
      rw [show m.get? .batches = none from found]
      rfl
    have empty : tableOf ctx w = .empty := by rw [tableOf, found]; rfl
    refine ⟨.empty, { w₁ with state := ctx.setSlots (setTable m .empty) w₁.state },
      (World.runSync_bind _ _ got).trans ?_, ?_⟩
    · rw [found]
      refine (runSync_locked (w := w₁) fun m => m.offer .batches BatchTable.empty).trans ?_
      rw [offered]
      rfl
    · rw [empty]
      exact read.trans (leaves_setTable h₁ m .empty)
  · refine ⟨t, _, (World.runSync_bind _ _ got).trans ?_, read⟩
    rw [found]
    rfl

/-- A call gets its seat. -/
theorem runSync_enqueue (h : ctx.index < w.state.contexts.size) (key : BatchKey) (func : T.Fn)
    (args : List Value) :
    let placed := (tableOf ctx w).enqueue key func args ⟨w.promises.size⟩
    ∃ w', w.runSync (enqueue ctx key func args) = (.ok placed.1, w') ∧
      Leaves ctx w w' placed.2 (w.promises.push none) := by
  intro placed
  obtain ⟨_, w₁, ensured, leaves⟩ := runSync_ensureTable h
  have same : placed = (tableOf ctx w₁).enqueue key func args ⟨w₁.promises.size⟩ := by
    rw [leaves.table, leaves.promises]
  have h₁ : ctx.index < w₁.state.contexts.size := by rw [leaves.contexts]; exact h
  let w₂ : World T.sig := { w₁ with promises := w₁.promises.push none }
  have rest := leaves_setTable (w := w₂) h₁ (ctx.slots w₁.state) placed.2
  refine ⟨_, (World.runSync_bind _ _ ensured).trans ?_, rest.contexts.trans leaves.contexts,
    rest.table, ?_⟩
  · rw [same]
    rfl
  · rw [rest.promises, ← leaves.promises]

/-- A call with a truthy key joins a batch, and gets the generator that waits for it. -/
theorem runSync_handleCall {func underlying : T.Fn} {grouping : T.Grouping} {args : List Value}
    {key : Value} (batched : func.batched? = some (underlying, grouping))
    (keyed : w.runSync (c.key grouping args) = (.ok key, w')) (truthy : key.isTruthy = true)
    (h : ctx.index < w'.state.contexts.size) (timeout : Nat) :
    let batchKey : BatchKey := ⟨underlying.identity, key.key⟩
    let placed := (tableOf ctx w').enqueue batchKey underlying args ⟨w'.promises.size⟩
    ∃ w'', w.runSync (c.handleMw (.batchCalls timeout) (.call func args) ctx) =
        (.ok (.ok (.ofOpening (.batch ⟨ctx, batchKey, placed.1, timeout⟩))), w'') ∧
      Leaves ctx w' w'' placed.2 (w'.promises.push none) := by
  intro batchKey placed
  obtain ⟨w'', enqueued, leaves⟩ := runSync_enqueue h batchKey underlying args
  refine ⟨w'', ?_, leaves⟩
  simp only [Client.handleMw, handleCall, batched]
  refine (World.runSync_bind _ _ keyed).trans ?_
  rw [if_pos truthy]
  exact (World.runSync_bind _ _ enqueued).trans rfl

theorem runSync_takeBatch (h : ctx.index < w.state.contexts.size) (key : BatchKey) :
    ∃ w', w.runSync (takeBatch (φ := T.Target) (κ := T.Grouping) ctx key) =
        (.ok ((tableOf ctx w).take key).1, w') ∧
      Leaves ctx w w' ((tableOf ctx w).take key).2 w.promises := by
  rcases found : table? (ctx.slots w.state) with _ | t
  · have took : (tableOf ctx w).take key = (none, .empty) := by rw [tableOf, found]; rfl
    have leaves := leaves_setSlots h (ctx.slots w.state)
    rw [found] at leaves
    rw [took]
    refine ⟨_, (runSync_locked _).trans ?_, leaves⟩
    rw [found]
  · have same : tableOf ctx w = t := by rw [tableOf, found]; rfl
    refine ⟨_, (runSync_locked _).trans ?_, leaves_setTable h (ctx.slots w.state) _⟩
    rw [found, same]

/-- A timer that fires takes the pending batch of its key, if there is one. -/
theorem runSync_handleExecute (h : ctx.index < w.state.contexts.size) {op : T.sig.Operation}
    {g : T.sig.Gen} (handled : w.runSync (c.handleMw .executeBatch op ctx) = (.ok (.ok g), w')) :
    ∃ key, g = .ofOpening (.executeBatch ((tableOf ctx w).take key).1) ∧
      Leaves ctx w w' ((tableOf ctx w).take key).2 w.promises := by
  simp only [Client.handleMw, handleExecute] at handled
  split at handled
  · cases handled
  · rename_i key carried
    obtain ⟨w₁, took, leaves⟩ := runSync_takeBatch h key
    have ran : w.runSync (S := T.sig) _ = w₁.runSync (S := T.sig) _ :=
      World.runSync_bind _ (fun batch =>
        .done (.ok (.ofOpening (.executeBatch batch)) : Except Error T.sig.Gen)) took
    have same := ran.symm.trans handled
    obtain ⟨rfl, rfl⟩ :
        Gen.ofOpening (.executeBatch ((tableOf ctx w).take key).1) = g ∧ w₁ = w' := by
      simpa [World.runSync] using same
    exact ⟨key, rfl, leaves⟩

/-! ### Promises and tasks do not touch the table -/

theorem wake_eq (w : World T.sig) (event : Pending) (outcome : Outcome) :
    (w.wake event outcome).state = w.state ∧ (w.wake event outcome).promises = w.promises := by
  have deliver (ids : List ThreadId) (w : World T.sig) :
      (ids.foldl (fun w id => w.deliver id outcome) w).state = w.state ∧
      (ids.foldl (fun w id => w.deliver id outcome) w).promises = w.promises := by
    induction ids generalizing w with
    | nil => exact ⟨rfl, rfl⟩
    | cons id ids ih => exact ih _
  exact deliver _ _

/-- A promise that was not fulfilled holds what it is fulfilled with; all others stay as they
are. -/
theorem leaves_fulfil {p : PromiseId} (h : w.promises[p.index]? = some none) (outcome : Outcome) :
    Leaves ctx w (w.fulfil p outcome) (tableOf ctx w)
      (w.promises.modify p.index fun _ => some outcome) := by
  let fulfilled : World T.sig :=
    { w with promises := w.promises.modify p.index fun _ => some outcome }
  have eq : w.fulfil p outcome = fulfilled.wake (.promise p) outcome := by
    rw [World.fulfil, h]
  obtain ⟨state, promises⟩ := wake_eq fulfilled (.promise p) outcome
  rw [eq]
  exact ⟨by rw [state], by rw [tableOf, state]; rfl, promises⟩

theorem leaves_requestCancel (timer : TaskId) :
    Leaves ctx w (w.requestCancel timer).2 (tableOf ctx w) w.promises := by
  unfold World.requestCancel
  split <;> exact ⟨rfl, rfl, rfl⟩

/-! ### Coroutines -/

theorem runAsks_arm (ticket : BatchTicket) (h : ticket.ctx.index < w.state.contexts.size)
    (timer : TaskId) :
    ∃ w', w.runAsks (arm (χ := T.Key) (φ := T.Target) (κ := T.Grouping) ticket timer) =
        (.done (), w') ∧
      Leaves ticket.ctx w w'
        ((tableOf ticket.ctx w).arm ticket.key ticket.seat.generation timer).2 w.promises := by
  let armed := (tableOf ticket.ctx w).arm ticket.key ticket.seat.generation timer
  let m : Slots T.Key T.Fn := ticket.ctx.slots w.state
  let w₁ : World T.sig := { w with state := ticket.ctx.setSlots (setTable m armed.2) w.state }
  have leaves : Leaves ticket.ctx w w₁ armed.2 w.promises := leaves_setTable h m armed.2
  have locked : w.runAsks (withTable (E := Effect ContextId T.sig.Gen T.Fn T.Seed) ticket.ctx
      fun table => table.arm ticket.key ticket.seat.generation timer) = (.done armed.1, w₁) := rfl
  rcases replaced : armed.1 with _ | old
  · refine ⟨w₁, (World.runAsks_bind _ _ locked).trans ?_, leaves⟩
    rw [replaced]
    rfl
  · refine ⟨(w₁.requestCancel old).2, (World.runAsks_bind _ _ locked).trans ?_, ?_⟩
    · rw [replaced]
      rfl
    · have after := leaves.trans (leaves_requestCancel old)
      rwa [leaves.table, leaves.promises] at after

/-- The library coroutine of a call that joined a batch. -/
def callGen (c : Coroutine (Opening T.sig.Gen T.Fn) Midway) : T.sig.Gen := .library "batch" c

/-- The library coroutine of a timer that fired. -/
def timerGen (c : Coroutine (Opening T.sig.Gen T.Fn) Midway) : T.sig.Gen :=
  .library "execute_batch" c

def finished (outcome : Outcome) (name : String) : T.sig.Signal × T.sig.Gen :=
  (.complete outcome, .library name .finished)

theorem runAsks_finished (name : String) (input : Resume) :
    ∃ outcome, w.runAsks (c.resumeGen (.library name .finished) input) =
      (.done (finished outcome name), w) := by
  cases input <;> exact ⟨_, rfl⟩

/-- A call that joined begins by asking for a timer, if it is not stopped before. -/
theorem runAsks_callGen_created (ticket : BatchTicket) (input : Resume) :
    ∃ w', Leaves ctx w w' (tableOf ctx w) w.promises ∧
      ((∃ y, w.runAsks (c.resumeGen (callGen (.created (.batch ticket))) input) =
          (.done (.yielded y, callGen (.suspended (.batch ticket))), w')) ∨
        ∃ outcome, w.runAsks (c.resumeGen (callGen (.created (.batch ticket))) input) =
          (.done (finished outcome "batch"), w')) := by
  cases input with
  | next v => exact ⟨{ w with state := w.state.nextAllocation.2 }, ⟨rfl, rfl, rfl⟩, .inl ⟨_, rfl⟩⟩
  | throw e => exact ⟨w, leaves_refl w, .inr ⟨_, rfl⟩⟩
  | forcedReturn => exact ⟨w, leaves_refl w, .inr ⟨_, rfl⟩⟩

/-- A call whose timer has been forked arms it and waits; if it could not be forked it ends. -/
theorem runAsks_proceedBatch (ticket : BatchTicket) (h : ticket.ctx.index < w.state.contexts.size)
    (forked : Outcome) :
    let code : T.sig.Code (Pause T.sig.Yielded Midway) := proceedBatch ticket forked
    (∃ outcome, w.runAsks code = (.done (.finish outcome), w)) ∨
    ∃ timer w' k, w.runAsks code = (.perform (.wait (.promise ticket.seat.promise)) k, w') ∧
      (∀ outcome, k outcome = .done (.finish (selectFrom ticket.seat.index outcome))) ∧
      Leaves ticket.ctx w w'
        ((tableOf ticket.ctx w).arm ticket.key ticket.seat.generation timer).2 w.promises := by
  intro code
  rcases forked with e | v
  · exact .inl ⟨_, rfl⟩
  · rcases task : v.intoTask with e | timer
    · refine .inl ⟨.error e, ?_⟩
      simp only [code, proceedBatch, task]
      rfl
    · obtain ⟨w', armed, leaves⟩ := runAsks_arm ticket h timer
      refine .inr ⟨timer, w', _, ?_, fun _ => rfl, leaves⟩
      simp only [code, proceedBatch, task]
      exact (World.runAsks_bind _ _ armed).trans rfl

/-- A call whose timer has been forked arms it and waits for the promise of its batch. -/
theorem runAsks_callGen_suspended (ticket : BatchTicket)
    (h : ticket.ctx.index < w.state.contexts.size) (input : Resume) :
    (∃ outcome, w.runAsks (c.resumeGen (callGen (.suspended (.batch ticket))) input) =
      (.done (finished outcome "batch"), w)) ∨
    ∃ timer w' k, w.runAsks (c.resumeGen (callGen (.suspended (.batch ticket))) input) =
        (.perform (.wait (.promise ticket.seat.promise)) k, w') ∧
      (∀ outcome, k outcome = .done (finished (selectFrom ticket.seat.index outcome) "batch")) ∧
      Leaves ticket.ctx w w'
        ((tableOf ticket.ctx w).arm ticket.key ticket.seat.generation timer).2 w.promises := by
  let settle (pause : Pause T.sig.Yielded Midway) :
      T.sig.Code (T.sig.Signal × Coroutine (Opening T.sig.Gen T.Fn) Midway) :=
    .done (Coroutine.settle pause)
  rcases runAsks_proceedBatch ticket h input.outcome with
    ⟨outcome, ended⟩ | ⟨timer, w', k, waits, answers, leaves⟩
  · have settled := World.runAsks_bind _ settle ended
    exact .inl ⟨outcome, (World.runAsks_bind _ _ settled).trans rfl⟩
  · have settled := World.runAsks_bind_perform _ settle waits
    refine .inr ⟨timer, w', _, World.runAsks_bind_perform _ _ settled, fun outcome => ?_, leaves⟩
    rw [answers]
    rfl

theorem runAsks_timerGen_next (b : PendingBatch T.Fn) (v : Value) :
    w.runAsks (c.resumeGen (timerGen (.created (.executeBatch (some b)))) (.next v)) =
      (.done (.yielded (.operation (.call b.func b.args)),
        timerGen (.suspended (.executeBatch b.promise))), w) := rfl

theorem runAsks_timerGen_stopped (b : PendingBatch T.Fn) {input : Resume}
    (h : ∀ v, input ≠ .next v) :
    ∃ outcome, w.runAsks (c.resumeGen (timerGen (.created (.executeBatch (some b)))) input) =
      (.done (finished outcome "execute_batch"), w.fulfil b.promise (.error .cancelled)) := by
  cases input with
  | next v => exact absurd rfl (h v)
  | throw e => exact ⟨_, rfl⟩
  | forcedReturn => exact ⟨_, rfl⟩

theorem runAsks_timerGen_suspended (p : PromiseId) (input : Resume) :
    w.runAsks (c.resumeGen (timerGen (.suspended (.executeBatch p))) input) =
      (.done (finished input.outcome "execute_batch"), w.fulfil p input.outcome) := rfl

theorem runAsks_timerGen_none (input : Resume) :
    ∃ outcome, w.runAsks (c.resumeGen (timerGen (.created (.executeBatch none))) input) =
      (.done (finished outcome "execute_batch"), w) := by
  cases input <;> exact ⟨_, rfl⟩

end Batch

end EffectEngine
