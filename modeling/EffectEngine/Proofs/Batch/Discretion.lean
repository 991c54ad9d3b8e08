import EffectEngine.Client
import EffectEngine.Proofs.World.Engaged

/-!
# Code that leaves batching alone

`Batch.PlainOp` and `Batch.PlainGen` hold of all operations and generators but those by which calls
are batched: the flush of a batch, and the generator of a call that joined one. `Batch.conduct`
forbids code to hand over anything else, and to touch the table of batches. If the code of a client
keeps to that, so does all code of the library apart from what its middleware does with calls of
batched functions.
-/

namespace EffectEngine

namespace Batch

mutual

/-- An operation that does not flush a batch, whatever it comes to. -/
inductive PlainOp {γ F : Type} : Operation (Gen γ F) F → Prop
  | call (func : F) (args : List Value) : PlainOp (.call func args)
  | execute {g : Gen γ F} (plain : PlainGen g) : PlainOp (.execute g)
  | recover : PlainOp .recover
  | custom (kind : String) {payload : Value} (keyless : payload.batchKey? = none) :
    PlainOp (.custom kind payload)
  | inner {op inner : Operation (Gen γ F) F} (holds : op.inner? = some inner)
    (plain : PlainOp inner) : PlainOp op

/-- A generator that yields plain operations only. -/
inductive PlainGen {γ F : Type} : Gen γ F → Prop
  | client (g : γ) : PlainGen (.client g)
  | delay (name : String) (ms : Nat) {op : Operation (Gen γ F) F} (plain : PlainOp op) :
    PlainGen (.library name (.created (.delay ms op)))
  | delaying (name : String) : PlainGen (.library name (.suspended .delay))
  | standalone (name : String) (func : F) (args : List Value) :
    PlainGen (.library name (.created (.standalone func args)))
  | standingAlone (name : String) : PlainGen (.library name (.suspended .standalone))
  | executeBatch (name : String) (batch : Option (PendingBatch F)) :
    PlainGen (.library name (.created (.executeBatch batch)))
  | executing (name : String) (promise : PromiseId) :
    PlainGen (.library name (.suspended (.executeBatch promise)))
  | finished (name : String) : PlainGen (.library name .finished)

end

theorem PlainOp.of_inner {γ F : Type} {op inner : Operation (Gen γ F) F}
    (holds : op.inner? = some inner) (plain : PlainOp op) : PlainOp inner := by
  cases plain with
  | inner holds' plain => exact Option.some.inj (holds'.symm.trans holds) ▸ plain
  | call | execute | recover | custom => cases holds

theorem PlainOp.execute_iff {γ F : Type} {g : Gen γ F} :
    PlainOp (.execute g) ↔ PlainGen g := by
  refine ⟨fun plain => ?_, .execute⟩
  cases plain with
  | execute plain => exact plain
  | inner holds => cases holds

theorem PlainOp.keyless {γ F : Type} {kind : String} {payload : Value}
    (plain : PlainOp (.custom kind payload : Operation (Gen γ F) F)) :
    payload.batchKey? = none := by
  cases plain with
  | custom _ keyless => exact keyless
  | inner holds => cases holds

variable {T : ClientSig}

/-- The middleware of batching, with a timeout. -/
def plugin (timeout : Nat) : Registry (Middleware T.Mw) :=
  ⟨[⟨callKind, .batchCalls timeout⟩, ⟨executeKind, .executeBatch⟩]⟩

/-- What code may do that leaves the batching of calls to the library, where all tasks share a
context. -/
def conduct (T : ClientSig) (ctx : ContextId) (timeout : Nat) : Conduct T.sig where
  permits :=
    { generator := PlainGen
      operation := PlainOp
      middleware := fun m => m = .batchCalls timeout ∨ m = .executeBatch
      execute := PlainOp.execute_iff
      inner := PlainOp.of_inner }
  context := (· = ctx)
  spares s s' := s.contexts.size ≤ s'.contexts.size ∧ table? (ctx.slots s') = table? (ctx.slots s)
  spares_refl _ := ⟨Nat.le_refl _, rfl⟩
  spares_trans h h' := ⟨Nat.le_trans h.1 h'.1, h'.2.trans h.2⟩

/-- The code of a client leaves the batching of calls to the library. -/
structure Discreet (c : Client T) (ctx : ContextId) (timeout : Nat) : Prop where
  resume : ∀ g input s, (conduct T ctx timeout).code
    (fun r => (conduct T ctx timeout).permits.signal r.1) (c.resume g input) s
  release : ∀ g s, (conduct T ctx timeout).sync (fun _ => True) (c.release g) s
  invoke : ∀ name target args s,
    (conduct T ctx timeout).sync (fun _ => True) (c.invoke name target args) s
  key : ∀ grouping args s, (conduct T ctx timeout).sync (fun _ => True) (c.key grouping args) s
  hook : ∀ listener hook s,
    (conduct T ctx timeout).code (fun _ => True) (c.hook listener hook ctx) s
  start : ∀ seed s, (conduct T ctx timeout).code (fun _ => True) (c.start seed) s

variable {c : Client T} {ctx : ContextId} {timeout : Nat}

/-- All code of the library is discreet if that of the client is. -/
theorem Discreet.obeyed (h : Discreet c ctx timeout) (listeners : List T.Listener) :
    (conduct T ctx timeout).Obeyed (c.host (plugin timeout) listeners) where
  registers := by
    intro r hr
    rcases List.mem_cons.1 hr with rfl | hr
    · exact .inl rfl
    · rw [List.mem_singleton.1 hr]
      exact .inr rfl
  resume := by
    intro g plain input s
    cases plain with
    | client g =>
      refine Code.Discreet.bind (h.resume g input s) ?_
      exact fun r s signal => ⟨signal, .client r.2⟩
    | delay name ms plain =>
      cases input with
      | next v => exact ⟨trivial, fun r s' => ⟨plain, .delaying name⟩⟩
      | throw | forcedReturn => exact ⟨trivial, .finished name⟩
    | delaying name => exact ⟨trivial, .finished name⟩
    | standalone name func args =>
      cases input with
      | next v => exact ⟨.call _ _, .standingAlone name⟩
      | throw | forcedReturn => exact ⟨trivial, .finished name⟩
    | standingAlone name => exact ⟨trivial, .finished name⟩
    | executeBatch name batch =>
      cases batch with
      | none => cases input <;> exact ⟨trivial, .finished name⟩
      | some b =>
        cases input with
        | next v => exact ⟨.call _ _, .executing name b.promise⟩
        | throw | forcedReturn => exact ⟨trivial, .finished name⟩
    | executing name promise => exact ⟨trivial, .finished name⟩
    | finished name => cases input <;> exact ⟨trivial, .finished name⟩
  release := by
    intro g s
    simp only [Client.host, Client.releaseGen]
    split
    · trivial
    · trivial
    · trivial
    · exact h.release _ s
  filter := by
    rintro m op (rfl | rfl) ctx s <;> trivial
  invoke := by
    intro func args s
    cases func with
    | plain name identity extensions target =>
      refine Code.Discreet.bind (h.invoke name target args s) fun result s _ g made => ?_
      cases result with
      | error e => cases made
      | ok g' => exact Except.ok.inj made ▸ .client g'
    | batched identity extensions underlying key =>
      exact fun g made => Except.ok.inj made ▸ .standalone _ underlying args
  hook := by
    rintro listener hook _ s rfl
    exact h.hook listener hook s
  start := h.start

end Batch

end EffectEngine
