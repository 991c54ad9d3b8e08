import EffectEngine.Host
import EffectEngine.Middleware.Observe
import EffectEngine.Middleware.Batch

/-!
# Clients

A `Client` supplies generators, functions, middleware and listeners of its own; `Client.host` puts
the library's coroutines and middleware beside them.
-/

namespace EffectEngine

structure ClientSig where
  Gen : Type
  /-- What a plain function does. -/
  Target : Type
  /-- How a batched function groups its calls. -/
  Grouping : Type
  Mw : Type
  Key : Type
  User : Type
  Note : Type
  Listener : Type
  Seed : Type
  [named : Named Gen]
  [decEq : DecidableEq Key]

namespace ClientSig

variable (T : ClientSig)

instance : Named T.Gen := T.named
instance : DecidableEq T.Key := T.decEq

abbrev Fn := GeneratorFn T.Target T.Grouping

abbrev sig : Sig where
  State := Shared T.Key T.Fn T.User
  Note := T.Note
  Ctx := ContextId
  Gen := EffectEngine.Gen T.Gen T.Fn
  Fn := T.Fn
  Mw := Middleware T.Mw
  Listener := T.Listener
  Seed := T.Seed

end ClientSig

structure Client (T : ClientSig) where
  resume : T.Gen → Resume → T.sig.Code (T.sig.Signal × T.Gen)
  release : T.Gen → T.sig.Sync Unit
  filter : T.Mw → T.sig.Operation → ContextId → T.sig.Sync Bool
  handle : T.Mw → T.sig.Operation → ContextId → T.sig.Sync (Except Error T.Gen)
  /-- The generator of a plain function, given the name of the function. -/
  invoke : String → T.Target → List Value → T.sig.Sync (Except Error T.Gen)
  key : T.Grouping → List Value → T.sig.Sync Value
  hook : T.Listener → Hook → ContextId → T.sig.Code (Except Error Unit)
  start : T.Seed → T.sig.Code Outcome
  crash : String → T.Note

namespace Client

variable {T : ClientSig}

/-- How the coroutines of the library run. -/
def libraryBody :
    Body (Effect ContextId T.sig.Gen T.Fn T.Seed) T.sig.State T.Note T.sig.Yielded
      (Opening T.sig.Gen T.Fn) Midway where
  start
    | .delay ms op => Delay.start ms op
    | .trace label op => Trace.start label op
    | .metrics counters op => Metrics.start counters op
    | .standalone func args => Batch.startStandalone func args
    | .batch ticket => Batch.startBatch ticket
    | .executeBatch batch => Batch.startExecute batch
  proceed
    | .delay, outcome => pure (.finish outcome)
    | .trace label kind, outcome => Trace.proceed label kind outcome
    | .metrics counters, outcome => Metrics.proceed counters outcome
    | .standalone, outcome => pure (.finish (Batch.selectFrom 0 outcome))
    | .batch ticket, outcome => Batch.proceedBatch ticket outcome
    | .executeBatch promise, outcome => Batch.proceedExecute promise outcome
  release
    | .executeBatch (some batch) => Batch.abandon batch.promise
    | _ => pure ()

def resumeGen (c : Client T) (g : T.sig.Gen) (input : Resume) :
    T.sig.Code (T.sig.Signal × T.sig.Gen) :=
  match g with
  | .library name coroutine =>
    (coroutine.resume libraryBody input).bind fun (signal, coroutine) =>
      .done (signal, .library name coroutine)
  | .client g => (c.resume g input).bind fun (signal, g) => .done (signal, .client g)

/-- Lets go of a generator. A batch that will not be run is given up. -/
def releaseGen (c : Client T) (g : T.sig.Gen) : T.sig.Sync Unit :=
  match g with
  | .library _ (.created (.executeBatch (some batch))) => Batch.abandon batch.promise
  | .library _ (.suspended (.executeBatch promise)) => Batch.abandon promise
  | .library .. => pure ()
  | .client g => c.release g

def filterMw (c : Client T) (m : Middleware T.Mw) (op : T.sig.Operation) (ctx : ContextId) :
    T.sig.Sync Bool :=
  match m with
  | .trace _ | .metrics _ => pure true
  | .batchCalls _ => pure (Batch.accepts op)
  | .executeBatch => pure (Batch.carriesKey op)
  | .client m => c.filter m op ctx

def handleMw (c : Client T) (m : Middleware T.Mw) (op : T.sig.Operation) (ctx : ContextId) :
    T.sig.Sync (Except Error T.sig.Gen) :=
  match m with
  | .trace label => pure (.ok (.ofOpening (.trace label op)))
  | .metrics counters => do
    Shared.count counters Metrics.handled
    pure (.ok (.ofOpening (.metrics counters op)))
  | .batchCalls timeout => Batch.handleCall c.key timeout op ctx
  | .executeBatch => Batch.handleExecute op ctx
  | .client m => (c.handle m op ctx).bind fun result => .done (result.map .client)

/-- The generator of a called function, given how the client's plain functions build theirs. A
batched function called without batching runs a batch of one. -/
def invokeWith {E σ N γ φ κ : Type}
    (invoke : String → φ → List Value → Code E σ N (Except Error γ)) (f : GeneratorFn φ κ)
    (args : List Value) : Code E σ N (Except Error (EffectEngine.Gen γ (GeneratorFn φ κ))) :=
  match f with
  | .plain name _ _ target =>
    (invoke name target args).bind fun result => .done (result.map .client)
  | .batched _ _ underlying _ => pure (.ok (Batch.standalone underlying args))

def host (c : Client T) (registry : Registry (Middleware T.Mw)) (listeners : List T.Listener) :
    Host T.sig where
  registry := registry
  listeners := listeners
  resume := c.resumeGen
  release := c.releaseGen
  filter := c.filterMw
  handle := c.handleMw
  invoke := invokeWith c.invoke
  hook := c.hook
  start := c.start
  crash := c.crash

end Client

end EffectEngine
