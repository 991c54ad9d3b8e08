import EffectEngine.Script.Client
import EffectEngine.Machine
import EffectEngine.Config

/-!
# Setting up and running scripts

A `Program` defines functions, sets up an engine and runs a main body. `Program.run` answers with a
`Report` of the run.
-/

namespace EffectEngine.Script

/-- How a function is defined. Batched functions and aliases refer to functions defined before. -/
inductive FunctionForm where
  | plain (shown : String) (target : FunctionTerm)
  | batched (func : String) (grouping : GroupingTerm)
  | alias (func : String) (int : Option Int64) (text : Option String)

structure FunctionDef where
  name : String
  form : FunctionForm

inductive MiddlewareForm where
  | client (m : MiddlewareTerm)
  | trace (label : String)
  /-- Middleware with counters of a name; equal names share them. -/
  | metrics (name : String)
  | batchCalls (config : BatchConfig)
  | executeBatch

structure MiddlewareEntry where
  kind : String
  form : MiddlewareForm

inductive SetupEntry where
  | middleware (m : MiddlewareEntry)
  | batching (config : BatchConfig)
  | plugin (registrations : List MiddlewareEntry) (listener : Option ListenerTerm)
  | listener (l : ListenerTerm)

structure Program where
  tag : UInt64
  config : EngineConfig
  functions : List FunctionDef
  setup : List SetupEntry
  main : List Stmt

/-- What a run comes to: the recorded diagnostics, the journal from its beginning, the counters by
name and the result of the main body. -/
structure Report where
  diagnostics : List Diagnostic
  journal : List (Entry Note)
  metrics : List (String × Counters)
  result : MainResult

def modifyUser (s : State) (change : Session → Session) : State :=
  { s with user := change s.user }

/-- Defines a function. One that refers to an unknown function is not defined. -/
def defineFunction (s : State) (d : FunctionDef) : State :=
  let bind (s : State) (f : Fn) : State :=
    modifyUser s fun u => { u with functions := define d.name f u.functions }
  match d.form with
  | .plain shown target =>
    let (id, s) := s.nextAllocation
    bind s (.plain shown id ⟨none, none⟩ target)
  | .batched func grouping =>
    match find? func s.user.functions with
    | some f =>
      let (id, s) := s.nextAllocation
      bind s (.batched id ⟨none, none⟩ f grouping)
    | none => s
  | .alias func int text =>
    match find? func s.user.functions with
    | some f => bind s (f.modifyExtensions fun e => ⟨int <|> e.int, text <|> e.text⟩)
    | none => s

/-- The counters of a name, made when the name is first used. -/
def countersOf (s : State) (name : String) : CountersId × State :=
  match find? name s.user.counters with
  | some id => (id, s)
  | none =>
    let id : CountersId := ⟨s.counters.size⟩
    (id, modifyUser { s with counters := s.counters.push default } fun u =>
      { u with counters := u.counters ++ [(name, id)] })

def middlewareOf (s : State) : MiddlewareForm → Middleware MiddlewareTerm × State
  | .client m => (.client m, s)
  | .trace label => (.trace label, s)
  | .metrics name =>
    let (id, s) := countersOf s name
    (.metrics id, s)
  | .batchCalls config => (.batchCalls config.timeoutMs.toNat, s)
  | .executeBatch => (.executeBatch, s)

structure Builder where
  state : State
  registrations : List (Registration (Middleware MiddlewareTerm))
  listeners : List ListenerTerm

namespace Builder

def register (b : Builder) (m : MiddlewareEntry) : Builder :=
  let (middleware, state) := middlewareOf b.state m.form
  { b with state, registrations := b.registrations ++ [⟨m.kind, middleware⟩] }

def listen (b : Builder) (l : ListenerTerm) : Builder :=
  { b with listeners := b.listeners ++ [l] }

def add (b : Builder) : SetupEntry → Builder
  | .middleware m => b.register m
  | .batching config =>
    (b.register ⟨callKind, .batchCalls config⟩).register ⟨Batch.executeKind, .executeBatch⟩
  | .plugin registrations listener =>
    let b := registrations.foldl register b
    match listener with
    | some l => b.listen l
    | none => b
  | .listener l => b.listen l

def registry (b : Builder) : Registry (Middleware MiddlewareTerm) := ⟨b.registrations⟩

def host (b : Builder) : Host scriptSig.sig := scriptClient.host b.registry b.listeners

def debug (b : Builder) (config : EngineConfig) : String :=
  "Engine \x7b registry: " ++ b.registry.debug ++ ", listeners: " ++ toString b.listeners.length
    ++ ", config: " ++ config.debug ++ " \x7d"

end Builder

def stateWith (functions : List FunctionDef) : State :=
  functions.foldl defineFunction (Shared.start Session.empty)

/-- The most moves that a run may take before and after the main body ends. -/
def moveLimit : Nat := 1000000000

namespace Program

def builder (p : Program) : Builder :=
  p.setup.foldl Builder.add ⟨stateWith p.functions, [], []⟩

def world (p : Program) : World scriptSig.sig :=
  let b := p.builder
  .start p.tag (modifyUser b.state fun u => { u with engine := some (b.debug p.config) })
    p.config.recordDiagnostics

def run (p : Program) : Report :=
  let main := (bodyCode p.main Scope.empty).withoutSuspend
  let (result, w) := p.world.runMain p.builder.host moveLimit main
  ⟨w.recorder.recorded, w.journal.reverse, countersByName w.state, result⟩

end Program

end EffectEngine.Script
