import EffectEngine.Script.Setup

/-!
# Trying out parts of a script

A `Bench` holds functions and variables with which expressions, operations, contexts, middleware
and generators can be tried out one by one, without running an engine.
-/

namespace EffectEngine.Script

/-- The tag of tasks, functions, and variables with their expressions in the order of definition. -/
structure Bench where
  tag : UInt64
  functions : List FunctionDef
  vars : List (String × Expr)

namespace Bench

def scope (b : Bench) : SyncCode (Scope AnyGen) :=
  b.vars.foldlM (fun s (name, x) => do pure (s.set (some name) (← eval s x))) Scope.empty

/-- Runs code that never waits, in a scope with the variables; the error is the message of a
panic. -/
def run {α : Type} (b : Bench) (state : State) (code : Scope AnyGen → SyncCode α) :
    Except String α × World scriptSig.sig :=
  (World.start b.tag state false).runSync (b.scope.bind code)

def state (b : Bench) : State := stateWith b.functions

def values (b : Bench) (xs : List Expr) : Except String (List Value) :=
  (b.run b.state fun s => evalAll s xs).1

def errors (b : Bench) (es : List ErrorTerm) : Except String (List Error) :=
  (b.run b.state fun s => es.mapM (evalError s)).1

def operations (b : Bench) (ys : List YieldTerm) :
    Except String (List (Except Error (Yielded AnyGen Fn))) :=
  (b.run b.state fun s => ys.mapM fun y => do pure (← buildYield s y).1).1

def tryFunction (b : Bench) (f : Fn) : Except String (Except Error String) :=
  (b.run b.state fun _ => do pure ((← invoke f []).map Named.name)).1

def definedFunctions (b : Bench) : List Fn :=
  b.functions.filterMap fun d => find? d.name b.state.user.functions

end Bench

inductive ContextStep where
  | put (ctx : String) (slot : UserSlot) (x : Expr)
  | get (ctx : String) (slot : UserSlot)
  | delete (ctx : String) (slot : UserSlot)
  | has (ctx : String) (slot : UserSlot)
  | init (ctx : String) (slot : UserSlot) (x : Expr)
  /-- Makes the second name one for the first one's context. -/
  | clone (ctx copy : String)
  | same (ctx other : String)
  | debug (ctx : String)
  | mapPut (slot : UserSlot) (x : Expr)
  | mapGet (slot : UserSlot)
  | mapDelete (slot : UserSlot)
  | mapHas (slot : UserSlot)
  | mapInfo

inductive ContextAnswer where
  | nothing
  | stored (v : Option Value)
  | flag (b : Bool)
  | text (s : String)
  | info (size : Nat) (isEmpty : Bool) (debug : String)

abbrev UserMap := TypeMap fun _ : UserSlot => Value

def contextStep (s : Scope AnyGen) (m : UserMap) :
    ContextStep → SyncCode (ContextAnswer × UserMap)
  | .put ctx slot x => do
    let v ← eval s x
    pure (.stored (← putSlot (← namedContext ctx) slot v), m)
  | .get ctx slot => do pure (.stored (← getSlot (← namedContext ctx) slot), m)
  | .delete ctx slot => do pure (.stored (← deleteSlot (← namedContext ctx) slot), m)
  | .has ctx slot => do pure (.flag (← hasSlot (← namedContext ctx) slot), m)
  | .init ctx slot x => do
    let ctx ← namedContext ctx
    pure (.stored (some (← initSlot ctx slot (eval { s with ctx := some ctx } x))), m)
  | .clone ctx copy => do
    let ctx ← namedContext ctx
    modifySession fun u => { u with contexts := define copy ctx u.contexts }
    pure (.nothing, m)
  | .same ctx other => do
    let ctx ← namedContext ctx
    pure (.flag (ctx == (← namedContext other)), m)
  | .debug ctx => do
    pure (.text (← (← namedContext ctx).debug (V := Slot.Content Fn (χ := UserSlot))), m)
  | .mapPut slot x => do
    let v ← eval s x
    pure (.stored (m.get? slot), m.insert slot v)
  | .mapGet slot => pure (.stored (m.get? slot), m)
  | .mapDelete slot => pure (.stored (m.get? slot), m.erase slot)
  | .mapHas slot => pure (.flag (m.contains slot), m)
  | .mapInfo => pure (.info m.size (m.size == 0) m.debug, m)

def contextSteps (s : Scope AnyGen) (m : UserMap) :
    List ContextStep → SyncCode (List ContextAnswer)
  | [] => pure []
  | step :: rest => do
    let (answer, m) ← contextStep s m step
    pure (answer :: (← contextSteps s m rest))

def Bench.contexts (b : Bench) (steps : List ContextStep) :
    Except String (List ContextAnswer) :=
  (b.run b.state fun s => contextSteps s .empty steps).1

def asOperation : Yielded AnyGen Fn → Op
  | .operation op => op
  | .generator g => .execute g

/-- The kind of an operation, and which middleware of that kind accept it; none if there is no
middleware of the kind. -/
abbrev Acceptance := String × Option (List Bool)

def acceptance (registry : Registry (Middleware MiddlewareTerm)) (ctx : ContextId) (op : Op) :
    SyncCode Acceptance :=
  if registry.contains op.kind then do
    pure (op.kind, some (← (registry.handlers op.kind).mapM fun m =>
      scriptClient.filterMw m op ctx))
  else pure (op.kind, none)

/-- A registry that was set up, what its middleware accept and the journal of asking them. -/
structure RegistryReport where
  registry : Registry (Middleware MiddlewareTerm)
  accepted : List (Except Error Acceptance)
  journal : List (Entry Note)

def Bench.registry (b : Bench) (entries : List MiddlewareEntry) (ys : List YieldTerm) :
    Except String RegistryReport :=
  let builder := entries.foldl Builder.register ⟨b.state, [], []⟩
  let (accepted, w) := b.run builder.state fun s => do
    let ctx ← newContext
    ys.mapM fun y => do
      match (← buildYield s y).1 with
      | .error e => pure (Except.error e)
      | .ok y => do pure (.ok (← acceptance builder.registry ctx (asOperation y)))
  accepted.map fun accepted => ⟨builder.registry, accepted, w.journal.reverse⟩

/-- What a middleware makes of an operation: whether it accepts it, the name of the generator it
handles it with, and the context afterwards. -/
structure Handling where
  accepts : Bool
  handled : Except Error String
  ctx : String

def tryMiddleware (m : Middleware MiddlewareTerm) (ctx : ContextId) (op : Op) :
    SyncCode Handling := do
  let accepts ← scriptClient.filterMw m op ctx
  let result ← scriptClient.handleMw m op ctx
  let text ← ctx.debug (V := Slot.Content Fn (χ := UserSlot))
  pure ⟨accepts, result.map Named.name, text⟩

/-- Has a middleware look at operations, all in one context; answers with the counters as well. -/
def Bench.middleware (b : Bench) (entry : MiddlewareEntry) (ys : List YieldTerm) :
    Except String (List (Except Error Handling) × List (String × Counters)) :=
  let (m, state) := middlewareOf b.state entry.form
  let (handlings, w) := b.run state fun s => do
    let ctx ← newContext
    ys.mapM fun y => do
      match (← buildYield s y).1 with
      | .error e => pure (Except.error e)
      | .ok y => do pure (.ok (← tryMiddleware m ctx (asOperation y)))
  handlings.map fun handlings => (handlings, countersByName w.state)

inductive ResumeTerm where
  | next (x : Expr)
  | throw (e : ErrorTerm)
  | forcedReturn

def evalResume {E : Type} (s : Scope AnyGen) : ResumeTerm → ScriptCode E Resume
  | .next x => do pure (.next (← eval s x))
  | .throw e => do pure (.throw (← evalError s e))
  | .forcedReturn => pure .forcedReturn

def resumptionNote (input : Resume) : Signal AnyGen Fn → Note
  | .yielded y => .resumption input (.inl y.debug)
  | .complete outcome => .resumption input (.inr outcome)

/-- Resumes a generator step by step; each step is noted after what the generator notes. -/
def drive (s : Scope AnyGen) : AnyGen → List ResumeTerm → OuterCode Unit
  | _, [] => pure ()
  | g, r :: rest => do
    let input ← evalResume s r
    let (signal, g) ← scriptClient.resumeGen g input
    Code.note (resumptionNote input signal)
    drive s g rest

def driveNew (scope : OuterCode (Scope AnyGen)) (y : YieldTerm) (rs : List ResumeTerm) :
    OuterCode Outcome := do
  let s ← scope
  match (← buildYield s y).1 with
  | .error e => pure (.error e)
  | .ok (.operation op) => pure (.error (.usage op.kind "not a generator"))
  | .ok (.generator g) => do
    drive s g rs
    pure (.ok (.str (Named.name g)))

def Bench.resume (b : Bench) (y : YieldTerm) (rs : List ResumeTerm) :
    MainResult × List (Entry Note) :=
  let w := (World.start b.tag b.state false).runToEnd (scriptClient.host default []) moveLimit
    (driveNew (Code.lift b.scope) y rs)
  (w.mainResult, w.journal.reverse)

end EffectEngine.Script
