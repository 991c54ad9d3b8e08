import EffectEngine.Script.Exec

/-!
# Scripts as a client

`scriptClient` drives the generators, middleware and listeners that scripts describe.
-/

namespace EffectEngine.Script

abbrev OuterCode (α : Type) := Code (Effect ContextId AnyGen Fn ThreadTerm) State Note α

abbrev SyncCode (α : Type) := ScriptCode Empty α

def scriptBody :
    Body (Effect ContextId AnyGen Fn ThreadTerm) State Note (Yielded AnyGen Fn) (BodyTerm AnyGen)
      (Outcome → BodyCode Outcome) where
  start b := (bodyCode b.body b.scope).untilSuspend
  proceed k outcome := (k outcome).untilSuspend
  release _ := pure ()

def inputValue : Resume → Value
  | .next v => v
  | .throw e => .error e
  | .forcedReturn => .null

/-- Takes raw steps until one of them suspends or completes; what is left is taken at the next
resumption. -/
def takeSteps (name : String) (shown : Option String) :
    List RawStep → Scope AnyGen → OuterCode (Signal AnyGen Fn × ScriptGen)
  | [], s => pure (.complete (.ok .null), .raw name shown [] s)
  | .yield y :: rest, s => do
    match ← buildYield s y with
    | (.ok y, s) => pure (.yielded y, .raw name shown rest s)
    | (.error e, s) => pure (.complete (.error e), .raw name shown rest s)
  | .done x :: rest, s => do pure (.complete (.ok (← eval s x)), .raw name shown rest s)
  | .fail e :: rest, s => do pure (.complete (.error (← evalError s e)), .raw name shown rest s)
  | .sleep ms :: rest, s => do
    let _ ← Code.effect (.wait (.sleep (count (← eval s ms))))
    takeSteps name shown rest s
  | .eval x :: rest, s => do
    let _ ← eval s x
    takeSteps name shown rest s
  | .panic message :: _, _ => .panic message

/-- One resumption of a generator of a script. A raw one notes it and sees the input as the
variable `in`. -/
def resumeGen (g : ScriptGen) (input : Resume) : OuterCode (Signal AnyGen Fn × ScriptGen) :=
  match g with
  | .coroutine name c =>
    (c.resume scriptBody input).bind fun (signal, c) => .done (signal, .coroutine name c)
  | .raw name shown steps scope => do
    Code.note (.resume shown input)
    takeSteps name shown steps (scope.set (some "in") (inputValue input))

def handlerScope (op : Op) (ctx : ContextId) : Scope AnyGen :=
  ⟨[], [], some ctx, some (.ofOp op), none⟩

def filterMw (m : MiddlewareTerm) (op : Op) (ctx : ContextId) : SyncCode Bool :=
  match m.filter with
  | none => pure true
  | some x => do pure (← eval (handlerScope op ctx) x).isTruthy

def handleMw (m : MiddlewareTerm) (op : Op) (ctx : ContextId) :
    SyncCode (Except Error ScriptGen) := do
  let scope := { handlerScope op ctx with op := some op }
  if let some x := m.before then
    let _ ← eval scope x
  match m.handler with
  | .body name body => pure (.ok (.coroutine name (.created ⟨scope, body⟩)))
  | .raw name steps => pure (.ok (.raw name (some name) steps scope))
  | .refuse e => pure (.error (← evalError scope e))
  | .panic message => .panic message

def callKey (g : GroupingTerm) (args : List Value) : SyncCode Value :=
  match g with
  | .together => pure (.bool true)
  | .by x => eval (.ofArgs args) x

def hookName : Hook → String
  | .setUp => "initialize"
  | .preComplete _ => "pre_complete"
  | .complete _ => "complete"
  | .error _ => "error"
  | .finalize _ => "finalize"

def runHook (scope : Scope AnyGen) (h : HookTerm) : OuterCode (Except Error Unit) := do
  if let some x := h.eval then
    let _ ← eval scope x
  if let some ms := h.sleep then
    let _ ← Code.effect (.wait (.sleep (count (← eval scope ms))))
  if let some message := h.panic then
    let _ : Unit ← .panic message
  match h.fail with
  | some e => pure (.error (← evalError scope e))
  | none => pure (.ok ())

/-- A call of a hook. Only the hook that precedes the task sees the context. -/
def callHook (l : ListenerTerm) (hook : Hook) (ctx : ContextId) :
    OuterCode (Except Error Unit) :=
  match l with
  | .silent => pure (.ok ())
  | .named name hooks => do
    Code.note (.hook name hook)
    let scope : Scope AnyGen := match hook with
      | .setUp => { Scope.empty with ctx := some ctx }
      | _ => Scope.empty
    match find? (hookName hook) hooks with
    | some h => runHook scope h
    | none => pure (.ok ())

/-- The body of a thread. An error that ends it is noted. -/
def runThread (t : ThreadTerm) : OuterCode Outcome := do
  let outcome ← (bodyCode t.body { Scope.empty with vars := t.vars, ctx := t.ctx }).withoutSuspend
  match outcome with
  | .ok _ => pure ()
  | .error e => Code.note (.threadFailed e)
  pure outcome

def scriptClient : Client scriptSig where
  resume := resumeGen
  release _ := pure ()
  filter := filterMw
  handle := handleMw
  invoke := invokeTarget
  key := callKey
  hook := callHook
  start := runThread
  crash := .threadPanicked

end EffectEngine.Script
