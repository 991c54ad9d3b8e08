import EffectEngine.Script.Eval

/-!
# Operations of scripts

`invokeTarget` is what a plain function of a script builds when it is called, and `buildYield` turns
the description of what is yielded into an operation or a bare generator. Building may fail, and it
may use up the operation being handled.
-/

namespace EffectEngine.Script

variable {E : Type}

def anonymousName : String := "<anonymous generator>"

def invokeTarget (name : String) (target : FunctionTerm) (args : List Value) :
    ScriptCode E (Except Error ScriptGen) :=
  let scope : Scope AnyGen := .ofArgs args
  match target with
  | .body body => pure (.ok (.coroutine name (.created ⟨scope, body⟩)))
  | .raw true steps => pure (.ok (.raw anonymousName none steps scope))
  | .raw false steps => pure (.ok (.raw name (some name) steps scope))
  | .refuse e => do pure (.error (← evalError scope e))
  | .panic message => .panic message

def invoke (f : Fn) (args : List Value) : ScriptCode E (Except Error AnyGen) :=
  Client.invokeWith invokeTarget f args

def findFunction (name : String) : ScriptCode E (Except Error Fn) := do
  match find? name (← getSession).functions with
  | some f => pure (.ok f)
  | none => pure (.error (← newFailure ("unknown function " ++ name) []))

def buildGenerator (s : Scope AnyGen) (func : String) (args : List Expr) :
    ScriptCode E (Except Error AnyGen) := do
  match ← findFunction func with
  | .error e => pure (.error e)
  | .ok f => invoke f (← evalAll s args)

def Wrapper.wrap (w : Wrapper) (op : Op) : Op :=
  match w with
  | .fork => .fork op
  | .defer => .defer op
  | .terminal => .terminal op
  | .start => .start op
  | .next => .next op

def Wrapper.wrapTimes (w : Wrapper) : Nat → Op → Op
  | 0, op => op
  | n + 1, op => w.wrap (w.wrapTimes n op)

/-- The operation that a term describes, and the scope after it has been built. -/
def buildOp (s : Scope AnyGen) : OpTerm → ScriptCode E (Except Error Op × Scope AnyGen)
  | .call func args => do
    match ← findFunction func with
    | .error e => pure (.error e, s)
    | .ok f => pure (.ok (.call f (← evalAll s args)), s)
  | .execute func args => do
    pure ((← buildGenerator s func args).map .execute, s)
  | .wrap w op => do
    let (op, s) ← buildOp s op
    pure (op.map w.wrap, s)
  | .nest w n op => do
    let n ← eval s n
    let (op, s) ← buildOp s op
    pure (op.map (w.wrapTimes (count n)), s)
  | .recover => pure (.ok .recover, s)
  | .custom kind payload => do pure (.ok (.custom kind (← eval s payload)), s)
  | .delay ms op => do
    match ← buildOp s op with
    | (.error e, s) => pure (.error e, s)
    | (.ok op, s) => do
      let ms ← eval s ms
      pure (.ok (Delay.delay (count ms) op), s)
  | .handled =>
    match s.op with
    | some op => pure (.ok op, { s with op := none })
    | none => do pure (.error (← newFailure "op already used" []), s)

def buildYield (s : Scope AnyGen) :
    YieldTerm → ScriptCode E (Except Error (Yielded AnyGen Fn) × Scope AnyGen)
  | .op op => do
    let (op, s) ← buildOp s op
    pure (op.map .operation, s)
  | .generator func args => do
    pure ((← buildGenerator s func args).map .generator, s)

end EffectEngine.Script
