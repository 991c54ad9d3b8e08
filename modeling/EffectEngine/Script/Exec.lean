import EffectEngine.Script.Build

/-!
# Statements of scripts

`exec` and `execAll` turn statements into code. A block may end in three ways (`Ending`): it falls
through, it is left with a value, or it raises an error.
-/

namespace EffectEngine.Script

inductive Ending where
  | fell
  | left (v : Value)
  | raised (e : Error)

def Ending.outcome : Ending → Outcome
  | fell => .ok .null
  | left v => .ok v
  | raised e => .error e

def effect (e : Effect ContextId AnyGen Fn ThreadTerm) : BodyCode Outcome :=
  Code.effect (.run e)

/-- Stores an outcome under a name, or raises its error. -/
def store (s : Scope AnyGen) (name : Option String) : Outcome → Ending × Scope AnyGen
  | .ok v => (.fell, s.set name v)
  | .error e => (.raised e, s)

def joinAll : List ThreadId → BodyCode Unit
  | [] => pure ()
  | id :: rest => do
    let _ ← effect (.wait (.thread id))
    joinAll rest

/-- Runs a block for `n` and the following numbers, until it does not fall through. -/
def repeatFrom (name : Option String)
    (body : Scope AnyGen → BodyCode (Ending × Scope AnyGen)) :
    Nat → Nat → Scope AnyGen → BodyCode (Ending × Scope AnyGen)
  | 0, _, s => pure (.fell, s)
  | rounds + 1, n, s => do
    match ← body (s.set name (.int (.ofNat n))) with
    | (.fell, s) => repeatFrom name body rounds (n + 1) s
    | ended => pure ended

def execYield (s : Scope AnyGen) (name : Option String) (y : YieldTerm) :
    BodyCode (Ending × Scope AnyGen) := do
  match ← buildYield s y with
  | (.error e, s) => pure (.raised e, s)
  | (.ok y, s) => do pure (store s name (← Code.effect (.suspend y)))

/-- Builds what a term describes and hands it to a new task in a named context. -/
def execTask (s : Scope AnyGen) (name : Option String) (y : YieldTerm) (ctx : Option String)
    (start : ContextId → Yielded AnyGen Fn → Effect ContextId AnyGen Fn ThreadTerm) :
    BodyCode (Ending × Scope AnyGen) := do
  match ← buildYield s y with
  | (.error e, s) => pure (.raised e, s)
  | (.ok y, s) => do
    let ctx ← contextOf ctx
    pure (store s name (← effect (start ctx y)))

mutual

def exec : Stmt → Scope AnyGen → BodyCode (Ending × Scope AnyGen)
  | .assign name x, s => do pure (.fell, s.set name (← eval s x))
  | .assignGlobal name x, s => do
    let v ← eval s x
    modifySession fun u => { u with globals := define name v u.globals }
    pure (.fell, s)
  | .log x, s => do
    Code.note (.value (← eval s x))
    pure (.fell, s)
  | .eval x, s => do
    let _ ← eval s x
    pure (.fell, s)
  | .cond test yes no, s => do
    if (← eval s test).isTruthy then execAll yes s else execAll no s
  | .repeated name n body, s => do
    repeatFrom name (fun s => execAll body s) (count (← eval s n)) 0 s
  | .leave x, s => do pure (.left (← eval s x), s)
  | .throw x, s => do pure (.raised (← raisedBy (← eval s x)), s)
  | .attempt body name handler, s => do
    match ← execAll body s with
    | (.raised e, s) => execAll handler (s.set name (.error e))
    | ended => pure ended
  | .ensure body last, s => do
    let (first, s) ← execAll body s
    match ← execAll last s with
    | (.fell, s) => pure (first, s)
    | ended => pure ended
  | .sleep ms, s => do
    let _ ← effect (.wait (.sleep (count (← eval s ms))))
    pure (.fell, s)
  | .panic message, _ => .panic message
  | .await name task, s => do
    match (← eval s task).intoTask with
    | .error e => pure (.raised e, s)
    | .ok id => do pure (store s name (← effect (.wait (.task id))))
  | .cancel task, s => do
    match (← eval s task).intoTask with
    | .error e => pure (.raised e, s)
    | .ok id => do
      match ← id.cancel.embed .run with
      | .ok _ => pure (.fell, s)
      | .error e => pure (.raised e, s)
  | .intoList name x, s => do pure (store s name ((← eval s x).intoList.map .list))
  | .yield name y, s => execYield s name y
  | .run name y ctx, s => execTask s name y ctx .run
  | .runCall name func args, s => execTask s name (.op (.call func args)) none .run
  | .spawn name y ctx, s => execTask s name y ctx .spawn
  | .useContext name, s => do pure (.fell, { s with ctx := some (← contextOf (some name)) })
  | .go body, s => do
    match ← effect (.go ⟨s.vars, s.ctx, body⟩) with
    | .ok v =>
      modifySession fun u => { u with threads := u.threads ++ [⟨count v⟩] }
      pure (.fell, s)
    | .error e => pure (.raised e, s)
  | .join, s => do
    let threads := (← getSession).threads
    modifySession fun u => { u with threads := [] }
    joinAll threads
    pure (.fell, s)
  | .logDiagnostics, s => do
    Code.note (.diagnostics (← Code.recorded))
    pure (.fell, s)
  | .clearDiagnostics, s => do
    Code.clearRecorded
    pure (.fell, s)
  | .logMetrics, s => do
    Code.note (.metrics (countersByName (← Code.getState)))
    pure (.fell, s)

def execAll : List Stmt → Scope AnyGen → BodyCode (Ending × Scope AnyGen)
  | [], s => pure (.fell, s)
  | stmt :: rest, s => do
    match ← exec stmt s with
    | (.fell, s) => execAll rest s
    | ended => pure ended

end

def bodyCode (body : List Stmt) (s : Scope AnyGen) : BodyCode Outcome :=
  (execAll body s).bind fun (ending, _) => .done ending.outcome

end EffectEngine.Script
