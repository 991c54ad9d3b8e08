import EffectEngine.Script.State

/-!
# Expressions of scripts

`eval` computes the value of an expression and `evalError` the error that a term describes. Neither
fails: a value of an unsuitable type counts as zero, empty or null.
-/

namespace EffectEngine.Script

variable {E : Type}

/-- An integer; any other value counts as zero. -/
def number (v : Value) : Int64 := (v.int?).getD 0

/-- A count: a negative one is zero. -/
def count (v : Value) : Nat := (number v).toInt.toNat

def items (v : Value) : List Value := (v.list?).getD []

def itemAt (vs : List Value) (index : Value) : Value :=
  let i := (number index).toInt
  if i < 0 then .null else (vs[i.toNat]?).getD .null

def textOrNull : Option String → Value
  | some s => .str s
  | none => .null

def rangeTo (n : Nat) : List Value := (List.range n).map fun i => .int (.ofNat i)

def wrapped : Nat → Value → Value
  | 0, v => v
  | n + 1, v => .list [wrapped n v]

def copies (n : Nat) (s : String) : String := String.join (List.replicate n s)

/-- What a use of the body's context comes to, or a fixed value without a context. -/
def withContext (s : Scope AnyGen) (absent : Value) (use : ContextId → ScriptCode E Value) :
    ScriptCode E Value :=
  match s.ctx with
  | some ctx => use ctx
  | none => .done absent

def valueOrNull (v : Option Value) : Value := v.getD .null

mutual

def eval (s : Scope AnyGen) : Expr → ScriptCode E Value
  | .null => .done .null
  | .bool b => .done (.bool b)
  | .int i => .done (.int i)
  | .float x => .done (.float x)
  | .str t => .done (.str t)
  | .list xs => do pure (.list (← evalAll s xs))
  | .error e => do pure (.error (← evalError s e))
  | .labelled label => do pure (.sealed (← Shared.allocate) (.labelled label))
  | .foreign => do pure (.sealed (← Shared.allocate) .foreign)
  | .var name => .done (s.var name)
  | .global name => do pure ((find? name (← getSession).globals).getD .null)
  | .arg index => do pure (itemAt s.args (← eval s index))
  | .args => .done (.list s.args)
  | .add x y => do
    let x ← eval s x
    pure (.int (number x + number (← eval s y)))
  | .mul x y => do
    let x ← eval s x
    pure (.int (number x * number (← eval s y)))
  | .lt x y => do
    let x ← eval s x
    pure (.bool (number x < number (← eval s y)))
  | .eq x y => do
    let x ← eval s x
    pure (.bool (x == (← eval s y)))
  | .not x => do pure (.bool (!(← eval s x).isTruthy))
  | .truthy x => do pure (.bool (← eval s x).isTruthy)
  | .cond test yes no => do
    if (← eval s test).isTruthy then eval s yes else eval s no
  | .concat xs => do pure (.str (String.join (Value.displayAll (← evalAll s xs))))
  | .display x => do pure (.str (← eval s x).display)
  | .debug x => do pure (.str (← eval s x).debug)
  | .typeName x => do pure (.str (← eval s x).typeName)
  | .length x => do
    match (← eval s x).list? with
    | some vs => pure (.int (.ofNat vs.length))
    | none => pure (.int (-1))
  | .nth xs index => do
    match (← eval s xs).list? with
    | some vs => pure (itemAt vs (← eval s index))
    | none => pure .null
  | .append xs x => do
    let xs ← eval s xs
    pure (.list (items xs ++ [← eval s x]))
  | .range n => do pure (.list (rangeTo (count (← eval s n))))
  | .wrap n x => do
    let n ← eval s n
    pure (wrapped (count n) (← eval s x))
  | .repeated x n => do
    let x ← eval s x
    pure (.str (copies (count (← eval s n)) x.display))
  | .isCancelled x => do
    pure (.bool (((← eval s x).error?.map Error.isCancelled).getD false))
  | .isUsage x => do
    pure (.bool (((← eval s x).error?.map Error.isUsage).getD false))
  | .tap label x => do
    let v ← eval s x
    Code.note (.tap label v)
    pure v
  | .now => do pure (.int (.ofNat (← Code.now)))
  | .requestCancel task => do
    match (← eval s task).task? with
    | some id => pure (.bool (← Code.requestCancel id))
    | none => pure (.bool false)
  | .isSettled task => do
    match (← eval s task).task? with
    | some id => pure (.bool (← Code.isSettled id))
    | none => pure (.bool false)
  | .debugTask task => do
    match (← eval s task).task? with
    | some id =>
      let settled := if (← Code.isSettled id) then "true" else "false"
      pure (.str ("TaskHandle \x7b id: " ++ id.debug ++ ", settled: " ++ settled ++ " \x7d"))
    | none => pure .null
  | .debugEngine => do pure (textOrNull (← getSession).engine)
  | .opPayload => .done ((s.handled.map (·.payload)).getD .null)
  | .opKind => .done (textOrNull (s.handled.map (·.kind)))
  | .opFunc => .done (textOrNull (s.handled.bind (·.func)))
  | .opArg index => do
    let index ← eval s index
    pure (itemAt ((s.handled.map (·.args)).getD []) index)
  | .opInner => .done (textOrNull (s.handled.bind (·.inner)))
  | .ctxGet slot =>
    withContext s .null fun ctx => (getSlot ctx slot).bind fun v => .done (valueOrNull v)
  | .ctxPut slot x => do
    let v ← eval s x
    withContext s .null fun ctx => (putSlot ctx slot v).bind fun v => .done (valueOrNull v)
  | .ctxDel slot =>
    withContext s .null fun ctx => (deleteSlot ctx slot).bind fun v => .done (valueOrNull v)
  | .ctxHas slot =>
    withContext s (.bool false) fun ctx => (hasSlot ctx slot).bind fun b => .done (.bool b)
  | .ctxInit slot x =>
    match s.ctx with
    | some ctx => initSlot ctx slot (eval s x)
    | none => .done .null

def evalAll (s : Scope AnyGen) : List Expr → ScriptCode E (List Value)
  | [] => .done []
  | x :: xs => do
    let v ← eval s x
    pure (v :: (← evalAll s xs))

def evalError (s : Scope AnyGen) : ErrorTerm → ScriptCode E Error
  | .nextOutsideHandler => .done .nextOutsideHandler
  | .nextKindMismatch expected got => .done (.nextKindMismatch expected got)
  | .unrecognizedOperation kind => .done (.unrecognizedOperation kind)
  | .forbiddenTerminal kind => .done (.forbiddenTerminal kind)
  | .usage operation message => .done (.usage operation message)
  | .cancelled => .done .cancelled
  | .interrupted => .done .interrupted
  | .cancelFailed e => do pure (.cancelFailed (← evalError s e))
  | .deferred e masked => do
    let e ← evalError s e
    pure (.deferred e (← evalError s masked))
  | .panicked message => .done (.panicked message)
  | .failure outer causes => newFailure outer causes
  | .ofValue x => do
    match ← eval s x with
    | .error e => pure e
    | v => newFailure v.display []

end

/-- The error that a thrown value raises: itself, or a new failure with its text. -/
def raisedBy (v : Value) : ScriptCode E Error :=
  match v with
  | .error e => .done e
  | v => newFailure v.display []

end EffectEngine.Script
