import EffectEngine.Value

/-!
# Scripts

A small language in which the bodies of generators, middleware and hooks are written: expressions,
which never fail, terms that build operations, and statements.
-/

namespace EffectEngine.Script

inductive UserSlot where
  | a | b | c
deriving DecidableEq, Inhabited, Repr

mutual

inductive Expr where
  | null
  | bool (b : Bool)
  | int (i : Int64)
  | float (x : Double)
  | str (s : String)
  | list (items : List Expr)
  | error (e : ErrorTerm)
  | labelled (label : String)
  | foreign
  | var (name : String)
  | global (name : String)
  | arg (index : Expr)
  | args
  | add (x y : Expr)
  | mul (x y : Expr)
  | lt (x y : Expr)
  | eq (x y : Expr)
  | not (x : Expr)
  | truthy (x : Expr)
  | cond (test yes no : Expr)
  | concat (items : List Expr)
  | display (x : Expr)
  | debug (x : Expr)
  | typeName (x : Expr)
  | length (x : Expr)
  | nth (items index : Expr)
  | append (items x : Expr)
  | range (count : Expr)
  | wrap (count x : Expr)
  | repeated (x count : Expr)
  | isCancelled (x : Expr)
  | isUsage (x : Expr)
  | tap (label : String) (x : Expr)
  | now
  | requestCancel (task : Expr)
  | isSettled (task : Expr)
  | debugTask (task : Expr)
  | debugEngine
  /-- The payload, kind, function, argument and inner kind of the operation being handled. -/
  | opPayload
  | opKind
  | opFunc
  | opArg (index : Expr)
  | opInner
  | ctxGet (slot : UserSlot)
  | ctxPut (slot : UserSlot) (x : Expr)
  | ctxDel (slot : UserSlot)
  | ctxHas (slot : UserSlot)
  | ctxInit (slot : UserSlot) (x : Expr)

inductive ErrorTerm where
  | nextOutsideHandler
  | nextKindMismatch (expected got : String)
  | unrecognizedOperation (kind : String)
  | forbiddenTerminal (kind : String)
  | usage (operation message : String)
  | cancelled
  | interrupted
  | cancelFailed (e : ErrorTerm)
  | deferred (e masked : ErrorTerm)
  | panicked (message : String)
  /-- A new failure, its messages from the outermost to the root cause. -/
  | failure (outer : String) (causes : List String)
  /-- The error that an expression evaluates to, or a new failure with its text. -/
  | ofValue (x : Expr)

end

inductive Wrapper where
  | fork | defer | terminal | start | next
deriving DecidableEq, Inhabited, Repr

inductive OpTerm where
  | call (func : String) (args : List Expr)
  /-- Runs the generator that the function builds here and now. -/
  | execute (func : String) (args : List Expr)
  | wrap (w : Wrapper) (op : OpTerm)
  /-- So many wrappers around an operation. -/
  | nest (w : Wrapper) (count : Expr) (op : OpTerm)
  | recover
  | custom (kind : String) (payload : Expr)
  | delay (ms : Expr) (op : OpTerm)
  /-- The operation being handled, which can be used once. -/
  | handled

inductive YieldTerm where
  | op (op : OpTerm)
  | generator (func : String) (args : List Expr)

/-- Statements. A missing name discards the value. -/
inductive Stmt where
  | assign (name : Option String) (x : Expr)
  | assignGlobal (name : String) (x : Expr)
  | log (x : Expr)
  | eval (x : Expr)
  | cond (test : Expr) (yes no : List Stmt)
  | repeated (name : Option String) (count : Expr) (body : List Stmt)
  | leave (x : Expr)
  | throw (x : Expr)
  /-- Runs the handler on an error that the body raises. -/
  | attempt (body : List Stmt) (name : Option String) (handler : List Stmt)
  /-- Runs the second block however the first one ends. -/
  | ensure (body last : List Stmt)
  | sleep (ms : Expr)
  | panic (message : String)
  | await (name : Option String) (task : Expr)
  | cancel (task : Expr)
  | intoList (name : Option String) (x : Expr)
  | yield (name : Option String) (y : YieldTerm)
  /-- Runs a root task, in a named context or a new one. -/
  | run (name : Option String) (y : YieldTerm) (ctx : Option String)
  | runCall (name : Option String) (func : String) (args : List Expr)
  | spawn (name : Option String) (y : YieldTerm) (ctx : Option String)
  | useContext (name : String)
  | go (body : List Stmt)
  | join
  | logDiagnostics
  | clearDiagnostics
  | logMetrics
deriving Inhabited

/-- Steps of a generator that ignores how it is resumed. -/
inductive RawStep where
  | yield (y : YieldTerm)
  | done (x : Expr)
  | fail (e : ErrorTerm)
  | sleep (ms : Expr)
  | eval (x : Expr)
  | panic (message : String)

inductive FunctionTerm where
  | body (body : List Stmt)
  /-- Builds a generator that takes raw steps; an anonymous one does not show the function's
  name. -/
  | raw (anonymous : Bool) (steps : List RawStep)
  | refuse (e : ErrorTerm)
  | panic (message : String)

/-- How the calls of a batched function are grouped: all together, or by an expression over their
arguments. -/
inductive GroupingTerm where
  | together
  | by (key : Expr)

inductive HandlerTerm where
  | body (name : String) (body : List Stmt)
  | raw (name : String) (steps : List RawStep)
  | refuse (e : ErrorTerm)
  | panic (message : String)

/-- A middleware: which operations it accepts, what it evaluates first, and how it handles them. -/
structure MiddlewareTerm where
  filter : Option Expr
  before : Option Expr
  handler : HandlerTerm

/-- What a hook does after its note: evaluate, sleep, panic, fail, in this order. -/
structure HookTerm where
  eval : Option Expr
  sleep : Option Expr
  panic : Option String
  fail : Option ErrorTerm

/-- A listener: one without effect, or one with a name and hooks. -/
inductive ListenerTerm where
  | silent
  | named (name : String) (hooks : List (String × HookTerm))

end EffectEngine.Script
