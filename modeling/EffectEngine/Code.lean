import EffectEngine.Operation
import EffectEngine.Diagnostic

/-!
# Code in progress

`Code E σ N α` is a computation as a tree: it is done, it has panicked, or it waits for the answer
to a `Query`, which is given at once, or for the outcome of an effect of type `E`, which may take
its time. `σ` is the state that all code shares and `N` the type of notes in the journal. Code over
`Empty` never waits. `Effect` lists the effects that running code has on the scheduler, and
`BodyEffect` adds the one that suspends a coroutine.
-/

namespace EffectEngine

structure PromiseId where
  index : Nat
deriving DecidableEq, Inhabited, Repr

structure ThreadId where
  index : Nat
deriving DecidableEq, Inhabited, Repr

/-- A question to the surroundings that is answered at once. -/
inductive Query (σ N : Type) where
  | get
  | put (state : σ)
  | now
  | isSettled (task : TaskId)
  /-- Asks a task to cancel; answers whether this was the call that did. -/
  | requestCancel (task : TaskId)
  | newPromise
  | fulfil (promise : PromiseId) (outcome : Outcome)
  | note (note : N)
  | log (event : Event)
  | recorded
  | clearRecorded

def Query.Answer {σ N : Type} : Query σ N → Type
  | get => σ
  | now => Nat
  | isSettled _ | requestCancel _ => Bool
  | newPromise => PromiseId
  | recorded => List Diagnostic
  | put _ | fulfil .. | note _ | log _ | clearRecorded => Unit

inductive Code (E σ N α : Type) where
  | done (a : α)
  | panic (message : String)
  | ask (q : Query σ N) (k : q.Answer → Code E σ N α)
  | perform (e : E) (k : Outcome → Code E σ N α)

/-- Code that never waits. -/
abbrev Sync (σ N α : Type) := Code Empty σ N α

inductive Wait where
  | sleep (ms : Nat)
  | task (id : TaskId)
  | promise (id : PromiseId)
  | thread (id : ThreadId)
deriving DecidableEq, Inhabited, Repr

/-- The effects of running code: `C` is the type of contexts and `B` that of code to be started on
a thread of its own. -/
inductive Effect (C G F B : Type) where
  | wait (w : Wait)
  | spawn (ctx : C) (root : Yielded G F)
  | run (ctx : C) (root : Yielded G F)
  /-- Starts a thread; the outcome is its number. -/
  | go (body : B)

inductive BodyEffect (C G F B : Type) where
  /-- Suspends the coroutine; the outcome is what it is resumed with. -/
  | suspend (y : Yielded G F)
  | run (e : Effect C G F B)

namespace Code

variable {E E' σ N α β : Type}

protected def bind : Code E σ N α → (α → Code E σ N β) → Code E σ N β
  | done a, f => f a
  | panic m, _ => panic m
  | ask q k, f => ask q fun a => (k a).bind f
  | perform e k, f => perform e fun r => (k r).bind f

instance : Monad (Code E σ N) where
  pure := done
  bind := Code.bind

def lift : Sync σ N α → Code E σ N α
  | done a => done a
  | panic m => panic m
  | ask q k => ask q fun a => lift (k a)
  | perform e _ => nomatch e

/-- Code with its effects read as those of a larger kind. -/
def embed (f : E → E') : Code E σ N α → Code E' σ N α
  | done a => done a
  | panic m => panic m
  | ask q k => ask q fun a => embed f (k a)
  | perform e k => perform (f e) fun r => embed f (k r)

def query (q : Query σ N) : Code E σ N q.Answer := ask q done

def effect (e : E) : Code E σ N Outcome := perform e done

def getState : Code E σ N σ := query .get

def modifyGet (f : σ → α × σ) : Code E σ N α :=
  ask .get fun s => ask (.put (f s).2) fun _ => done (f s).1

def modifyState (f : σ → σ) : Code E σ N Unit :=
  ask .get fun s => ask (.put (f s)) fun _ => done ()

def now : Code E σ N Nat := query .now

def isSettled (t : TaskId) : Code E σ N Bool := query (.isSettled t)

def requestCancel (t : TaskId) : Code E σ N Bool := query (.requestCancel t)

def newPromise : Code E σ N PromiseId := query .newPromise

def fulfil (p : PromiseId) (outcome : Outcome) : Code E σ N Unit := query (.fulfil p outcome)

def recorded : Code E σ N (List Diagnostic) := query .recorded

def clearRecorded : Code E σ N Unit := query .clearRecorded

def note (n : N) : Code E σ N Unit := query (.note n)

def log (e : Event) : Code E σ N Unit := query (.log e)

end Code

/-- Cancels a task and waits until it has settled. This fails only if the task settles with an
error other than its cancellation. -/
def TaskId.cancel {C G F B σ N : Type} (t : TaskId) :
    Code (Effect C G F B) σ N (Except Error Unit) := do
  if (← Code.isSettled t) then pure (.ok ())
  else
    let _ ← Code.requestCancel t
    match ← Code.effect (.wait (.task t)) with
    | .ok _ | .error .cancelled => pure (.ok ())
    | .error e => pure (.error (.cancelFailed e))

end EffectEngine
