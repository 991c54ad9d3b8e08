import EffectEngine.Value
import EffectEngine.Diagnostic

/-!
# The life of a root task

Listeners are told about the life of a root task through hooks. `Lifecycle` is the machine that
calls them in order: `Lifecycle.step` says what comes next, `Lifecycle.hookEnded` and
`Lifecycle.taskEnded` take the answers.
-/

namespace EffectEngine

inductive Hook where
  /-- Before the task starts. -/
  | setUp
  | preComplete (value : Value)
  | complete (value : Value)
  | error (e : Error)
  /-- Last, with the error that the run ends with, if any. -/
  | finalize (e : Option Error)
deriving Inhabited

/-- Where a run stands. Each phase that calls hooks holds the listeners it has not yet heard from,
the one called next or being called first. -/
inductive Phase (L : Type) where
  | settingUp (todo : List L)
  | running
  | preCompleting (value : Value) (todo : List L)
  | completing (value : Value) (todo : List L)
  | failing (e : Error) (todo : List L)
  | finalizing (result : Outcome) (todo : List L)
  | over (result : Outcome)

instance {L : Type} : Inhabited (Phase L) := ⟨.running⟩

inductive Move (L : Type) where
  | silent
  | call (listener : L) (hook : Hook)
  | runTask
  | finish (result : Outcome)

/-- A run of a root task: all listeners in the order of registration, and the phase. -/
structure Lifecycle (L : Type) where
  listeners : List L
  phase : Phase L

namespace Lifecycle

variable {L : Type}

def begin (listeners : List L) : Lifecycle L := ⟨listeners, .settingUp listeners⟩

def errorOf : Outcome → Option Error
  | .ok _ => none
  | .error e => some e

def step (c : Lifecycle L) : Lifecycle L × Move L :=
  match c.phase with
  | .settingUp [] => ({ c with phase := .running }, .runTask)
  | .settingUp (l :: _) => (c, .call l .setUp)
  | .running => (c, .silent)
  | .preCompleting v [] => ({ c with phase := .completing v c.listeners }, .silent)
  | .preCompleting v (l :: _) => (c, .call l (.preComplete v))
  | .completing v [] => ({ c with phase := .finalizing (.ok v) c.listeners }, .silent)
  | .completing v (l :: _) => (c, .call l (.complete v))
  | .failing e [] => ({ c with phase := .finalizing (.error e) c.listeners }, .silent)
  | .failing e (l :: _) => (c, .call l (.error e))
  | .finalizing r [] => ({ c with phase := .over r }, .finish r)
  | .finalizing r (l :: _) => (c, .call l (.finalize (errorOf r)))
  | .over r => (c, .finish r)

def taskEnded (c : Lifecycle L) : Outcome → Lifecycle L
  | .ok v => { c with phase := .preCompleting v c.listeners }
  | .error e => { c with phase := .failing e c.listeners }

/-- The warning about a hook that failed where failures have no effect. -/
def hookWarning : Phase L → Error → Option Event
  | .failing e _, hook =>
    some ⟨.warning, "error hook failed", [("error", e.message), ("hook", hook.message)]⟩
  | .finalizing .., hook => some ⟨.warning, "finalize hook failed", [("hook", hook.message)]⟩
  | _, _ => none

/-- The hook of the listener that was due ended; the failure of one of the first three kinds of
hooks becomes the error of the run. -/
def hookEnded (c : Lifecycle L) (result : Except Error Unit) : Lifecycle L :=
  match c.phase, result with
  | .settingUp todo, .ok _ => { c with phase := .settingUp todo.tail }
  | .preCompleting v todo, .ok _ => { c with phase := .preCompleting v todo.tail }
  | .completing v todo, .ok _ => { c with phase := .completing v todo.tail }
  | .settingUp _, .error e | .preCompleting .., .error e | .completing .., .error e =>
    { c with phase := .failing e c.listeners }
  | .failing e todo, _ => { c with phase := .failing e todo.tail }
  | .finalizing r todo, _ => { c with phase := .finalizing r todo.tail }
  | .running, _ | .over _, _ => c

end Lifecycle

end EffectEngine
