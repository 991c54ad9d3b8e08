import EffectEngine.Code

/-!
# Coroutines

A `Coroutine` runs a body that suspends itself: it is created with what the body starts from, then
suspended with what the body continues with, then finished. `Coroutine.resume` is the protocol of
its resumptions; a body that has not started when it is forced to return or thrown into never runs.
-/

namespace EffectEngine

/-- A coroutine over bodies that start from an `α` and, once suspended, continue with a `β`. -/
inductive Coroutine (α β : Type) where
  | created (start : α)
  | suspended (rest : β)
  | finished
deriving Inhabited

/-- What a body comes to when it runs: a suspension, or its result. -/
inductive Pause (Y β : Type) where
  | suspend (y : Y) (rest : β)
  | finish (outcome : Outcome)

structure Body (E σ N Y α β : Type) where
  start : α → Code E σ N (Pause Y β)
  proceed : β → Outcome → Code E σ N (Pause Y β)
  /-- Lets go of a body that will never start. -/
  release : α → Code E σ N Unit

namespace Coroutine

variable {E σ N G F α β : Type}

def settle : Pause (Yielded G F) β → Signal G F × Coroutine α β
  | .suspend y rest => (.yielded y, suspended rest)
  | .finish outcome => (.complete outcome, finished)

def resume (body : Body E σ N (Yielded G F) α β) :
    Coroutine α β → Resume → Code E σ N (Signal G F × Coroutine α β)
  | created start, .next _ => settle <$> body.start start
  | created start, .throw e => do
    body.release start
    pure (.complete (.error e), finished)
  | created start, .forcedReturn => do
    body.release start
    pure (.complete (.ok .null), finished)
  | suspended rest, input => settle <$> body.proceed rest input.outcome
  | finished, .throw e => pure (.complete (.error e), finished)
  | finished, _ => pure (.complete (.ok .null), finished)

end Coroutine

namespace Code

variable {C G F B σ N : Type}

/-- Runs the code of a body to its next suspension. -/
def untilSuspend :
    Code (BodyEffect C G F B) σ N Outcome →
      Code (Effect C G F B) σ N
        (Pause (Yielded G F) (Outcome → Code (BodyEffect C G F B) σ N Outcome))
  | done outcome => done (.finish outcome)
  | panic m => panic m
  | ask q k => ask q fun a => untilSuspend (k a)
  | perform (.suspend y) k => done (.suspend y k)
  | perform (.run e) k => perform e fun r => untilSuspend (k r)

/-- Runs the code of a body that has no coroutine to suspend. -/
def withoutSuspend {α : Type} :
    Code (BodyEffect C G F B) σ N α → Code (Effect C G F B) σ N α
  | done a => done a
  | panic m => panic m
  | ask q k => ask q fun a => withoutSuspend (k a)
  | perform (.suspend _) _ => panic "suspended outside of a coroutine"
  | perform (.run e) k => perform e fun r => withoutSuspend (k r)

end Code

end EffectEngine
