import EffectEngine.Middleware.Basic

/-!
# Delayed operations

`delay ms op` waits before it performs an operation. Cancelling the task of a forked delay before
the time is up means that the operation is never performed.
-/

namespace EffectEngine.Delay

variable {γ F C B σ N : Type}

/-- The operation that waits for some milliseconds and then performs `op`. -/
def delay (ms : Nat) (op : Operation (Gen γ F) F) : Operation (Gen γ F) F :=
  .execute (.ofOpening (.delay ms op))

def start (ms : Nat) (op : Operation (Gen γ F) F) :
    Code (Effect C (Gen γ F) F B) σ N (Pause (Yielded (Gen γ F) F) Midway) := do
  let _ ← Code.effect (.wait (.sleep ms))
  pure (.suspend (.operation op) .delay)

end EffectEngine.Delay
