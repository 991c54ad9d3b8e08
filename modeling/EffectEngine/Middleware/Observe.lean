import EffectEngine.Middleware.Basic

/-!
# Observing middleware

`Trace` logs the operations that pass through it and `Metrics` counts them; both delegate with
`next` and hand on what comes back.
-/

namespace EffectEngine

variable {γ F E χ U N : Type}

namespace Trace

def start (label : String) (op : Operation (Gen γ F) F) :
    Code E (Shared χ F U) N (Pause (Yielded (Gen γ F) F) Midway) := do
  Code.log ⟨.trace, "operation: start", [("kind", op.kind), ("prefix", label)]⟩
  pure (.suspend (.operation (.next op)) (.trace label op.kind))

def ending (label kind : String) : Outcome → Event
  | .ok _ => ⟨.debug, "operation: success", [("kind", kind), ("prefix", label)]⟩
  | .error e =>
    ⟨.warning, "operation: failed", [("error", e.message), ("kind", kind), ("prefix", label)]⟩

def proceed (label kind : String) (outcome : Outcome) :
    Code E (Shared χ F U) N (Pause (Yielded (Gen γ F) F) Midway) := do
  Code.log (ending label kind outcome)
  pure (.finish outcome)

end Trace

namespace Metrics

def handled (c : Counters) : Counters := { c with handled := c.handled + 1 }

def ended (outcome : Outcome) (c : Counters) : Counters :=
  match outcome with
  | .ok _ => { c with succeeded := c.succeeded + 1 }
  | .error .interrupted | .error .cancelled => { c with cancelled := c.cancelled + 1 }
  | .error _ => { c with failed := c.failed + 1 }

def start (id : CountersId) (op : Operation (Gen γ F) F) :
    Code E (Shared χ F U) N (Pause (Yielded (Gen γ F) F) Midway) :=
  pure (.suspend (.operation (.next op)) (.metrics id))

def proceed (id : CountersId) (outcome : Outcome) :
    Code E (Shared χ F U) N (Pause (Yielded (Gen γ F) F) Midway) := do
  Shared.count id (ended outcome)
  pure (.finish outcome)

end Metrics

end EffectEngine
