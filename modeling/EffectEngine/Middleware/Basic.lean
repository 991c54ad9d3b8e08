import EffectEngine.Coroutine
import EffectEngine.Context
import EffectEngine.Middleware.BatchTable

/-!
# The middleware of the library

`Middleware μ` is the middleware that comes with the library, beside that of a client. Its
generators are coroutines: `Opening` is what they start from and `Midway` what they hold at their
one suspension. `Shared` is the state they work on.
-/

namespace EffectEngine

structure CountersId where
  index : Nat
deriving DecidableEq, Inhabited, Repr

structure Counters where
  handled : Nat
  succeeded : Nat
  failed : Nat
  cancelled : Nat
deriving DecidableEq, Inhabited, Repr

inductive Middleware (μ : Type) where
  | trace (label : String)
  | metrics (counters : CountersId)
  /-- Coalesces calls of batched functions that arrive within `timeout` milliseconds. -/
  | batchCalls (timeout : Nat)
  | executeBatch
  | client (m : μ)
deriving Inhabited

/-- A joined call that still has to arm its timer: where its batch is kept, the key and the seat,
and the time to wait for further calls. -/
structure BatchTicket where
  ctx : ContextId
  key : BatchKey
  seat : BatchSeat
  timeout : Nat

/-- What a coroutine of the library starts from. -/
inductive Opening (G F : Type) where
  | delay (ms : Nat) (op : Operation G F)
  | trace (label : String) (op : Operation G F)
  | metrics (counters : CountersId) (op : Operation G F)
  | standalone (func : F) (args : List Value)
  | batch (ticket : BatchTicket)
  | executeBatch (batch : Option (PendingBatch F))

/-- What a coroutine of the library holds while it is suspended. -/
inductive Midway where
  | delay
  | trace (label kind : String)
  | metrics (counters : CountersId)
  | standalone
  | batch (ticket : BatchTicket)
  | executeBatch (promise : PromiseId)

/-- Generators: coroutines of the library under their names, or a client's. -/
inductive Gen (γ F : Type) where
  | library (name : String) (c : Coroutine (Opening (Gen γ F) F) Midway)
  | client (g : γ)

namespace Gen

variable {γ F : Type}

def ofOpening (o : Opening (Gen γ F) F) : Gen γ F :=
  let name := match o with
    | .delay .. => "delay"
    | .trace .. => "trace"
    | .metrics .. => "metrics"
    | .standalone .. => "batch_standalone"
    | .batch _ => "batch"
    | .executeBatch _ => "execute_batch"
  library name (.created o)

instance [Named γ] : Named (Gen γ F) where
  name
    | library name _ => name
    | client g => Named.name g

end Gen

/-- The keys of a context: the slots of a client and the table of pending batches. -/
inductive Slot (χ : Type) where
  | user (slot : χ)
  | batches
deriving DecidableEq

def Slot.Content (F : Type) {χ : Type} : Slot χ → Type
  | user _ => Value
  | batches => BatchTable F

abbrev Slots (χ F : Type) := TypeMap (Slot.Content F (χ := χ))

structure Shared (χ F U : Type) where
  contexts : Array (Slots χ F)
  counters : Array Counters
  /-- The number of allocations that have an identity. -/
  allocations : Nat
  user : U

namespace Shared

variable {χ F U E N : Type}

instance : HasContexts (Shared χ F U) (Slot.Content F (χ := χ)) where
  contexts s := s.contexts
  setContexts contexts s := { s with contexts }

def start (user : U) : Shared χ F U := ⟨#[], #[], 0, user⟩

def nextAllocation (s : Shared χ F U) : Nat × Shared χ F U :=
  (s.allocations, { s with allocations := s.allocations + 1 })

def allocate : Code E (Shared χ F U) N Nat :=
  Code.modifyGet nextAllocation

def count (id : CountersId) (change : Counters → Counters) : Code E (Shared χ F U) N Unit :=
  Code.modifyState fun s => { s with counters := s.counters.modify id.index change }

end Shared

end EffectEngine
