import EffectEngine.Code

/-!
# Pending batches

A `BatchTable` holds the batches of one context that are waiting for their timers, at most one for
each key. Batches are numbered; the number of a batch is its generation.
-/

namespace EffectEngine

/-- A batch that has not been taken: the function, one argument for each call in the order of
joining, the promise of its result and the timer that will run it. -/
structure PendingBatch (F : Type) where
  generation : Nat
  func : F
  args : List Value
  promise : PromiseId
  timer : Option TaskId

/-- The pending batches of a context, and the number of batches opened so far. -/
structure BatchTable (F : Type) where
  generation : Nat
  pending : List (BatchKey × PendingBatch F)

structure BatchSeat where
  generation : Nat
  index : Nat
  promise : PromiseId
deriving DecidableEq, Inhabited, Repr

namespace BatchTable

variable {F : Type}

instance : Inhabited (BatchTable F) := ⟨⟨0, []⟩⟩

def empty : BatchTable F := ⟨0, []⟩

def find? (t : BatchTable F) (key : BatchKey) : Option (PendingBatch F) :=
  (t.pending.find? (·.1 == key)).map (·.2)

/-- Replaces the pending batch of a key, or adds it. -/
def put (t : BatchTable F) (key : BatchKey) (batch : PendingBatch F) : BatchTable F :=
  if (t.find? key).isSome then
    { t with pending := t.pending.map fun e => if e.1 == key then (e.1, batch) else e }
  else { t with pending := t.pending ++ [(key, batch)] }

def join? (t : BatchTable F) (key : BatchKey) (args : List Value) :
    Option (BatchSeat × BatchTable F) :=
  (t.find? key).map fun batch =>
    (⟨batch.generation, batch.args.length, batch.promise⟩,
      t.put key { batch with args := batch.args ++ [.list args] })

def openNew (t : BatchTable F) (key : BatchKey) (func : F) (args : List Value)
    (promise : PromiseId) : BatchSeat × BatchTable F :=
  let generation := t.generation + 1
  (⟨generation, 0, promise⟩,
    { t with generation }.put key ⟨generation, func, [.list args], promise, none⟩)

/-- Adds a call to the pending batch of its key, or opens one with the given promise. -/
def enqueue (t : BatchTable F) (key : BatchKey) (func : F) (args : List Value)
    (promise : PromiseId) : BatchSeat × BatchTable F :=
  match t.join? key args with
  | some joined => joined
  | none => t.openNew key func args promise

/-- Installs the timer of a batch and answers with the timer to cancel: the one it replaces, or
itself if that batch is no longer pending. -/
def arm (t : BatchTable F) (key : BatchKey) (generation : Nat) (timer : TaskId) :
    Option TaskId × BatchTable F :=
  match t.find? key with
  | some batch =>
    if batch.generation == generation then
      (batch.timer, t.put key { batch with timer := some timer })
    else (some timer, t)
  | none => (some timer, t)

def take (t : BatchTable F) (key : BatchKey) : Option (PendingBatch F) × BatchTable F :=
  (t.find? key, { t with pending := t.pending.filter fun e => !(e.1 == key) })

end BatchTable

end EffectEngine
