import EffectEngine.Function
import EffectEngine.Middleware.Delay

/-!
# Batched calls

Calls of a batched function that share a key within a time window are coalesced into one call of
the underlying function, which gets one list of arguments for each call and must answer with a list
of results. Each call that joins a batch arms a new timer for it and cancels the previous one; the
timer that fires performs an operation of the kind `execute_batch`, which takes and runs the batch.
-/

namespace EffectEngine.Batch

variable {γ φ κ E C B χ U N α : Type} [DecidableEq χ]

abbrev Gens (γ φ κ : Type) := Gen γ (GeneratorFn φ κ)

abbrev Op (γ φ κ : Type) := Operation (Gens γ φ κ) (GeneratorFn φ κ)

abbrev BatchCode (E χ φ κ U N α : Type) := Code E (Shared χ (GeneratorFn φ κ) U) N α

def executeKind : String := "execute_batch"

/-- The result of the call at an index: null if the list of results is too short. -/
def select (results : Value) (index : Nat) : Outcome :=
  match results.intoList with
  | .ok items => .ok ((items[index]?).getD .null)
  | .error e => .error e

def selectFrom (index : Nat) : Outcome → Outcome
  | .ok results => select results index
  | .error e => .error e

def standalone (func : GeneratorFn φ κ) (args : List Value) : Gens γ φ κ :=
  .ofOpening (.standalone func args)

def startStandalone (func : GeneratorFn φ κ) (args : List Value) :
    BatchCode E χ φ κ U N (Pause (Yielded (Gens γ φ κ) (GeneratorFn φ κ)) Midway) :=
  pure (.suspend (.operation (.call func [.list args])) .standalone)

/-- Whether the batching middleware takes an operation: it takes calls of batched functions. -/
def accepts (op : Op γ φ κ) : Bool :=
  match op.call? with
  | some (func, _) => func.batched?.isSome
  | none => false

def table? {F : Type} (m : Slots χ F) : Option (BatchTable F) := m.get? .batches

def setTable {F : Type} (m : Slots χ F) (t : BatchTable F) : Slots χ F := m.insert .batches t

def withTable (ctx : ContextId)
    (f : BatchTable (GeneratorFn φ κ) → α × BatchTable (GeneratorFn φ κ)) :
    BatchCode E χ φ κ U N α :=
  ctx.locked fun m =>
    let (a, t) := f ((table? m).getD .empty)
    (a, setTable m t)

def ensureTable (ctx : ContextId) : BatchCode E χ φ κ U N (BatchTable (GeneratorFn φ κ)) :=
  ctx.getOrInsertWith (V := Slot.Content (GeneratorFn φ κ) (χ := χ)) .batches
    (.done BatchTable.empty)

/-- Adds a call to the batch of its key, opening one if none is pending. -/
def enqueue (ctx : ContextId) (key : BatchKey) (func : GeneratorFn φ κ) (args : List Value) :
    BatchCode E χ φ κ U N BatchSeat := do
  let _ ← ensureTable (φ := φ) (κ := κ) ctx
  let promise ← Code.newPromise
  withTable ctx fun table => table.enqueue key func args promise

/-- Handles a call of a batched function: on its own if its key is not truthy, else as part of a
batch. -/
def handleCall (keyOf : κ → List Value → BatchCode E χ φ κ U N Value) (timeout : Nat)
    (op : Op γ φ κ) (ctx : ContextId) : BatchCode E χ φ κ U N (Except Error (Gens γ φ κ)) :=
  match op with
  | .call func args =>
    match func.batched? with
    | none =>
      pure (.error (.usage "batch" (func.name ++ " is not a batched function")))
    | some (underlying, grouping) => do
      let key ← keyOf grouping args
      if key.isTruthy then
        let key : BatchKey := ⟨underlying.identity, key.key⟩
        let seat ← enqueue ctx key underlying args
        pure (.ok (.ofOpening (.batch ⟨ctx, key, seat, timeout⟩)))
      else pure (.ok (standalone underlying args))
  | op => pure (.error (.unrecognizedOperation op.kind))

def startBatch (ticket : BatchTicket) :
    BatchCode E χ φ κ U N (Pause (Yielded (Gens γ φ κ) (GeneratorFn φ κ)) Midway) := do
  let id ← Shared.allocate
  let flush : Op γ φ κ := .custom executeKind (.sealed id (.batch ticket.key))
  pure (.suspend (.operation (.fork (Delay.delay ticket.timeout flush))) (.batch ticket))

/-- Installs a timer and cancels the one that it makes superfluous. -/
def arm (ticket : BatchTicket) (timer : TaskId) : BatchCode E χ φ κ U N Unit := do
  let replaced ← withTable (φ := φ) (κ := κ) ticket.ctx fun table =>
    table.arm ticket.key ticket.seat.generation timer
  match replaced with
  | some timer =>
    let _ ← Code.requestCancel timer
    pure ()
  | none => pure ()

/-- Arms the forked timer, waits for the result of the batch and picks its own part. -/
def proceedBatch (ticket : BatchTicket) (outcome : Outcome) :
    BatchCode (Effect C (Gens γ φ κ) (GeneratorFn φ κ) B) χ φ κ U N
      (Pause (Yielded (Gens γ φ κ) (GeneratorFn φ κ)) Midway) :=
  match outcome with
  | .error e => pure (.finish (.error e))
  | .ok forked =>
    match forked.intoTask with
    | .error e => pure (.finish (.error e))
    | .ok timer => do
      arm (χ := χ) (φ := φ) (κ := κ) ticket timer
      let results ← Code.effect (.wait (.promise ticket.seat.promise))
      pure (.finish (selectFrom ticket.seat.index results))

def carriesKey (op : Op γ φ κ) : Bool :=
  match op.custom? with
  | some (_, payload) => payload.batchKey?.isSome
  | none => false

def takeBatch (ctx : ContextId) (key : BatchKey) :
    BatchCode E χ φ κ U N (Option (PendingBatch (GeneratorFn φ κ))) :=
  ctx.locked fun m =>
    match table? m with
    | none => (none, m)
    | some table =>
      let (batch, table) := table.take key
      (batch, setTable m table)

def handleExecute (op : Op γ φ κ) (ctx : ContextId) :
    BatchCode E χ φ κ U N (Except Error (Gens γ φ κ)) :=
  match op.custom?.bind fun (_, payload) => payload.batchKey? with
  | none => pure (.error (.unrecognizedOperation op.kind))
  | some key => do
    let batch ← takeBatch ctx key
    pure (.ok (.ofOpening (.executeBatch batch)))

/-- Suspends on the call of the batch, if there still is one. -/
def startExecute (batch : Option (PendingBatch (GeneratorFn φ κ))) :
    BatchCode E χ φ κ U N (Pause (Yielded (Gens γ φ κ) (GeneratorFn φ κ)) Midway) :=
  match batch with
  | none => pure (.finish (.ok .null))
  | some batch =>
    pure (.suspend (.operation (.call batch.func batch.args)) (.executeBatch batch.promise))

def proceedExecute (promise : PromiseId) (outcome : Outcome) :
    BatchCode E χ φ κ U N (Pause (Yielded (Gens γ φ κ) (GeneratorFn φ κ)) Midway) := do
  Code.fulfil promise outcome
  pure (.finish outcome)

/-- Calls that wait for a batch which is never run are told so. -/
def abandon (promise : PromiseId) : BatchCode E χ φ κ U N Unit :=
  Code.fulfil promise (.error .cancelled)

end EffectEngine.Batch
