import EffectEngine.Task

/-!
# Direct recursion

What a task does could be said without a stack: to evaluate an operation, run the generator it
stands for to its outcome, and to run a generator, resume it with the outcome of each operation it
yields until it completes, then evaluate what it deferred. `evaluate` is that recursion, as long as
no operation replaces a frame. `Surroundings` is what generators, functions and middleware do, as
functions of a state of their own, and a `Scene` that state together with all that was asked of
them; `Surroundings.turn` answers the requests of a task from them.
-/

namespace EffectEngine

/-- What generators, functions, middleware and the making of tasks do, given a state. -/
structure Surroundings (σ G F M : Type) where
  resume : G → Resume → σ → (Signal G F × G) × σ
  filter : M → Operation G F → σ → Bool × σ
  handle : M → Operation G F → σ → Except Error G × σ
  invoke : F → List Value → σ → Except Error G × σ
  fork : Operation G F → σ → TaskId × σ

/-- The state of the surroundings, and what was asked of them, oldest first. -/
structure Scene (σ G F M : Type) where
  state : σ
  actions : List (Request G F M)

def Scene.ask {σ G F M α : Type} (s : Scene σ G F M) (request : Request G F M) (act : σ → α × σ) :
    α × Scene σ G F M :=
  ((act s.state).1, ⟨(act s.state).2, s.actions ++ [request]⟩)

namespace Surroundings

variable {σ G F M : Type}

/-- A move of a task together with the answer to its request. -/
def turn [Named G] (env : Surroundings σ G F M) (registry : Registry M) :
    Task G F M × Scene σ G F M → Task G F M × Scene σ G F M
  | (t, s) =>
    match t.step registry with
    | (t, .silent) => (t, s)
    | (t, .resume g input) =>
      let ((signal, g'), s) := s.ask (.resume g input) (env.resume g input)
      (t.resumed signal g', s)
    | (t, .retire g) =>
      let ((signal, _), s) := s.ask (.retire g) (env.resume g .forcedReturn)
      (t.retired signal, s)
    | (t, .filter m op) =>
      let (accepts, s) := s.ask (.filter m op) (env.filter m op)
      (t.filtered accepts, s)
    | (t, .handle m op) =>
      let (result, s) := s.ask (.handle m op) (env.handle m op)
      (t.handled result, s)
    | (t, .invoke func args) =>
      let (result, s) := s.ask (.invoke func args) (env.invoke func args)
      (t.invoked result, s)
    | (t, .fork root) =>
      let (child, s) := s.ask (.fork root) (env.fork root)
      (t.forked child, s)
    | (t, .report d) => (t, (s.ask (.report d) fun state => ((), state)).2)

end Surroundings

/-- The place from which an operation is evaluated: that of a running frame, that of a completed one
whose deferred operations are evaluated, or outside of all frames. -/
structure Seat (G F M : Type) where
  isFrame : Bool
  slot : Option (HandlerSlot M)
  /-- The operations deferred on the frame, the most recently registered first. -/
  defers : List (Operation G F)
  /-- The outcome that the frame holds if it has completed. -/
  own : Option Outcome
  /-- The outcome that the frame directly below holds if that one has completed. -/
  below : Option Outcome

namespace Seat

variable {G F M : Type}

def outside : Seat G F M := ⟨false, none, [], none, none⟩

def inside (slot : Option (HandlerSlot M)) (below : Option Outcome) : Seat G F M :=
  ⟨true, slot, [], none, below⟩

end Seat

/-- Computations that ask the surroundings and may not finish. -/
abbrev Direct (σ G F M : Type) := StateT (Scene σ G F M) Option

namespace Direct

variable {σ G F M α : Type}

def ask (request : Request G F M) (act : σ → α × σ) : Direct σ G F M α :=
  fun s => some (s.ask request act)

section

variable (env : Surroundings σ G F M) (registry : Registry M)

mutual

def evaluate : Nat → Seat G F M → Yielded G F → Direct σ G F M (Outcome × Seat G F M)
  | 0, _, _ => failure
  | n + 1, seat, .generator g =>
    if registry.contains executeKind then evaluate n seat (.operation (.execute g))
    else child n seat g none
  | n + 1, seat, .operation (.next inner) =>
    match seat.slot with
    | none => pure (.error .nextOutsideHandler, seat)
    | some slot =>
      if inner.kind == slot.kind then offer n seat inner slot.succ
      else pure (.error (.nextKindMismatch slot.kind inner.kind), seat)
  | n + 1, seat, .operation op => offer n seat op ⟨op.kind, registry.handlers op.kind, 0⟩

def offer : Nat → Seat G F M → Operation G F → HandlerSlot M →
    Direct σ G F M (Outcome × Seat G F M)
  | 0, _, _, _ => failure
  | n + 1, seat, op, slot =>
    match slot.handler? with
    | none => builtIn n seat op
    | some m => do
      if ← ask (.filter m op) (env.filter m op) then
        match ← ask (.handle m op) (env.handle m op) with
        | .ok g => child n seat g (some slot)
        | .error e => pure (.error e, seat)
      else offer n seat op slot.succ

/-- Evaluates an operation that no middleware took. One that replaces the frame has no place in the
recursion. -/
def builtIn : Nat → Seat G F M → Operation G F → Direct σ G F M (Outcome × Seat G F M)
  | 0, _, _ => failure
  | n + 1, seat, .call func args => do
    match ← ask (.invoke func args) (env.invoke func args) with
    | .ok g => child n seat g none
    | .error e => pure (.error e, seat)
  | n + 1, seat, .execute g => child n seat g none
  | _ + 1, seat, .fork inner => do
    let task ← ask (.fork inner) (env.fork inner)
    pure (.ok (.task task), seat)
  | n + 1, seat, .start inner => evaluate n seat (.operation inner)
  | _ + 1, seat, .defer inner =>
    if seat.isFrame then pure (.ok .null, { seat with defers := inner :: seat.defers })
    else pure (.error (.usage deferKind "no frame to attach the operation to"), seat)
  | _ + 1, seat, .recover =>
    match seat.below with
    | some (.error e) => pure (.ok (.error e), { seat with below := some (.ok .null) })
    | _ => pure (.ok .null, seat)
  | _ + 1, _, .terminal _ => failure
  | _ + 1, seat, .next _ => pure (.error .nextOutsideHandler, seat)
  | _ + 1, seat, .custom kind _ => pure (.error (.unrecognizedOperation kind), seat)

def child : Nat → Seat G F M → G → Option (HandlerSlot M) →
    Direct σ G F M (Outcome × Seat G F M)
  | 0, _, _, _ => failure
  | n + 1, seat, g, slot => do
    let (outcome, own) ← proceed n (.inside slot seat.own) g (.ok .null)
    pure (outcome, { seat with own })

/-- Resumes the generator of a frame with what it is due until it completes. Returns the outcome of
the frame and what the frame below holds then. -/
def proceed : Nat → Seat G F M → G → Outcome → Direct σ G F M (Outcome × Option Outcome)
  | 0, _, _, _ => failure
  | n + 1, seat, g, due => do
    match ← ask (.resume g (.deliver due)) (env.resume g (.deliver due)) with
    | (.yielded y, g) =>
      let (due, seat) ← evaluate n seat y
      proceed n seat g due
    | (.complete outcome, _) => finish n seat outcome

/-- Evaluates the operations deferred on a completed frame, the most recently registered first. Each
failure overrides the outcome that the frame holds. -/
def finish : Nat → Seat G F M → Outcome → Direct σ G F M (Outcome × Option Outcome)
  | 0, _, _ => failure
  | n + 1, seat, held =>
    match seat.defers with
    | [] => pure (held, seat.below)
    | op :: defers => do
      let (outcome, seat) ← evaluate n { seat with defers, own := some held } (.operation op)
      let held := seat.own.getD held
      match outcome with
      | .ok _ => finish n seat held
      | .error e => finish n seat (.error (e.overriding held))

end

def run (n : Nat) (root : Yielded G F) (state : σ) : Option (Outcome × Scene σ G F M) :=
  (evaluate env registry n .outside root ⟨state, []⟩).map fun ((outcome, _), s) => (outcome, s)

end

end Direct

end EffectEngine
