import EffectEngine.Task.Frame
import EffectEngine.Diagnostic

/-!
# Tasks

A `Task` drives a stack of frames to an outcome. It is a machine that knows no generator, function
or middleware from the inside: `Task.step` makes one move and may pose a `Request`, and
`Task.resumed`, `Task.filtered`, … take the answers. `Stage` says what the machine is about to do
or what it waits for.
-/

namespace EffectEngine

/-- Why an operation is dispatched. -/
inductive Purpose where
  /-- The top frame yielded it, or it is the root of the task. -/
  | yielded
  /-- It was deferred by the completed frame at `level`, which held the outcome `prior`. -/
  | deferred (level : Nat) (prior : Outcome)
deriving Inhabited

namespace Purpose

/-- Whether a frame pushed now runs on behalf of a deferred operation. -/
def shields : Purpose → Bool
  | yielded => false
  | deferred .. => true

end Purpose

/-- What a task is about to do, or waits for. `origin` is the slot of the frame that was on top when
the dispatch began. -/
inductive Stage (G F M : Type) where
  | fresh (root : Yielded G F)
  /-- About to resume the top frame, or to settle if there is none. -/
  | ready
  | resuming
  | dispatching (y : Yielded G F) (origin : Option (HandlerSlot M)) (purpose : Purpose)
  /-- About to offer an operation to the middleware at `slot`, or waiting whether it accepts. -/
  | offering (op : Operation G F) (slot : HandlerSlot M) (origin : Option (HandlerSlot M))
    (purpose : Purpose)
  /-- About to have an operation handled by the middleware at `slot`, or waiting for it. -/
  | handling (op : Operation G F) (slot : HandlerSlot M) (purpose : Purpose)
  | invoking (purpose : Purpose)
  | forking (purpose : Purpose)
  /-- About to report the operations that a replaced frame leaves undone. -/
  | replacing (frame : Frame G F M) (inner : Operation G F) (origin : Option (HandlerSlot M))
    (purpose : Purpose)
  /-- About to ask a replaced frame to return, or waiting for it. -/
  | retiring (frame : Frame G F M) (inner : Operation G F) (origin : Option (HandlerSlot M))
    (purpose : Purpose)
  /-- About to report how a replaced frame ended. -/
  | reporting (d : Diagnostic) (inner : Operation G F) (origin : Option (HandlerSlot M))
    (purpose : Purpose)
  | dispatched (result : Except Error Unit) (purpose : Purpose)
  /-- The top frame has completed: about to run its deferred operations or to pop it. -/
  | unwinding
  | settled (outcome : Outcome)

instance {G F M : Type} : Inhabited (Stage G F M) := ⟨.ready⟩

/-- What a task asks of its surroundings. -/
inductive Request (G F M : Type) where
  | silent
  | resume (generator : G) (input : Resume)
  /-- To resume the generator of a replaced frame for its return, and to drop it. -/
  | retire (generator : G)
  | filter (middleware : M) (op : Operation G F)
  | handle (middleware : M) (op : Operation G F)
  | invoke (func : F) (args : List Value)
  | fork (root : Operation G F)
  | report (d : Diagnostic)

/-- A task: its frames, the top one first, and what it is doing. -/
structure Task (G F M : Type) where
  id : TaskId
  canceled : Bool
  frames : List (Frame G F M)
  /-- The outcome once the bottom frame has been popped. -/
  root : Outcome
  stage : Stage G F M

instance {G F M : Type} : Inhabited (Task G F M) := ⟨⟨default, false, [], .ok .null, .ready⟩⟩

namespace Task

variable {G F M : Type}

def fresh (id : TaskId) (root : Yielded G F) : Task G F M :=
  ⟨id, false, [], .ok .null, .fresh root⟩

def outcome? (t : Task G F M) : Option Outcome :=
  match t.stage with
  | .settled outcome => some outcome
  | _ => none

def isSettled (t : Task G F M) : Bool := t.outcome?.isSome

/-- Marks every live frame for cancellation and answers whether this call initiated it. A task that
has settled or was already cancelled stays as it is. -/
def requestCancel (t : Task G F M) : Bool × Task G F M :=
  if t.isSettled || t.canceled then (false, t)
  else
    (true, { t with
      canceled := true
      frames := t.frames.map fun f => { f with mark := f.mark.cancel } })

def become (t : Task G F M) (stage : Stage G F M) : Task G F M := { t with stage }

def push (t : Task G F M) (generator : G) (name : String) (slot : Option (HandlerSlot M))
    (purpose : Purpose) : Task G F M :=
  let mark := .pushed purpose.shields t.canceled (t.frames.head?.map (·.mark))
  { t with
    frames := ⟨generator, name, mark, .ok .null, [], false, slot⟩ :: t.frames
    stage := .dispatched (.ok ()) purpose }

def pushPlain [Named G] (t : Task G F M) (generator : G) (purpose : Purpose) : Task G F M :=
  t.push generator (Named.name generator) none purpose

/-- Replaces what the top frame is about to receive, or the outcome of the task if no frame is
left. -/
def setCurrent (t : Task G F M) (outcome : Outcome) : Task G F M :=
  match t.frames with
  | [] => { t with root := outcome }
  | f :: rest => { t with frames := { f with result := outcome } :: rest }

/-- Moves the error of the completed frame below into the top frame. -/
def recover (t : Task G F M) : Task G F M :=
  match t.frames with
  | top :: below :: rest =>
    match below.completed, below.result with
    | true, .error e =>
      { t with frames :=
        { top with result := .ok (.error e) } :: { below with result := .ok .null } :: rest }
    | _, _ => t
  | _ => t

/-- The settled task. A cancelled one settles with its cancellation, whatever its outcome. -/
def settle (t : Task G F M) : Task G F M :=
  t.become (.settled (if t.canceled then .error .cancelled else t.root))

def panicked (t : Task G F M) (message : String) : Task G F M :=
  t.become (.settled (.error (.panicked message)))

/-- Resumes the top frame: with a forced return if its cancellation is pending, otherwise with what
it is due. -/
def resumeTop (t : Task G F M) (f : Frame G F M) (rest : List (Frame G F M)) :
    Task G F M × Request G F M :=
  let forced := f.mark == .pending
  let mark := if forced then .forced else f.mark
  ({ t with frames := { f with mark, result := .ok .null } :: rest, stage := .resuming },
    .resume f.generator (if forced then .forcedReturn else .deliver f.result))

/-- The built-in handling of an operation that no middleware took. -/
def core [Named G] (t : Task G F M) (op : Operation G F) (origin : Option (HandlerSlot M))
    (purpose : Purpose) : Task G F M × Request G F M :=
  let fail (e : Error) := (t.become (.dispatched (.error e) purpose), .silent)
  match op with
  | .call func args => (t.become (.invoking purpose), .invoke func args)
  | .execute generator => (t.pushPlain generator purpose, .silent)
  | .fork inner => (t.become (.forking purpose), .fork inner)
  | .start inner => (t.become (.dispatching (.operation inner) origin purpose), .silent)
  | .defer inner =>
    match t.frames with
    | [] => fail (.usage deferKind "no frame to attach the operation to")
    | f :: rest =>
      ({ t with
        frames := { f with defers := inner :: f.defers } :: rest
        stage := .dispatched (.ok ()) purpose }, .silent)
  | .recover => (t.recover.become (.dispatched (.ok ()) purpose), .silent)
  | .terminal inner =>
    if inner.needsFrame then fail (.forbiddenTerminal inner.kind)
    else match t.frames with
      | [] => fail (.usage terminalKind "no frame to replace")
      | f :: rest =>
        if f.completed then fail (.usage terminalKind "the frame has already completed")
        else ({ t with frames := rest, stage := .replacing f inner origin purpose }, .silent)
  | .next _ => fail .nextOutsideHandler
  | .custom kind _ => fail (.unrecognizedOperation kind)

/-- Finds where the dispatch of an operation begins: at the top of its chain, or for `next` behind
the slot of the frame that yielded it. -/
def dispatch [Named G] (registry : Registry M) (t : Task G F M) (y : Yielded G F)
    (origin : Option (HandlerSlot M)) (purpose : Purpose) : Task G F M :=
  match y with
  | .generator generator =>
    if registry.contains executeKind then
      t.become (.dispatching (.operation (.execute generator)) origin purpose)
    else t.pushPlain generator purpose
  | .operation (.next inner) =>
    match origin with
    | none => t.become (.dispatched (.error .nextOutsideHandler) purpose)
    | some slot =>
      if inner.kind == slot.kind then t.become (.offering inner slot.succ origin purpose)
      else t.become (.dispatched (.error (.nextKindMismatch slot.kind inner.kind)) purpose)
  | .operation op =>
    t.become (.offering op ⟨op.kind, registry.handlers op.kind, 0⟩ origin purpose)

def conclude (t : Task G F M) (result : Except Error Unit) (purpose : Purpose) : Task G F M :=
  match purpose with
  | .yielded =>
    match result with
    | .ok _ => t.become .ready
    | .error e => (t.setCurrent (.error e)).become .ready
  | .deferred level prior =>
    { t with
      frames := atLevel level (fun f => { f with result := Frame.afterDefer prior result }) t.frames
      stage := if t.frames.length > level then .ready else .unwinding }

def handDown (t : Task G F M) (outcome : Outcome) (rest : List (Frame G F M)) : Task G F M :=
  match rest with
  | [] => { t with frames := [], root := outcome, stage := .ready }
  | below :: rest =>
    { t with
      frames := below.receive outcome :: rest
      stage := if below.completed then .unwinding else .ready }

/-- Dispatches the latest deferred operation of the completed top frame, or pops the frame. -/
def unwind (t : Task G F M) : Task G F M :=
  match t.frames with
  | [] => t.become .ready
  | f :: rest =>
    match f.defers with
    | op :: defers =>
      { t with
        frames := { f with defers, result := .ok .null } :: rest
        stage := .dispatching (.operation op) f.slot (.deferred t.frames.length f.result) }
    | [] => t.handDown f.result rest

def step [Named G] (registry : Registry M) (t : Task G F M) : Task G F M × Request G F M :=
  match t.stage with
  | .fresh root =>
    if t.canceled then (t.settle, .silent)
    else (t.become (.dispatching root none .yielded), .silent)
  | .ready =>
    match t.frames with
    | [] => (t.settle, .silent)
    | f :: rest => t.resumeTop f rest
  | .dispatching y origin purpose => (t.dispatch registry y origin purpose, .silent)
  | .offering op slot origin purpose =>
    match slot.handler? with
    | some middleware => (t, .filter middleware op)
    | none => t.core op origin purpose
  | .handling op slot purpose =>
    match slot.handler? with
    | some middleware => (t, .handle middleware op)
    | none => (t.become (.dispatched (.error (.unrecognizedOperation op.kind)) purpose), .silent)
  | .replacing frame inner origin purpose =>
    (t.become (.retiring frame inner origin purpose),
      if frame.defers.isEmpty then .silent
      else .report (.skippedDefers t.id frame.name frame.defers.length))
  | .retiring frame _ _ _ => (t, .retire frame.generator)
  | .reporting d inner origin purpose =>
    (t.become (.dispatching (.operation inner) origin purpose), .report d)
  | .dispatched result purpose => (t.conclude result purpose, .silent)
  | .unwinding => (t.unwind, .silent)
  | .resuming | .invoking _ | .forking _ | .settled _ => (t, .silent)

/-- The outcome of a completed generator: a frame forced to return may end by its interruption. -/
def completion (mark : Mark) (outcome : Outcome) : Outcome :=
  match mark, outcome with
  | .forced, .error .interrupted => .ok .null
  | _, outcome => outcome

/-- The generator of the top frame suspended or completed. What a frame with a pending cancellation
yields is dropped. -/
def resumed (t : Task G F M) (signal : Signal G F) (generator : G) : Task G F M :=
  match t.stage, t.frames with
  | .resuming, f :: rest =>
    match signal with
    | .complete outcome =>
      { t with
        frames :=
          { f with generator, result := completion f.mark outcome, completed := true } :: rest
        stage := .unwinding }
    | .yielded y =>
      { t with
        frames := { f with generator } :: rest
        stage := if f.mark == .pending then .ready else .dispatching y f.slot .yielded }
  | _, _ => t

def filtered (t : Task G F M) (accepts : Bool) : Task G F M :=
  match t.stage with
  | .offering op slot origin purpose =>
    if accepts then t.become (.handling op slot purpose)
    else t.become (.offering op slot.succ origin purpose)
  | _ => t

def handlerName (kind : String) : String := "<yield " ++ kind ++ ">"

def handled (t : Task G F M) (result : Except Error G) : Task G F M :=
  match t.stage with
  | .handling _ slot purpose =>
    match result with
    | .ok generator => t.push generator (handlerName slot.kind) (some slot) purpose
    | .error e => t.become (.dispatched (.error e) purpose)
  | _ => t

def invoked [Named G] (t : Task G F M) (result : Except Error G) : Task G F M :=
  match t.stage with
  | .invoking purpose =>
    match result with
    | .ok generator => t.pushPlain generator purpose
    | .error e => t.become (.dispatched (.error e) purpose)
  | _ => t

def forked (t : Task G F M) (child : TaskId) : Task G F M :=
  match t.stage with
  | .forking purpose => (t.setCurrent (.ok (.task child))).become (.dispatched (.ok ()) purpose)
  | _ => t

/-- A replaced frame returned, failed or suspended again. -/
def retired (t : Task G F M) (signal : Signal G F) : Task G F M :=
  match t.stage with
  | .retiring frame inner origin purpose =>
    match signal with
    | .complete (.ok _) | .complete (.error .interrupted) =>
      t.become (.dispatching (.operation inner) origin purpose)
    | .complete (.error e) =>
      t.become (.reporting (.failedTermination t.id frame.name e.message) inner origin purpose)
    | .yielded _ =>
      t.become (.reporting (.unfinishedTermination t.id frame.name) inner origin purpose)
  | _ => t

def replaced? (t : Task G F M) : Option G :=
  match t.stage with
  | .replacing frame _ _ _ | .retiring frame _ _ _ => some frame.generator
  | _ => none

def stacked (t : Task G F M) : List G := (t.frames.map (·.generator)).reverse

/-- The generators a task holds, in the order in which they are let go when a panic unwinds it: that
of a frame being replaced first, then from the bottom of the stack up. -/
def generators (t : Task G F M) : List G := t.replaced?.toList ++ t.stacked

/-- The generators a task holds together with those held by the generator it is resuming, in the
order in which they are let go when it is dropped. -/
def generatorsAround (t : Task G F M) (inside : List G) : List G :=
  match t.replaced? with
  | some generator => generator :: inside ++ t.stacked
  | none => t.stacked ++ inside

end Task

end EffectEngine
