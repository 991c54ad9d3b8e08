import EffectEngine.Task

/-!
# Runs of a task

An `Impulse` is anything that can happen to a task: it makes a move, an answer to a request of its
arrives, or somebody asks it to cancel. `Task.take` is the task afterwards, and `Task.demand` what it
asks for as that happens. From these two `Task.observe` reads off what became of its frames, as
`StackEvent`s. A `Run` is a task together with its history, and `Run.after` lets impulses happen to
it in any order, so that what holds after all of them holds whatever generators, middleware and
other tasks do.
-/

namespace EffectEngine

inductive Impulse (G F : Type) where
  | move
  | resumed (signal : Signal G F) (generator : G)
  | filtered (accepts : Bool)
  | handled (result : Except Error G)
  | invoked (result : Except Error G)
  | forked (child : TaskId)
  | cancel

/-- What becomes of a frame: of the top one, if nothing else is said. -/
inductive StackEvent (G F : Type) where
  /-- A frame is pushed, shielded if it runs on behalf of a deferred operation. -/
  | pushed (isShielded : Bool)
  | resumed (input : Resume)
  | completed (outcome : Outcome)
  | registered (op : Operation G F)
  /-- The completed frame has a deferred operation dispatched. -/
  | undertaken (op : Operation G F)
  /-- The deferred operation that was undertaken has ended. -/
  | discharged (result : Except Error Unit)
  /-- The error that the frame below the top one holds is taken over. -/
  | recovered
  /-- The dispatch of what a frame above yielded has ended without leaving any frame above this
  completed one. -/
  | stranded
  | popped (outcome : Outcome)
  | replaced
  | cancelled

def StackEvent.input? {G F : Type} : StackEvent G F → Option Resume
  | resumed input => some input
  | _ => none

namespace Frame

variable {G F M : Type}

def input (f : Frame G F M) : Resume :=
  if f.mark == .pending then .forcedReturn else .deliver f.result

def holdsError (f : Frame G F M) : Bool :=
  match f.completed, f.result with
  | true, .error _ => true
  | _, _ => false

end Frame

/-- What a request resumes the top frame with. -/
def Request.input? {G F M : Type} : Request G F M → Option Resume
  | resume _ input => some input
  | _ => none

namespace Task

variable {G F M : Type}

theorem isSettled_iff {t : Task G F M} :
    t.isSettled = true ↔ ∃ outcome, t.stage = .settled outcome := by
  unfold isSettled outcome?
  split <;> simp_all

/-- What a deferred operation comes to whose frame hands down an outcome. -/
def verdict : Outcome → Except Error Unit
  | .ok _ => .ok ()
  | .error e => .error e

section Observation

variable [Named G] (registry : Registry M) (t : Task G F M)

def take : Impulse G F → Task G F M
  | .move => (t.step registry).1
  | .resumed signal generator =>
    match t.stage with
    | .retiring .. => t.retired signal
    | _ => t.resumed signal generator
  | .filtered accepts => t.filtered accepts
  | .handled result => t.handled result
  | .invoked result => t.invoked result
  | .forked child => t.forked child
  | .cancel => t.requestCancel.2

/-- What the task asks of its surroundings as an impulse happens to it. -/
def demand : Impulse G F → Request G F M
  | .move => (t.step registry).2
  | _ => .silent

end Observation

section Changes

variable (t t' : Task G F M)

/-- What has become of the frames of a task that has carried out an operation on them. -/
def amendments : List (Frame G F M) → List (Frame G F M) → List (StackEvent G F)
  | f :: rest, f' :: rest' =>
    if f.defers.length < f'.defers.length then f'.defers.head?.toList.map .registered
    else if rest.head?.any (·.holdsError) && !rest'.head?.any (·.holdsError) then [.recovered]
    else []
  | _, _ => []

/-- What has become of the frames of a task that has one frame less. -/
def departures : List (StackEvent G F) :=
  match t'.stage, t.frames with
  | .replacing .., _ => [.replaced]
  | _, [] => []
  | _, f :: _ => .popped f.result ::
    (if t'.frames.head?.any (·.completed) then [.discharged (verdict f.result)] else [])

/-- What has become of the frames of a task that has as many as before. -/
def transitions : List (StackEvent G F) :=
  match t.stage, t'.stage with
  | .resuming, .unwinding => t'.frames.head?.toList.map fun f => .completed f.result
  | .unwinding, .dispatching (.operation op) _ (.deferred ..) => [.undertaken op]
  | .dispatched result _, .unwinding => [.discharged result]
  | .dispatched .., .ready => if t'.frames.head?.any (·.completed) then [.stranded] else []
  | _, .dispatched .. => amendments t.frames t'.frames
  | _, _ => []

/-- What has become of the frames of a task `t` that has come to be `t'`. -/
def changes : List (StackEvent G F) :=
  if t'.canceled && !t.canceled then [.cancelled]
  else if t.frames.length < t'.frames.length then
    match t'.stage with
    | .dispatched _ purpose => [.pushed purpose.shields]
    | _ => []
  else if t'.frames.length < t.frames.length then t.departures t'
  else t.transitions t'

end Changes

/-- What an impulse does to the frames of a task: what the top one is resumed with is what the task
asks for, and everything else is seen on the task afterwards. -/
def observe [Named G] (registry : Registry M) (t : Task G F M) (i : Impulse G F) :
    List (StackEvent G F) :=
  (t.demand registry i).input?.toList.map .resumed ++ t.changes (t.take registry i)

section Changes

variable {t t' : Task G F M}

theorem amendments_self (frames : List (Frame G F M)) : amendments frames frames = [] := by
  cases frames with
  | nil => rfl
  | cons f rest => simp [amendments]

theorem changes_of_frames_eq (frames : t'.frames = t.frames) (canceled : t'.canceled = t.canceled) :
    t.changes t' = t.transitions t' := by
  simp [changes, frames, canceled]

theorem changes_self (t : Task G F M) : t.changes t = [] := by
  rw [changes_of_frames_eq rfl rfl, transitions]
  split <;> simp_all [amendments_self]

/-- Nothing becomes of the frames of a task that settles. -/
theorem changes_settled {outcome : Outcome} (stage : t'.stage = .settled outcome)
    (frames : t'.frames = t.frames) (canceled : t'.canceled = t.canceled) : t.changes t' = [] := by
  rw [changes_of_frames_eq frames canceled, transitions]
  split <;> simp_all

variable [Named G] {registry : Registry M} {i : Impulse G F}

theorem observe_of_unasked (unasked : (t.demand registry i).input? = none) :
    t.observe registry i = t.changes (t.take registry i) := by
  rw [observe, unasked]
  rfl

theorem observe_eq_nil (same : t.take registry i = t)
    (unasked : (t.demand registry i).input? = none) : t.observe registry i = [] := by
  rw [observe_of_unasked unasked, same, changes_self]

theorem observe_cancel :
    t.observe registry .cancel = if t.requestCancel.1 then [.cancelled] else [] := by
  rw [observe_of_unasked rfl]
  simp only [take, requestCancel]
  split
  · exact changes_self t
  · rename_i free
    simp only [Bool.or_eq_true, not_or, Bool.not_eq_true] at free
    simp [changes, free.2]

theorem observe_ready {f : Frame G F M} {rest : List (Frame G F M)} (stage : t.stage = .ready)
    (frames : t.frames = f :: rest) : t.observe registry .move = [.resumed f.input] := by
  simp only [observe, demand, take, step, stage, frames, resumeTop, Request.input?]
  simp [changes, transitions, stage, frames, Frame.input]

end Changes

end Task

/-- A task and what has become of its frames so far, oldest first. -/
structure Run (G F M : Type) where
  task : Task G F M
  history : List (StackEvent G F)

namespace Run

variable {G F M : Type}

def start (id : TaskId) (root : Yielded G F) : Run G F M := ⟨.fresh id root, []⟩

variable [Named G] (registry : Registry M)

def take (r : Run G F M) (i : Impulse G F) : Run G F M :=
  ⟨r.task.take registry i, r.history ++ r.task.observe registry i⟩

def after (r : Run G F M) (impulses : List (Impulse G F)) : Run G F M :=
  impulses.foldl (take registry) r

variable {registry}

theorem after_induction {P : Run G F M → Prop} {r : Run G F M} (h : P r)
    (step : ∀ r i, P r → P (r.take registry i)) (impulses : List (Impulse G F)) :
    P (r.after registry impulses) := by
  induction impulses generalizing r with
  | nil => exact h
  | cons i rest ih => exact ih (step r i h)

theorem after_cons (r : Run G F M) (i : Impulse G F) (is : List (Impulse G F)) :
    r.after registry (i :: is) = (r.take registry i).after registry is := rfl

theorem after_append (r : Run G F M) (is js : List (Impulse G F)) :
    r.after registry (is ++ js) = (r.after registry is).after registry js :=
  List.foldl_append

end Run

/-- A generator of which nothing but the name is known. -/
structure Stub where
  name : String

instance : Named Stub := ⟨Stub.name⟩

end EffectEngine
