import EffectEngine.Registry

/-!
# Frames

A `Frame` is one running generator of a task. Frames form a stack, given as a list with the top
frame first. Each frame carries its `Mark`, which says how a cancellation of the task concerns it.
-/

namespace EffectEngine

/-- How a cancellation concerns a frame. -/
inductive Mark where
  | clear
  /-- The frame is still to be forced to return. -/
  | pending
  /-- The frame has been forced to return. -/
  | forced
  /-- The frame runs on behalf of a deferred operation and is never forced. -/
  | shielded
deriving DecidableEq, Inhabited, Repr

namespace Mark

def cancel : Mark → Mark
  | clear => pending
  | m => m

/-- The mark of a frame pushed on a frame with mark `below?`, or on an empty stack. -/
def pushed (isShielded isCanceled : Bool) (below? : Option Mark) : Mark :=
  if isShielded then shielded
  else match below? with
    | some shielded => shielded
    | some pending => pending
    | some _ => clear
    | none => if isCanceled then pending else clear

end Mark

/-- A running generator of a task. -/
structure Frame (G F M : Type) where
  generator : G
  name : String
  mark : Mark
  /-- What the next resumption delivers; of a completed frame, its own outcome. -/
  result : Outcome
  /-- Deferred operations, the most recently registered first. -/
  defers : List (Operation G F)
  completed : Bool
  /-- The place in the middleware chain that a handler frame serves. -/
  slot : Option (HandlerSlot M)

namespace Frame

variable {G F M : Type}

/-- The outcome of a completed frame after the failure or success of a deferred operation. -/
def afterDefer (prior : Outcome) : Except Error Unit → Outcome
  | .ok _ => prior
  | .error e => .error (e.overriding prior)

/-- What a frame makes of the outcome of the frame above it. A completed frame only takes errors,
which override its own outcome. -/
def receive (f : Frame G F M) (outcome : Outcome) : Frame G F M :=
  if f.completed then
    match outcome with
    | .ok _ => f
    | .error e => { f with result := .error (e.overriding f.result) }
  else { f with result := outcome }

end Frame

/-- Changes the frame that is the `level`-th from the bottom, counted from one. -/
def atLevel {α : Type} (level : Nat) (change : α → α) (frames : List α) : List α :=
  frames.modify (frames.length - level) change

theorem map_atLevel {α β : Type} {g : α → β} {change : α → α} (same : ∀ a, g (change a) = g a)
    (level : Nat) (l : List α) : (atLevel level change l).map g = l.map g := by
  refine List.ext_getElem? fun i => ?_
  simp only [atLevel, List.getElem?_map, List.getElem?_modify]
  split <;> simp [Function.comp_def, same]

end EffectEngine
