import EffectEngine.Proofs.Task.Recursion
import EffectEngine.Proofs.Task.Turn
import Mathlib.Logic.Function.Iterate

/-!
# Tasks refine direct recursion

`Simulates n` says that whatever direct recursion evaluates in `n` steps a task evaluates on its
stack: `Seat.onto` writes what the recursion knows of a frame into the top of the stack, and every
evaluation ends with its outcome handed down to that frame, just as if a frame above had been
popped. It is proved by induction on `n`.
-/

namespace EffectEngine

variable {σ G F M : Type}

section Stack

variable {frames rest : List (Frame G F M)} {f : Frame G F M} {o o' : Option Outcome}

def heldOf : List (Frame G F M) → Option Outcome
  | f :: _ => if f.completed then some f.result else none
  | [] => none

def setHeld : Option Outcome → List (Frame G F M) → List (Frame G F M)
  | some h, f :: rest => { f with result := h } :: rest
  | _, frames => frames

/-- No frame is concerned by a cancellation. -/
def Calm (frames : List (Frame G F M)) : Prop :=
  ∀ f ∈ frames, f.mark = .clear ∨ f.mark = .shielded

theorem setHeld_heldOf (frames : List (Frame G F M)) : setHeld (heldOf frames) frames = frames := by
  cases frames with
  | nil => rfl
  | cons f rest =>
    by_cases hd : f.completed = true
    · simp only [heldOf, if_pos hd, setHeld]
    · simp only [heldOf, if_neg hd, setHeld]

theorem heldOf_setHeld (h : o.isSome = (heldOf frames).isSome) : heldOf (setHeld o frames) = o := by
  cases frames with
  | nil => cases o <;> simp_all [heldOf, setHeld]
  | cons f rest =>
    cases o <;> cases hf : f.completed <;> simp_all [heldOf, setHeld]

theorem setHeld_setHeld (h : o'.isSome = o.isSome) :
    setHeld o' (setHeld o frames) = setHeld o' frames := by
  cases o <;> cases o' <;> cases frames <;> simp_all [setHeld]

theorem length_setHeld (o : Option Outcome) (frames : List (Frame G F M)) :
    (setHeld o frames).length = frames.length := by
  cases o <;> cases frames <;> rfl

theorem Calm.setHeld (h : Calm frames) (o : Option Outcome) : Calm (setHeld o frames) := by
  cases o with
  | none => cases frames <;> exact h
  | some held =>
    cases frames with
    | nil => exact h
    | cons f rest => simpa [Calm, EffectEngine.setHeld] using h

end Stack

namespace Seat

variable {seat seat' : Seat G F M} {frames rest : List (Frame G F M)} {f : Frame G F M}

def onto (seat : Seat G F M) : List (Frame G F M) → List (Frame G F M)
  | f :: rest =>
    { f with defers := seat.defers, result := seat.own.getD (.ok .null) } :: setHeld seat.below rest
  | [] => []

/-- What evaluating an operation leaves as it was. -/
structure Alike (seat seat' : Seat G F M) : Prop where
  isFrame : seat'.isFrame = seat.isFrame
  slot : seat'.slot = seat.slot
  own : seat'.own.isSome = seat.own.isSome
  below : seat'.below.isSome = seat.below.isSome

theorem Alike.refl (seat : Seat G F M) : Alike seat seat := ⟨rfl, rfl, rfl, rfl⟩

end Seat

/-- The seat of the top frame of a stack, for operations dispatched with a purpose. -/
inductive Seated : Seat G F M → Purpose → List (Frame G F M) → Prop
  | outside : Seated .outside .yielded []
  | running (f : Frame G F M) (rest : List (Frame G F M)) (running : f.completed = false) :
      Seated ⟨true, f.slot, f.defers, none, heldOf rest⟩ .yielded (f :: rest)
  | completed (f : Frame G F M) (rest : List (Frame G F M)) (prior : Outcome)
      (done : f.completed = true) :
      Seated ⟨true, f.slot, f.defers, some prior, heldOf rest⟩ (.deferred (rest.length + 1) prior)
        (f :: rest)

namespace Task

variable {t : Task G F M}

/-- What the top frame is about to receive, or the outcome of the task if no frame is left. -/
def current (t : Task G F M) : Outcome :=
  match t.frames with
  | [] => t.root
  | f :: _ => f.result

theorem recover_eq_self (h : ∀ e, heldOf t.frames.tail ≠ some (.error e)) : t.recover = t := by
  match hf : t.frames with
  | [] | [_] => simp only [recover, hf]
  | top :: below :: rest =>
    refine recover_eq hf ?_
    rw [hf] at h
    cases hd : below.completed <;> cases hr : below.result <;>
      simp_all [heldOf, Frame.holdsError]

theorem recover_eq_of_held {f : Frame G F M} {rest : List (Frame G F M)} {e : Error}
    (hf : t.frames = f :: rest) (h : heldOf rest = some (.error e)) : t.recover = { t with
      frames := { f with result := .ok (.error e) } :: setHeld (some (.ok .null)) rest } := by
  cases rest with
  | nil => cases h
  | cons below rest =>
    cases hd : below.completed <;> simp_all [heldOf, recover, setHeld]

def newFrame (t : Task G F M) (g : G) (name : String) (slot : Option (HandlerSlot M))
    (p : Purpose) : Frame G F M :=
  ⟨g, name, .pushed p.shields t.canceled (t.frames.head?.map (·.mark)), .ok .null, [], false, slot⟩

theorem handDown_with (frames fs : List (Frame G F M)) (s : Stage G F M) (r : Outcome) :
    Task.handDown { t with frames, stage := s } r fs = t.handDown r fs := by
  cases fs <;> rfl

end Task

theorem Calm.top {f : Frame G F M} {rest : List (Frame G F M)} (h : Calm (f :: rest)) :
    f.mark = .clear ∨ f.mark = .shielded := h f List.mem_cons_self

theorem Calm.alter {f f' : Frame G F M} {rest : List (Frame G F M)} (h : Calm (f :: rest))
    (hm : f'.mark = f.mark) (below : Option Outcome) :
    Calm (f' :: EffectEngine.setHeld below rest) := by
  obtain ⟨hf, hr⟩ := List.forall_mem_cons.1 h
  exact List.forall_mem_cons.2 ⟨by rwa [hm], Calm.setHeld hr _⟩

theorem Calm.change {f f' : Frame G F M} {rest : List (Frame G F M)} (h : Calm (f :: rest))
    (hm : f'.mark = f.mark) : Calm (f' :: rest) := by
  simpa only [setHeld_heldOf] using h.alter hm (heldOf rest)

theorem Calm.pushed {p : Purpose} {frames : List (Frame G F M)} (h : Calm frames) :
    Mark.pushed p.shields false (frames.head?.map (·.mark)) = .clear ∨
      Mark.pushed p.shields false (frames.head?.map (·.mark)) = .shielded := by
  unfold Mark.pushed
  split
  · exact .inr rfl
  · cases frames with
    | nil => exact .inl rfl
    | cons f rest =>
      rcases h f List.mem_cons_self with hm | hm <;> simp [hm]

theorem Calm.onto {frames : List (Frame G F M)} (h : Calm frames) (seat : Seat G F M) :
    Calm (seat.onto frames) := by
  cases frames with
  | nil => exact h
  | cons f rest => exact h.alter (by rfl) _

namespace Seated

variable {seat seat' : Seat G F M} {p : Purpose} {frames rest : List (Frame G F M)}
  {f : Frame G F M} {own : Option Outcome}

theorem heldOf_onto (h : Seated seat p frames) : heldOf (seat.onto frames) = seat.own := by
  cases h with
  | outside => rfl
  | running f rest running => simp [Seat.onto, heldOf, running]
  | completed f rest prior done => simp [Seat.onto, heldOf, done]

theorem setHeld_onto (h : Seated seat p frames) (ho : own.isSome = seat.own.isSome) :
    setHeld own (seat.onto frames) = { seat with own }.onto frames := by
  cases h with
  | outside => cases own <;> rfl
  | running f rest running =>
    obtain rfl : own = none := by simpa using ho
    rfl
  | completed f rest prior done =>
    obtain ⟨held, rfl⟩ := Option.isSome_iff_exists.1 ho
    rfl

theorem alter (h : Seated seat p (f :: rest)) {below : Option Outcome}
    (hb : below.isSome = seat.below.isSome) (result : Outcome) :
    Seated { seat with below } p ({ f with result } :: setHeld below rest) := by
  cases h with
  | running f rest running =>
    have := Seated.running { f with result } (setHeld below rest) running
    rwa [heldOf_setHeld hb] at this
  | completed f rest prior done =>
    have := Seated.completed { f with result } (setHeld below rest) prior done
    rwa [heldOf_setHeld hb, length_setHeld] at this

theorem below_eq (h : Seated seat p (f :: rest)) : seat.below = heldOf rest := by cases h <;> rfl

theorem below_tail (h : Seated seat p frames) : seat.below = heldOf frames.tail := by
  cases h <;> rfl

theorem slot_eq (h : Seated seat p (f :: rest)) : seat.slot = f.slot := by cases h <;> rfl

theorem defers_eq (h : Seated seat p (f :: rest)) : seat.defers = f.defers := by cases h <;> rfl

theorem defers (h : Seated seat p (f :: rest)) (defers : List (Operation G F)) (result : Outcome) :
    Seated { seat with defers } p ({ f with defers, result } :: rest) := by
  cases h with
  | running f rest running => exact .running { f with defers, result } rest running
  | completed f rest prior done => exact .completed { f with defers, result } rest prior done

theorem exists_frame (h : Seated seat p frames) (hi : seat.isFrame = true) :
    ∃ f rest, frames = f :: rest := by
  cases h with
  | outside => cases hi
  | running f rest | completed f rest => exact ⟨f, rest, rfl⟩

theorem no_frame (h : Seated seat p frames) (hi : seat.isFrame = false) : frames = [] := by
  cases h with
  | outside => rfl
  | running | completed => cases hi

theorem due (h : Seated seat p (f :: rest)) (result : Outcome) :
    Seated seat p ({ f with result } :: rest) := by
  cases h with
  | running f rest running => exact .running { f with result } rest running
  | completed f rest prior done => exact .completed { f with result } rest prior done

theorem generator (h : Seated seat p (f :: rest)) (generator : G) :
    Seated seat p ({ f with generator } :: rest) := by
  cases h with
  | running f rest running => exact .running { f with generator } rest running
  | completed f rest prior done => exact .completed { f with generator } rest prior done

theorem is_completed {level : Nat} {prior : Outcome}
    (h : Seated seat (.deferred level prior) (f :: rest)) : f.completed = true := by
  cases h; assumption

theorem not_completed (h : Seated seat .yielded (f :: rest)) : f.completed = false := by
  cases h; assumption

theorem complete (h : Seated seat .yielded (f :: rest)) (generator : G) (outcome : Outcome) :
    Seated { seat with own := some outcome } (.deferred (rest.length + 1) outcome)
      ({ f with generator, result := outcome, completed := true } :: rest) := by
  cases h
  exact .completed { f with generator, result := outcome, completed := true } rest outcome rfl

theorem running_onto (h : Seated seat .yielded (f :: rest)) (alike : seat.Alike seat')
    (due : Outcome) : Seated seat' .yielded
      ({ f with defers := seat'.defers, result := due } :: setHeld seat'.below rest) := by
  have := (h.defers seat'.defers due).alter alike.below due
  obtain ⟨isFrame, slot, defers, own, below⟩ := seat'
  obtain ⟨hi, hs, ho, hb⟩ := alike
  cases h with
  | running f rest running =>
    obtain rfl : isFrame = true := hi
    obtain rfl : slot = f.slot := hs
    obtain rfl : own = none := by simpa using ho
    exact this

theorem completed_onto {level : Nat} {prior : Outcome}
    (h : Seated seat (.deferred level prior) (f :: rest)) (alike : seat.Alike seat')
    (held result : Outcome) : Seated { seat' with own := some held }
      (.deferred ((setHeld seat'.below rest).length + 1) held)
      ({ f with defers := seat'.defers, result } :: setHeld seat'.below rest) := by
  obtain ⟨isFrame, slot, defers, own, below⟩ := seat'
  obtain ⟨hi, hs, ho, hb⟩ := alike
  cases h with
  | completed f rest prior done =>
    obtain rfl : isFrame = true := hi
    obtain rfl : slot = f.slot := hs
    have := Seated.completed { f with defers, result } (setHeld below rest) held done
    rwa [heldOf_setHeld hb] at this

end Seated

@[simp] theorem Task.frames_become (t : Task G F M) (st : Stage G F M) :
    (t.become st).frames = t.frames := rfl

@[simp] theorem Task.handDown_become (t : Task G F M) (st : Stage G F M) (r : Outcome)
    (fs : List (Frame G F M)) : (t.become st).handDown r fs = t.handDown r fs := by
  cases fs <;> rfl

/-- Before an operation is evaluated from a seat: nothing was cancelled, and the current frame is
due no result yet. -/
structure Posed (seat : Seat G F M) (p : Purpose) (t : Task G F M) : Prop where
  seated : Seated seat p t.frames
  uncanceled : t.canceled = false
  calm : Calm t.frames
  rested : t.current = .ok .null

theorem Posed.become {seat : Seat G F M} {p : Purpose} {t : Task G F M} (h : Posed seat p t)
    (st : Stage G F M) : Posed seat p (t.become st) := ⟨h.seated, h.uncanceled, h.calm, h.rested⟩

section Reaches

variable [Named G] (env : Surroundings σ G F M) (registry : Registry M)

def Reaches (c c' : Task G F M × Scene σ G F M) : Prop := ∃ n, (env.turn registry)^[n] c = c'

variable {env registry} {c c' c'' : Task G F M × Scene σ G F M}

theorem Reaches.refl : Reaches env registry c c := ⟨0, rfl⟩

theorem Reaches.trans (h : Reaches env registry c c') (h' : Reaches env registry c' c'') :
    Reaches env registry c c'' := by
  obtain ⟨m, rfl⟩ := h
  obtain ⟨n, rfl⟩ := h'
  exact ⟨n + m, Function.iterate_add_apply ..⟩

theorem Reaches.head (h : env.turn registry c = c') (h' : Reaches env registry c' c'') :
    Reaches env registry c c'' :=
  Reaches.trans ⟨1, h⟩ h'

end Reaches

theorem Task.resumed_yielded {t : Task G F M} {y : Yielded G F} {f : Frame G F M}
    {rest : List (Frame G F M)} {g : G}
    (hm : f.mark = .clear ∨ f.mark = .shielded) :
    Task.resumed { t with frames := f :: rest, stage := .resuming } (.yielded y) g =
      { t with
        frames := { f with generator := g } :: rest
        stage := .dispatching y f.slot .yielded } := by
  have hp : (f.mark == .pending) = false := by rcases hm with hm | hm <;> rw [hm] <;> rfl
  simp only [Task.resumed, hp, Bool.false_eq_true, if_false]

theorem Task.resumed_complete {t : Task G F M} {f : Frame G F M} {rest : List (Frame G F M)} {g : G}
    {outcome : Outcome}
    (hm : f.mark = .clear ∨ f.mark = .shielded) :
    Task.resumed { t with frames := f :: rest, stage := .resuming } (.complete outcome) g =
      { t with
        frames := { f with generator := g, result := outcome, completed := true } :: rest
        stage := .unwinding } := by
  have : Task.completion f.mark outcome = outcome := by rcases hm with hm | hm <;> rw [hm] <;> rfl
  simp only [Task.resumed, this]

/-! ### Turns of a task -/

section Turns

variable [Named G] {env : Surroundings σ G F M} {registry : Registry M} {t : Task G F M}
  {s s₁ : Scene σ G F M} {seat : Seat G F M} {p : Purpose} {y : Yielded G F} {op : Operation G F}
  {slot : HandlerSlot M} {origin : Option (HandlerSlot M)} {m : M}

theorem turn_dispatching (h : t.stage = .dispatching y origin p) :
    env.turn registry (t, s) = (t.dispatch registry y origin p, s) := by
  simp only [Surroundings.turn, Task.step, h]

theorem turn_filter {accepts : Bool} (h : t.stage = .offering op slot origin p)
    (hm : slot.handler? = some m) (ha : s.ask (.filter m op) (env.filter m op) = (accepts, s₁)) :
    env.turn registry (t, s) = (t.filtered accepts, s₁) := by
  simp only [Surroundings.turn, Task.step, h, hm, ha]

theorem turn_handle {result : Except Error G} (h : t.stage = .handling op slot p)
    (hm : slot.handler? = some m) (ha : s.ask (.handle m op) (env.handle m op) = (result, s₁)) :
    env.turn registry (t, s) = (t.handled result, s₁) := by
  simp only [Surroundings.turn, Task.step, h, hm, ha]

theorem turn_invoke {func : F} {args : List Value} {result : Except Error G}
    (h : t.stage = .offering (.call func args) slot origin p) (hm : slot.handler? = none)
    (ha : s.ask (.invoke func args) (env.invoke func args) = (result, s₁)) :
    env.turn registry (t, s) = ((t.become (.invoking p)).invoked result, s₁) := by
  simp only [Surroundings.turn, Task.step, h, hm, Task.core, ha]

theorem turn_fork {inner : Operation G F} {child : TaskId}
    (h : t.stage = .offering (.fork inner) slot origin p) (hm : slot.handler? = none)
    (ha : s.ask (.fork inner) (env.fork inner) = (child, s₁)) :
    env.turn registry (t, s) = ((t.become (.forking p)).forked child, s₁) := by
  simp only [Surroundings.turn, Task.step, h, hm, Task.core, ha]

theorem turn_core {t' : Task G F M} (h : t.stage = .offering op slot origin p)
    (hm : slot.handler? = none) (hc : t.core op origin p = (t', .silent)) :
    env.turn registry (t, s) = (t', s) := by
  simp only [Surroundings.turn, Task.step, h, hm, hc]

theorem turn_dispatched {result : Except Error Unit} (h : t.stage = .dispatched result p) :
    env.turn registry (t, s) = (t.conclude result p, s) := by
  simp only [Surroundings.turn, Task.step, h]

theorem turn_unwinding (h : t.stage = .unwinding) : env.turn registry (t, s) = (t.unwind, s) := by
  simp only [Surroundings.turn, Task.step, h]

theorem turn_ready {f : Frame G F M} {rest : List (Frame G F M)} {signal : Signal G F} {g : G}
    (h : t.stage = .ready) (hf : t.frames = f :: rest) (hm : f.mark = .clear ∨ f.mark = .shielded)
    (ha : s.ask (.resume f.generator (.deliver f.result))
      (env.resume f.generator (.deliver f.result)) = ((signal, g), s₁)) :
    env.turn registry (t, s) = (Task.resumed
      { t with frames := { f with result := .ok .null } :: rest, stage := .resuming } signal g,
        s₁) := by
  have hp : (f.mark == .pending) = false := by rcases hm with hm | hm <;> rw [hm] <;> rfl
  simp only [Surroundings.turn, Task.step, h, hf, Task.resumeTop, hp, Bool.false_eq_true, if_false,
    ha]

theorem turn_conclude (h : Seated seat p t.frames) {r : Outcome}
    (hr : ∀ v, r = .ok v → t.current = r) :
    env.turn registry (t.become (.dispatched (Task.verdict r) p), s) =
      (t.handDown r (seat.onto t.frames), s) := by
  rw [turn_dispatched rfl]
  obtain ⟨id, canceled, frames, root, stage⟩ := t
  cases h with
  | outside =>
    cases r with
    | ok v =>
      obtain rfl : root = .ok v := hr v rfl
      rfl
    | error e => rfl
  | running f rest running =>
    rw [Seat.onto, setHeld_heldOf, Task.handDown_running (by exact running)]
    cases r with
    | ok v =>
      have : f.result = .ok v := hr v rfl
      simp [Task.verdict, Task.conclude, Task.become, ← this]
    | error e => rfl
  | completed f rest prior done =>
    rw [Seat.onto, setHeld_heldOf, Task.handDown_completed (by exact done)]
    simp [Task.conclude, Task.become, atLevel]

theorem turn_pushed (h : Seated seat p t.frames) (rested : t.current = .ok .null) {g : G}
    {name : String} {slot : Option (HandlerSlot M)} :
    env.turn registry (t.push g name slot p, s) =
      ({ t with
        frames := t.newFrame g name slot p :: seat.onto t.frames
        stage := .ready }, s) := by
  rw [turn_dispatched rfl]
  obtain ⟨id, canceled, frames, root, stage⟩ := t
  cases h with
  | outside => rfl
  | running f rest running =>
    have due : f.result = .ok .null := rested
    have same : { f with result := .ok .null } = f := by rw [← due]
    rw [Seat.onto, setHeld_heldOf, Option.getD_none]
    simp only [same]
    rfl
  | completed f rest prior done =>
    rw [Seat.onto, setHeld_heldOf]
    simp [Task.conclude, Task.push, Task.newFrame, atLevel, Frame.afterDefer]

end Turns

theorem Direct.bind_eq_some {α β : Type} {x : Direct σ G F M α} {f : α → Direct σ G F M β}
    {s : Scene σ G F M} {b : β × Scene σ G F M} (h : (x >>= f) s = some b) :
    ∃ a s₁, x s = some (a, s₁) ∧ f a s₁ = some b := by
  obtain ⟨⟨a, s₁⟩, ha, hb⟩ := Option.bind_eq_some_iff.1 h
  exact ⟨a, s₁, ha, hb⟩

theorem Direct.ask_bind {α β : Type} {request : Request G F M} {act : σ → α × σ}
    {f : α → Direct σ G F M β} {s : Scene σ G F M} {b : β × Scene σ G F M}
    (h : (Direct.ask request act >>= f) s = some b) :
    ∃ a s₁, s.ask request act = (a, s₁) ∧ f a s₁ = some b := ⟨_, _, rfl, h⟩

section Simulation

variable [Named G] {env : Surroundings σ G F M} {registry : Registry M}

/-- What direct recursion does in `n` steps a task does on its stack. -/
structure Simulates (env : Surroundings σ G F M) (registry : Registry M) (n : Nat) : Prop where
  evaluate {seat seat' : Seat G F M} {y : Yielded G F} {s s' : Scene σ G F M} {r : Outcome}
    (h : Direct.evaluate env registry n seat y s = some ((r, seat'), s')) :
    seat.Alike seat' ∧ ∀ t p, t.stage = .dispatching y seat.slot p → Posed seat p t →
      Reaches env registry (t, s) (t.handDown r (seat'.onto t.frames), s')
  offer {seat seat' : Seat G F M} {op : Operation G F} {slot : HandlerSlot M}
    {s s' : Scene σ G F M} {r : Outcome}
    (h : Direct.offer env registry n seat op slot s = some ((r, seat'), s')) :
    seat.Alike seat' ∧ ∀ t p, t.stage = .offering op slot seat.slot p → Posed seat p t →
      Reaches env registry (t, s) (t.handDown r (seat'.onto t.frames), s')
  builtIn {seat seat' : Seat G F M} {op : Operation G F} {s s' : Scene σ G F M} {r : Outcome}
    (h : Direct.builtIn env registry n seat op s = some ((r, seat'), s')) :
    seat.Alike seat' ∧ ∀ t p slot, t.stage = .offering op slot seat.slot p →
      slot.handler? = none → Posed seat p t →
      Reaches env registry (t, s) (t.handDown r (seat'.onto t.frames), s')
  child {seat seat' : Seat G F M} {g : G} {slot : Option (HandlerSlot M)} {s s' : Scene σ G F M}
    {r : Outcome} (h : Direct.child env registry n seat g slot s = some ((r, seat'), s')) :
    seat.Alike seat' ∧ ∀ t p name, Posed seat p t →
      Reaches env registry (t.push g name slot p, s) (t.handDown r (seat'.onto t.frames), s')
  proceed {seat : Seat G F M} {g : G} {due r : Outcome} {s s' : Scene σ G F M}
    {below : Option Outcome}
    (h : Direct.proceed env registry n seat g due s = some ((r, below), s')) :
    below.isSome = seat.below.isSome ∧ ∀ t f rest, t.stage = .ready → t.frames = f :: rest →
      Seated seat .yielded (f :: rest) → f.generator = g → f.result = due →
      t.canceled = false → Calm (f :: rest) →
      Reaches env registry (t, s) (t.handDown r (setHeld below rest), s')
  finish {seat : Seat G F M} {held r : Outcome} {s s' : Scene σ G F M} {below : Option Outcome}
    (h : Direct.finish env registry n seat held s = some ((r, below), s')) :
    below.isSome = seat.below.isSome ∧ ∀ t f rest, t.stage = .unwinding → t.frames = f :: rest →
      Seated { seat with own := some held } (.deferred (rest.length + 1) held) (f :: rest) →
      f.result = held → t.canceled = false → Calm (f :: rest) →
      Reaches env registry (t, s) (t.handDown r (setHeld below rest), s')

theorem simulates_zero : Simulates env registry 0 where
  evaluate h := by cases h
  offer h := by cases h
  builtIn h := by cases h
  child h := by cases h
  proceed h := by cases h
  finish h := by cases h

variable {n : Nat} {seat seat' : Seat G F M} {s s' : Scene σ G F M} {r : Outcome}

theorem lands_error {t : Task G F M} {p : Purpose} (posed : Posed seat p t) (e : Error) :
    Reaches env registry (t.become (.dispatched (.error e) p), s)
      (t.handDown (.error e) (seat.onto t.frames), s) := by
  exact .head (turn_conclude posed.seated (r := .error e) fun _ h => nomatch h) .refl

theorem lands_setCurrent {t : Task G F M} {p : Purpose} (posed : Posed seat p t) (v : Value) :
    Reaches env registry ((t.setCurrent (.ok v)).become (.dispatched (.ok ()) p), s)
      (t.handDown (.ok v) (seat.onto t.frames), s) := by
  have seated := posed.seated
  rcases hf : t.frames with _ | ⟨f, rest⟩ <;> rw [hf] at seated
  · rw [Task.setCurrent_nil hf]
    have seated : Seated seat p { t with root := .ok v }.frames := by rw [hf]; exact seated
    refine .head (turn_conclude seated (r := .ok v) fun _ _ => by simp [Task.current, hf]) ?_
    rw [hf]
    exact .refl
  · rw [Task.setCurrent_cons hf]
    exact .head (turn_conclude (t := { t with frames := { f with result := .ok v } :: rest })
      (r := .ok v) (seated.due _) fun _ _ => rfl) .refl

theorem lands_defer {t : Task G F M} {p : Purpose} (posed : Posed seat p t) {f : Frame G F M}
    {rest : List (Frame G F M)} (hf : t.frames = f :: rest) (op : Operation G F) :
    Reaches env registry ({ t with
      frames := { f with defers := op :: f.defers } :: rest
      stage := .dispatched (.ok ()) p }, s)
      (t.handDown (.ok .null) ({ seat with defers := op :: seat.defers }.onto t.frames), s) := by
  have seated := posed.seated
  rw [hf] at seated
  have rested : f.result = .ok .null := by simpa [Task.current, hf] using posed.rested
  have seated' : Seated { seat with defers := op :: seat.defers } p
      ({ f with defers := op :: f.defers } :: rest) := by
    have := seated.defers (op :: f.defers) f.result
    rwa [← seated.defers_eq] at this ⊢
  refine .head (turn_conclude (r := .ok .null)
    (t := { t with frames := { f with defers := op :: f.defers } :: rest })
    seated' fun _ _ => rested) ?_
  rw [Task.handDown_with, hf]
  exact .refl

theorem lands_rested {t : Task G F M} {p : Purpose} (posed : Posed seat p t) :
    Reaches env registry (t.become (.dispatched (.ok ()) p), s)
      (t.handDown (.ok .null) (seat.onto t.frames), s) := by
  exact .head (turn_conclude posed.seated (r := .ok .null) fun _ _ => posed.rested) .refl

theorem lands_recover {t : Task G F M} {p : Purpose} (posed : Posed seat p t) {e : Error}
    (hb : seat.below = some (.error e)) :
    Reaches env registry (t.recover.become (.dispatched (.ok ()) p), s)
      (t.handDown (.ok (.error e)) ({ seat with below := some (.ok .null) }.onto t.frames), s) := by
  have seated := posed.seated
  have held := seated.below_tail
  rcases hf : t.frames with _ | ⟨f, rest⟩
  · rw [hb, hf] at held; cases held
  · rw [hf] at seated held
    rw [Task.recover_eq_of_held hf (held.symm.trans hb)]
    refine .head (turn_conclude (r := .ok (.error e))
      (t := { t with
        frames := { f with result := .ok (.error e) } :: setHeld (some (.ok .null)) rest })
      (seated.alter (by rw [hb]; rfl) _) fun _ _ => rfl) ?_
    simp only [Task.handDown_with, Seat.onto, setHeld_setHeld]
    exact .refl

theorem simulates_offered (ih : Simulates env registry n) {op : Operation G F}
    (h : Direct.offer env registry n seat op ⟨op.kind, registry.handlers op.kind, 0⟩ s =
      some ((r, seat'), s'))
    (hd : ∀ (t : Task G F M) origin p, t.dispatch registry (.operation op) origin p =
      t.become (.offering op ⟨op.kind, registry.handlers op.kind, 0⟩ origin p)) :
    seat.Alike seat' ∧ ∀ t p, t.stage = .dispatching (.operation op) seat.slot p →
      Posed seat p t → Reaches env registry (t, s) (t.handDown r (seat'.onto t.frames), s') := by
  obtain ⟨alike, reaches⟩ := ih.offer h
  refine ⟨alike, fun t p ht posed => .head (turn_dispatching ht) ?_⟩
  rw [hd]
  simpa using reaches _ p rfl (posed.become _)

theorem simulates_evaluate (ih : Simulates env registry n) {y : Yielded G F}
    (h : Direct.evaluate env registry (n + 1) seat y s = some ((r, seat'), s')) :
    seat.Alike seat' ∧ ∀ t p, t.stage = .dispatching y seat.slot p → Posed seat p t →
      Reaches env registry (t, s) (t.handDown r (seat'.onto t.frames), s') := by
  cases y with
  | generator g =>
    simp only [Direct.evaluate] at h
    split at h
    · rename_i hc
      obtain ⟨alike, reaches⟩ := ih.evaluate h
      refine ⟨alike, fun t p ht posed => .head (turn_dispatching ht) ?_⟩
      rw [Task.dispatch, if_pos hc]
      simpa using reaches _ p rfl (posed.become _)
    · rename_i hc
      obtain ⟨alike, reaches⟩ := ih.child h
      refine ⟨alike, fun t p ht posed => .head (turn_dispatching ht) ?_⟩
      rw [Task.dispatch, if_neg hc]
      exact reaches t p _ posed
  | operation op =>
    cases op with
    | next inner =>
      simp only [Direct.evaluate] at h
      rcases hs : seat.slot with _ | slot <;> simp only [hs] at h
      · cases h
        refine ⟨.refl seat, fun t p ht posed => .head (turn_dispatching ht) ?_⟩
        exact lands_error posed _
      · split at h
        · rename_i hk
          obtain ⟨alike, reaches⟩ := ih.offer h
          refine ⟨alike, fun t p ht posed => .head (turn_dispatching ht) ?_⟩
          simp only [Task.dispatch, if_pos hk]
          simpa using reaches (t.become _) p (by rw [hs]; rfl) (posed.become _)
        · rename_i hk
          cases h
          refine ⟨.refl seat, fun t p ht posed => .head (turn_dispatching ht) ?_⟩
          simp only [Task.dispatch, if_neg hk]
          exact lands_error posed _
    | _ => exact simulates_offered ih h fun _ _ _ => rfl

theorem simulates_offer (ih : Simulates env registry n) {op : Operation G F} {slot : HandlerSlot M}
    (h : Direct.offer env registry (n + 1) seat op slot s = some ((r, seat'), s')) :
    seat.Alike seat' ∧ ∀ t p, t.stage = .offering op slot seat.slot p → Posed seat p t →
      Reaches env registry (t, s) (t.handDown r (seat'.onto t.frames), s') := by
  simp only [Direct.offer] at h
  rcases hm : slot.handler? with _ | m <;> simp only [hm] at h
  · obtain ⟨alike, reaches⟩ := ih.builtIn h
    exact ⟨alike, fun t p ht posed => reaches t p slot ht hm posed⟩
  · obtain ⟨accepts, s₁, ha, h⟩ := Direct.ask_bind h
    cases accepts with
    | false =>
      obtain ⟨alike, reaches⟩ := ih.offer h
      refine ⟨alike, fun t p ht posed => .head (turn_filter ht hm ha) ?_⟩
      simp only [Task.filtered, ht]
      simpa using reaches (t.become _) p rfl (posed.become _)
    | true =>
      obtain ⟨result, s₂, hb, h⟩ := Direct.ask_bind h
      have handling {t : Task G F M} {p : Purpose} (ht : t.stage = .offering op slot seat.slot p)
          (h : Reaches env registry ((t.become (.handling op slot p)).handled result, s₂)
            (t.handDown r (seat'.onto t.frames), s')) :
          Reaches env registry (t, s) (t.handDown r (seat'.onto t.frames), s') := by
        refine .head (turn_filter ht hm ha) ?_
        simp only [Task.filtered, ht, if_true]
        exact .head (turn_handle rfl hm hb) h
      cases result with
      | ok g =>
        obtain ⟨alike, reaches⟩ := ih.child h
        exact ⟨alike, fun t p ht posed => handling ht (reaches t p _ posed)⟩
      | error e =>
        cases h
        exact ⟨.refl seat, fun t p ht posed => handling ht (lands_error posed e)⟩

theorem simulates_builtIn (ih : Simulates env registry n) {op : Operation G F}
    (h : Direct.builtIn env registry (n + 1) seat op s = some ((r, seat'), s')) :
    seat.Alike seat' ∧ ∀ t p slot, t.stage = .offering op slot seat.slot p →
      slot.handler? = none → Posed seat p t →
      Reaches env registry (t, s) (t.handDown r (seat'.onto t.frames), s') := by
  cases op with
  | call func args =>
    obtain ⟨result, s₁, ha, h⟩ := Direct.ask_bind h
    cases result with
    | ok g =>
      obtain ⟨alike, reaches⟩ := ih.child h
      exact ⟨alike, fun t p slot ht hm posed =>
        .head (turn_invoke ht hm ha) (reaches t p _ posed)⟩
    | error e =>
      cases h
      exact ⟨.refl seat, fun t p slot ht hm posed =>
        .head (turn_invoke ht hm ha) (lands_error posed e)⟩
  | execute g =>
    obtain ⟨alike, reaches⟩ := ih.child h
    exact ⟨alike, fun t p slot ht hm posed => .head (turn_core ht hm rfl) (reaches t p _ posed)⟩
  | start inner =>
    obtain ⟨alike, reaches⟩ := ih.evaluate h
    refine ⟨alike, fun t p slot ht hm posed => .head (turn_core ht hm rfl) ?_⟩
    simpa using reaches (t.become _) p rfl (posed.become _)
  | terminal inner => cases h
  | next inner | custom kind payload =>
    cases h
    exact ⟨.refl seat, fun t p slot ht hm posed =>
      .head (turn_core ht hm rfl) (lands_error posed _)⟩
  | fork inner =>
    obtain ⟨child, s₁, ha, h⟩ := Direct.ask_bind h
    cases h
    refine ⟨.refl seat, fun t p slot ht hm posed => .head (turn_fork ht hm ha) ?_⟩
    rw [← Task.handDown_become t (.forking p)]
    exact lands_setCurrent (posed.become (.forking p)) (.task child)
  | defer inner =>
    simp only [Direct.builtIn] at h
    split at h <;> cases h
    · rename_i hi
      refine ⟨⟨rfl, rfl, rfl, rfl⟩, fun t p slot ht hm posed => ?_⟩
      obtain ⟨f, rest, hf⟩ := posed.seated.exists_frame hi
      exact .head (turn_core ht hm (by simp only [Task.core, hf])) (lands_defer posed hf inner)
    · rename_i hi
      refine ⟨.refl seat, fun t p slot ht hm posed => ?_⟩
      have hf := posed.seated.no_frame (by simpa using hi)
      refine .head (turn_core ht hm (by simp only [Task.core, hf])) (lands_error posed _)
  | recover =>
    have kept (h : (r, seat') = (.ok .null, seat) ∧ s' = s)
        (hb : ∀ e, seat.below ≠ some (.error e)) :
        seat.Alike seat' ∧ ∀ t p slot, t.stage = .offering .recover slot seat.slot p →
          slot.handler? = none → Posed seat p t →
          Reaches env registry (t, s) (t.handDown r (seat'.onto t.frames), s') := by
      obtain ⟨hr, rfl⟩ := h
      cases hr
      refine ⟨.refl seat, fun t p slot ht hm posed => .head (turn_core ht hm rfl) ?_⟩
      rw [posed.seated.below_tail] at hb
      rw [Task.recover_eq_self hb]
      exact lands_rested posed
    rcases hb : seat.below with _ | e | v <;> simp only [Direct.builtIn, hb] at h <;> cases h
    · exact kept ⟨rfl, rfl⟩ (by simp [hb])
    · refine ⟨⟨rfl, rfl, rfl, by rw [hb]; rfl⟩, fun t p slot ht hm posed => ?_⟩
      exact .head (turn_core ht hm rfl) (lands_recover posed hb)
    · exact kept ⟨rfl, rfl⟩ (by simp [hb])

theorem simulates_child (ih : Simulates env registry n) {g : G} {slot : Option (HandlerSlot M)}
    (h : Direct.child env registry (n + 1) seat g slot s = some ((r, seat'), s')) :
    seat.Alike seat' ∧ ∀ t p name, Posed seat p t →
      Reaches env registry (t.push g name slot p, s) (t.handDown r (seat'.onto t.frames), s') := by
  obtain ⟨⟨outcome, own⟩, s₁, hp, h⟩ := Direct.bind_eq_some h
  cases h
  obtain ⟨ho, reaches⟩ := ih.proceed hp
  refine ⟨⟨rfl, rfl, ho, rfl⟩,
    fun t p name posed => .head (turn_pushed posed.seated posed.rested) ?_⟩
  have calm : Calm (t.newFrame g name slot p :: seat.onto t.frames) := by
    refine List.forall_mem_cons.2 ⟨?_, posed.calm.onto seat⟩
    rw [Task.newFrame, posed.uncanceled]
    exact posed.calm.pushed
  have seated := Seated.running (t.newFrame g name slot p) (seat.onto t.frames) rfl
  rw [posed.seated.heldOf_onto] at seated
  have := reaches
    { t with frames := t.newFrame g name slot p :: seat.onto t.frames, stage := .ready } _ _ rfl rfl
    seated rfl rfl posed.uncanceled calm
  rwa [Task.handDown_with, posed.seated.setHeld_onto ho] at this

theorem simulates_proceed (ih : Simulates env registry n) {g : G} {due : Outcome}
    {below : Option Outcome}
    (h : Direct.proceed env registry (n + 1) seat g due s = some ((r, below), s')) :
    below.isSome = seat.below.isSome ∧ ∀ t f rest, t.stage = .ready → t.frames = f :: rest →
      Seated seat .yielded (f :: rest) → f.generator = g → f.result = due →
      t.canceled = false → Calm (f :: rest) →
      Reaches env registry (t, s) (t.handDown r (setHeld below rest), s') := by
  obtain ⟨⟨signal, g'⟩, s₁, ha, h⟩ := Direct.ask_bind h
  cases signal with
  | yielded y =>
    obtain ⟨⟨due', seat₁⟩, s₂, he, h⟩ := Direct.bind_eq_some h
    obtain ⟨alike, evaluates⟩ := ih.evaluate he
    obtain ⟨hb, proceeds⟩ := ih.proceed h
    refine ⟨hb.trans alike.below, fun t f rest ht hf seated hg hd hc calm => ?_⟩
    subst hg hd
    refine .head (turn_ready ht hf calm.top ha) ?_
    rw [Task.resumed_yielded (by exact calm.top)]
    have posed : Posed seat .yielded { t with
        frames := { f with generator := g', result := .ok .null } :: rest
        stage := .dispatching y f.slot .yielded } :=
      ⟨(seated.due (.ok .null)).generator g', hc, calm.change (by rfl), rfl⟩
    refine .trans (evaluates _ _ (by rw [seated.slot_eq]) posed) ?_
    rw [Seat.onto, Task.handDown_running (by exact seated.not_completed)]
    have := proceeds { t with
        frames := { f with generator := g', defers := seat₁.defers, result := due' } ::
          setHeld seat₁.below rest
        stage := .ready } _ _ rfl rfl ((seated.generator g').running_onto alike due') rfl rfl hc
      (calm.alter (by rfl) _)
    rwa [Task.handDown_with, setHeld_setHeld hb] at this
  | complete outcome =>
    obtain ⟨hb, finishes⟩ := ih.finish h
    refine ⟨hb, fun t f rest ht hf seated hg hd hc calm => ?_⟩
    subst hg hd
    refine .head (turn_ready ht hf calm.top ha) ?_
    rw [Task.resumed_complete (by exact calm.top)]
    have := finishes { t with
        frames := { f with generator := g', result := outcome, completed := true } :: rest
        stage := .unwinding } _ _ rfl rfl (seated.complete g' outcome) rfl hc
      (calm.change (by rfl))
    rwa [Task.handDown_with] at this

theorem simulates_finish (ih : Simulates env registry n) {held : Outcome} {below : Option Outcome}
    (h : Direct.finish env registry (n + 1) seat held s = some ((r, below), s')) :
    below.isSome = seat.below.isSome ∧ ∀ t f rest, t.stage = .unwinding → t.frames = f :: rest →
      Seated { seat with own := some held } (.deferred (rest.length + 1) held) (f :: rest) →
      f.result = held → t.canceled = false → Calm (f :: rest) →
      Reaches env registry (t, s) (t.handDown r (setHeld below rest), s') := by
  rcases hd : seat.defers with _ | ⟨op, defers⟩ <;> simp only [Direct.finish, hd] at h
  · cases h
    refine ⟨rfl, fun t f rest ht hf seated hr hc calm => .head (turn_unwinding ht) ?_⟩
    have none : f.defers = [] := seated.defers_eq.symm
    have below : seat.below = heldOf rest := seated.below_eq
    simp only [Task.unwind, hf, none, below, setHeld_heldOf, hr]
    exact .refl
  · obtain ⟨⟨outcome, seat₁⟩, s₁, he, h⟩ := Direct.bind_eq_some h
    obtain ⟨alike, evaluates⟩ := ih.evaluate he
    obtain ⟨held₁, hown⟩ : ∃ held₁, seat₁.own = some held₁ := Option.isSome_iff_exists.1 alike.own
    have h : Direct.finish env registry n seat₁ (Frame.afterDefer held₁ (Task.verdict outcome)) s₁ =
        some ((r, below), s') := by
      simp only [hown, Option.getD_some] at h
      cases outcome <;> exact h
    obtain ⟨hb, finishes⟩ := ih.finish h
    refine ⟨hb.trans alike.below, fun t f rest ht hf seated hr hc calm => ?_⟩
    refine .head (turn_unwinding ht) ?_
    have registered : f.defers = op :: defers := seated.defers_eq.symm
    simp only [Task.unwind, hf, registered, List.length_cons, hr]
    have posed : Posed { seat with defers, own := some held } (.deferred (rest.length + 1) held)
        { t with
          frames := { f with defers, result := .ok .null } :: rest
          stage := .dispatching (.operation op) f.slot (.deferred (rest.length + 1) held) } :=
      ⟨seated.defers defers _, hc, calm.change (by rfl), rfl⟩
    have slot : f.slot = seat.slot := seated.slot_eq.symm
    refine .trans (evaluates _ _ (by rw [slot]) posed) ?_
    rw [Seat.onto, Task.handDown_completed (by exact seated.is_completed)]
    have := finishes { t with
        frames := { f with
          defers := seat₁.defers
          result := Frame.afterDefer held₁ (Task.verdict outcome) } :: setHeld seat₁.below rest
        stage := .unwinding } _ _ rfl rfl (posed.seated.completed_onto alike _ _) rfl hc
      (calm.alter (by rfl) _)
    rw [Task.handDown_with, setHeld_setHeld hb] at this
    simpa only [hown, Option.getD_some] using this

theorem simulates (n : Nat) : Simulates env registry n := by
  induction n with
  | zero => exact simulates_zero
  | succ n ih =>
    exact
      { evaluate := simulates_evaluate ih
        offer := simulates_offer ih
        builtIn := simulates_builtIn ih
        child := simulates_child ih
        proceed := simulates_proceed ih
        finish := simulates_finish ih }

theorem turn_settled {t : Task G F M} (h : t.stage = .settled r) :
    env.turn registry (t, s) = (t, s) := by
  simp only [Surroundings.turn, Task.step, h]

/-- Whenever direct recursion finishes, the task settles with the same outcome, having asked the
same of its surroundings in the same order, and asks nothing more. -/
theorem settles_as_direct (env : Surroundings σ G F M) (registry : Registry M) (id : TaskId)
    (root : Yielded G F) (state : σ) (n : Nat) (r : Outcome) (scene : Scene σ G F M)
    (h : Direct.run env registry n root state = some (r, scene)) :
    ∃ k t, t.stage = .settled r ∧ t.frames = [] ∧
      ∀ m, (env.turn registry)^[k + m] (.fresh id root, ⟨state, []⟩) = (t, scene) := by
  obtain ⟨⟨⟨r', seat'⟩, scene'⟩, he, hr⟩ := Option.map_eq_some_iff.1 h
  cases hr
  let begun : Task G F M := (Task.fresh id root).become (.dispatching root none .yielded)
  have posed : Posed .outside .yielded begun := ⟨.outside, rfl, nofun, rfl⟩
  have first : Reaches env registry (.fresh id root, ⟨state, []⟩) (begun, ⟨state, []⟩) :=
    .head rfl .refl
  have evaluated := ((simulates n).evaluate he).2 begun .yielded rfl posed
  have last : Reaches env registry (begun.handDown r [], scene)
      (⟨id, false, [], r, .settled r⟩, scene) := .head rfl .refl
  obtain ⟨k, hk⟩ := first.trans (evaluated.trans last)
  refine ⟨k, ⟨id, false, [], r, .settled r⟩, rfl, rfl, fun m => ?_⟩
  rw [Nat.add_comm, Function.iterate_add_apply, hk]
  exact Function.iterate_fixed (turn_settled rfl) m

structure Cursor where
  func : Nat
  place : Nat

instance : Named Cursor := ⟨fun c => toString c.func⟩

/-- A function that defers the recovery of errors and calls another one, which asks a middleware for
something that nobody knows. -/
def recovering : Surroundings Unit Cursor Nat Unit where
  resume c input _ :=
    match c with
    | ⟨0, 0⟩ => ((.yielded (.operation (.defer (.call 1 []))), ⟨0, 1⟩), ())
    | ⟨0, 1⟩ => ((.yielded (.operation (.call 2 [])), ⟨0, 2⟩), ())
    | ⟨1, 0⟩ => ((.yielded (.operation .recover), ⟨1, 1⟩), ())
    | ⟨2, 0⟩ => ((.yielded (.operation (.custom "ask" .null)), ⟨2, 1⟩), ())
    | ⟨3, 0⟩ => ((.yielded (.operation (.next (.custom "ask" .null))), ⟨3, 1⟩), ())
    | c => ((.complete input.outcome, c), ())
  filter _ _ _ := (true, ())
  handle _ _ _ := (.ok ⟨3, 0⟩, ())
  invoke func _ _ := (.ok ⟨func, 0⟩, ())
  fork _ _ := (default, ())

theorem settles_as_direct_recovering :
    let registry : Registry Unit := ⟨[⟨"ask", ()⟩]⟩
    let root : Yielded Cursor Nat := .generator ⟨0, 0⟩
    ∃ scene, Direct.run recovering registry 20 root () = some (.ok .null, scene) ∧
      scene.actions.length = 13 ∧
      ∃ k t, t.stage = .settled (.ok .null) ∧ t.frames = [] ∧
        ∀ m, (recovering.turn registry)^[k + m] (.fresh default root, ⟨(), []⟩) = (t, scene) :=
  ⟨_, rfl, rfl, settles_as_direct recovering _ default _ () 20 _ _ rfl⟩

end Simulation

end EffectEngine
