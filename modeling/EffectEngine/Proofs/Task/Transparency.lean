import EffectEngine.Proofs.Task.Refinement
import Mathlib.Data.Option.Defs

/-!
# An observer among the handlers of calls

An `Observer` is a middleware for calls that only delegates. `Follows` compares a task with what
becomes of it in an engine with an observer more: the stack of the second is that of the first with
waiting frames of the observer in between (`Watched`). Whatever the first task does in one turn the
second does in some turns, unless it is `Disturbed`: about to do something on the current frame, or
on the one below it, where that frame is one of the observer's.
-/

namespace EffectEngine

variable {σ G F M : Type}

/-- A middleware that only delegates, with its generators, and the registrations around it. -/
structure Observer (G F M : Type) where
  middleware : M
  created : Operation G F → G
  /-- The generator once it has delegated an operation. -/
  waiting : Operation G F → G
  finished : G
  before : List (Registration M)
  after : List (Registration M)

section Surroundings

variable (Same : σ → σ → Prop)

/-- Actions that give the same answer in states that are the same, and keep them so. -/
def Matching {α : Type} (act act' : σ → α × σ) : Prop :=
  ∀ s s', Same s s' → (act' s').1 = (act s).1 ∧ Same (act s).2 (act' s').2

/-- An action with a fixed answer that makes no difference. -/
def Unseen {α : Type} (act : σ → α × σ) (a : α) : Prop :=
  ∀ s s', Same s s' → (act s').1 = a ∧ Same s (act s').2

/-- Generators, functions and middleware answer the same in two engines. What a generator does until
it answers may involve other tasks, so they are given for each of the two. -/
structure Surroundings.Matches (env env' : Surroundings σ G F M) : Prop where
  resume : ∀ g input, Matching Same (env.resume g input) (env'.resume g input)
  filter : ∀ m op, Matching Same (env.filter m op) (env'.filter m op)
  handle : ∀ m op, Matching Same (env.handle m op) (env'.handle m op)
  invoke : ∀ func args, Matching Same (env.invoke func args) (env'.invoke func args)
  fork : ∀ root, Matching Same (env.fork root) (env'.fork root)

/-- An observer accepts every operation, delegates it and hands on what comes back. -/
structure Observer.Delegates (v : Observer G F M) (env : Surroundings σ G F M) : Prop where
  filter : ∀ op, Unseen Same (env.filter v.middleware op) true
  handle : ∀ op, Unseen Same (env.handle v.middleware op) (.ok (v.created op))
  start : ∀ op value, Unseen Same (env.resume (v.created op) (.next value))
    (.yielded (.operation (.next op)), v.waiting op)
  proceed : ∀ op outcome, Unseen Same (env.resume (v.waiting op) (.deliver outcome))
    (.complete outcome, v.finished)

end Surroundings

/-- A list with further elements in between. -/
inductive Interspersed {α : Type} (Own : α → Prop) : List α → List α → Prop
  | nil : Interspersed Own [] []
  | both {l l' : List α} (a : α) (h : Interspersed Own l l') :
    Interspersed Own (l ++ [a]) (l' ++ [a])
  | own {l l' : List α} {a : α} (h : Interspersed Own l l') (own : Own a) :
    Interspersed Own l (l' ++ [a])

namespace Observer

variable (v : Observer G F M)

def plain : Registry M := ⟨v.before ++ v.after⟩

def watched : Registry M := ⟨v.before ++ ⟨callKind, v.middleware⟩ :: v.after⟩

/-- The handlers of calls ahead of the observer. -/
def ahead : List M := (Registry.mk v.before).handlers callKind

def behind : List M := (Registry.mk v.after).handlers callKind

/-- The place of the observer in the chain of calls. -/
def place : HandlerSlot M := ⟨callKind, v.ahead ++ v.middleware :: v.behind, v.ahead.length⟩

/-- The same place without the observer. -/
def gap : HandlerSlot M := ⟨callKind, v.ahead ++ v.behind, v.ahead.length⟩

/-- What is asked of the observer. -/
inductive Own : Request G F M → Prop
  | filter (op : Operation G F) : Own (.filter v.middleware op)
  | handle (op : Operation G F) : Own (.handle v.middleware op)
  | start (op : Operation G F) : Own (.resume (v.created op) (.next .null))
  | proceed (op : Operation G F) (outcome : Outcome) :
    Own (.resume (v.waiting op) (.deliver outcome))

/-- All that was asked without the observer was asked with it, in the same order and with the same
effect, and nothing else but what concerns the observer. -/
structure Alongside (Same : σ → σ → Prop) (s s' : Scene σ G F M) : Prop where
  state : Same s.state s'.state
  actions : Interspersed v.Own s.actions s'.actions

/-- Two places with the same handler and the same handlers behind, apart from the observer. -/
inductive Lines : HandlerSlot M → HandlerSlot M → Prop
  | other (slot : HandlerSlot M) (other : slot.kind ≠ callKind) : Lines slot slot
  | ahead (i : Nat) (bound : i < v.ahead.length) :
    Lines ⟨callKind, v.ahead ++ v.behind, i⟩ ⟨callKind, v.ahead ++ v.middleware :: v.behind, i⟩
  | behind (i : Nat) (bound : v.ahead.length ≤ i) :
    Lines ⟨callKind, v.ahead ++ v.behind, i⟩ ⟨callKind, v.ahead ++ v.middleware :: v.behind, i + 1⟩

/-- Two frames differ at most in the places they serve. -/
structure Mirrors (f f' : Frame G F M) : Prop where
  generator : f'.generator = f.generator
  name : f'.name = f.name
  result : f'.result = f.result
  defers : f'.defers = f.defers
  completed : f'.completed = f.completed
  slot : Option.Rel v.Lines f.slot f'.slot
  calm : f.mark = .clear ∨ f.mark = .shielded
  calm' : f'.mark = .clear ∨ f'.mark = .shielded

/-- A frame of the observer that has delegated an operation. -/
structure Waits (o : Frame G F M) : Prop where
  generator : ∃ op, o.generator = v.waiting op
  running : o.completed = false
  defers : o.defers = []
  slot : o.slot = some v.place
  calm : o.mark = .clear ∨ o.mark = .shielded

/-- A stack with waiting frames of the observer in between. -/
inductive Watched : List (Frame G F M) → List (Frame G F M) → Prop
  | nil : Watched [] []
  | frame {f f' : Frame G F M} {fs fs' : List (Frame G F M)} (mirrors : v.Mirrors f f')
    (rest : Watched fs fs') : Watched (f :: fs) (f' :: fs')
  | observer {o : Frame G F M} {fs fs' : List (Frame G F M)} (waits : v.Waits o)
    (idle : o.result = .ok .null) (rest : Watched fs fs') : Watched fs (o :: fs')

/-- The observer's frames are not on top. -/
inductive Level : List (Frame G F M) → List (Frame G F M) → Prop
  | nil : Level [] []
  | frame {f f' : Frame G F M} {fs fs' : List (Frame G F M)} (mirrors : v.Mirrors f f')
    (rest : v.Watched fs fs') : Level (f :: fs) (f' :: fs')

/-- The stacks and purposes of a dispatch. -/
inductive Seats : List (Frame G F M) → List (Frame G F M) → Purpose → Purpose → Prop
  | yielded {fs fs' : List (Frame G F M)} (watched : v.Watched fs fs') :
    Seats fs fs' .yielded .yielded
  | deferred {f f' : Frame G F M} {fs fs' : List (Frame G F M)} (prior : Outcome)
    (done : f.completed = true) (mirrors : v.Mirrors f f') (rest : v.Watched fs fs') :
    Seats (f :: fs) (f' :: fs') (.deferred (fs.length + 1) prior) (.deferred (fs'.length + 1) prior)

/-- The stacks and purposes of the dispatch of a call, which the observer may have delegated. -/
inductive Handed : List (Frame G F M) → List (Frame G F M) → Purpose → Purpose → Prop
  | seats {fs fs' : List (Frame G F M)} {p p' : Purpose} (seats : v.Seats fs fs' p p') :
    Handed fs fs' p p'
  | deferred {f o : Frame G F M} {fs fs' : List (Frame G F M)} (prior : Outcome)
    (done : f.completed = true) (waits : v.Waits o) (idle : o.result = .ok .null)
    (rest : v.Watched ({ f with result := prior } :: fs) fs') :
    Handed (f :: fs) (o :: fs') (.deferred (fs.length + 1) prior) .yielded

end Observer

/-- No running frame is due a result. -/
def Idle (frames : List (Frame G F M)) : Prop :=
  ∀ f ∈ frames, f.completed = false → f.result = .ok .null

namespace Observer

variable (v : Observer G F M)

/-- A task and what becomes of it with the observer. -/
inductive Follows (id : TaskId) : Task G F M → Task G F M → Prop
  | fresh (root : Yielded G F) : Follows id (.fresh id root) (.fresh id root)
  | ready {fs fs' : List (Frame G F M)} {root : Outcome} (level : v.Level fs fs')
    (idle : Idle fs.tail) (unset : fs ≠ [] → root = .ok .null) :
    Follows id ⟨id, false, fs, root, .ready⟩ ⟨id, false, fs', root, .ready⟩
  | dispatching {fs fs' : List (Frame G F M)} (y : Yielded G F)
    {origin origin' : Option (HandlerSlot M)} {p p' : Purpose} (idle : Idle fs)
    (origins : Option.Rel v.Lines origin origin') (seats : v.Seats fs fs' p p') :
    Follows id ⟨id, false, fs, .ok .null, .dispatching y origin p⟩
      ⟨id, false, fs', .ok .null, .dispatching y origin' p'⟩
  | offering {fs fs' : List (Frame G F M)} (op : Operation G F) (slot : HandlerSlot M)
    {origin origin' : Option (HandlerSlot M)} {p p' : Purpose} (idle : Idle fs)
    (kind : slot.kind = op.kind) (other : op.kind ≠ callKind)
    (origins : Option.Rel v.Lines origin origin') (seats : v.Seats fs fs' p p') :
    Follows id ⟨id, false, fs, .ok .null, .offering op slot origin p⟩
      ⟨id, false, fs', .ok .null, .offering op slot origin' p'⟩
  | offeringCall {fs fs' : List (Frame G F M)} (op : Operation G F) {slot slot' : HandlerSlot M}
    (origin origin' : Option (HandlerSlot M)) {p p' : Purpose} (idle : Idle fs)
    (kind : op.kind = callKind) (lines : v.Lines slot slot') (handed : v.Handed fs fs' p p') :
    Follows id ⟨id, false, fs, .ok .null, .offering op slot origin p⟩
      ⟨id, false, fs', .ok .null, .offering op slot' origin' p'⟩
  | handling {fs fs' : List (Frame G F M)} (op : Operation G F) {slot slot' : HandlerSlot M}
    {p p' : Purpose} (idle : Idle fs) (lines : v.Lines slot slot') (handed : v.Handed fs fs' p p') :
    Follows id ⟨id, false, fs, .ok .null, .handling op slot p⟩
      ⟨id, false, fs', .ok .null, .handling op slot' p'⟩
  | replacing {f f' : Frame G F M} {fs fs' : List (Frame G F M)} (inner : Operation G F)
    {origin origin' : Option (HandlerSlot M)} (mirrors : v.Mirrors f f') (idle : Idle fs)
    (origins : Option.Rel v.Lines origin origin') (watched : v.Watched fs fs') :
    Follows id ⟨id, false, fs, .ok .null, .replacing f inner origin .yielded⟩
      ⟨id, false, fs', .ok .null, .replacing f' inner origin' .yielded⟩
  | retiring {f f' : Frame G F M} {fs fs' : List (Frame G F M)} (inner : Operation G F)
    {origin origin' : Option (HandlerSlot M)} (mirrors : v.Mirrors f f') (idle : Idle fs)
    (origins : Option.Rel v.Lines origin origin') (watched : v.Watched fs fs') :
    Follows id ⟨id, false, fs, .ok .null, .retiring f inner origin .yielded⟩
      ⟨id, false, fs', .ok .null, .retiring f' inner origin' .yielded⟩
  | reporting {fs fs' : List (Frame G F M)} (d : Diagnostic) (inner : Operation G F)
    {origin origin' : Option (HandlerSlot M)} (idle : Idle fs)
    (origins : Option.Rel v.Lines origin origin') (watched : v.Watched fs fs') :
    Follows id ⟨id, false, fs, .ok .null, .reporting d inner origin .yielded⟩
      ⟨id, false, fs', .ok .null, .reporting d inner origin' .yielded⟩
  /-- A dispatch has ended without a frame, above none of the observer's. -/
  | ended {fs fs' : List (Frame G F M)} {root : Outcome} (result : Except Error Unit)
    {p p' : Purpose} (level : v.Level fs fs') (idle : Idle fs.tail)
    (unset : fs ≠ [] → root = .ok .null) (seats : v.Seats fs fs' p p') :
    Follows id ⟨id, false, fs, root, .dispatched result p⟩
      ⟨id, false, fs', root, .dispatched result p'⟩
  /-- A dispatch has ended without a frame, on a frame of the observer that was bared when the one
  above it was replaced. -/
  | bared {fs fs' : List (Frame G F M)} {o : Frame G F M} (result : Except Error Unit)
    (stage : Stage G F M) (waits : v.Waits o) (idle : Idle fs.tail) (running : heldOf fs = none)
    (rest : v.Watched fs fs') :
    Follows id
      ((Task.setCurrent ⟨id, false, fs, .ok .null, stage⟩ o.result).become
        (.dispatched result .yielded))
      ⟨id, false, o :: fs', .ok .null, .dispatched result .yielded⟩
  | stranded {fs fs' : List (Frame G F M)} {o : Frame G F M} (result : Except Error Unit)
    (waits : v.Waits o) (done : (heldOf fs).isSome = true) (rest : v.Watched fs fs') :
    Follows id ⟨id, false, fs, .ok .null, .dispatched result .yielded⟩
      ⟨id, false, o :: fs', .ok .null, .dispatched result .yielded⟩
  /-- The dispatch of a call that the observer delegated has failed. -/
  | failed {f o : Frame G F M} {fs fs' : List (Frame G F M)} (e : Error) (prior : Outcome)
    (done : f.completed = true) (waits : v.Waits o) (idle : Idle fs)
    (rest : v.Watched ({ f with result := prior } :: fs) fs') :
    Follows id ⟨id, false, f :: fs, .ok .null, .dispatched (.error e) (.deferred (fs.length + 1) prior)⟩
      ⟨id, false, o :: fs', .ok .null, .dispatched (.error e) .yielded⟩
  | pushed {f f' : Frame G F M} {fs fs' : List (Frame G F M)} {p p' : Purpose}
    (mirrors : v.Mirrors f f') (idle : Idle fs) (handed : v.Handed fs fs' p p') :
    Follows id ⟨id, false, f :: fs, .ok .null, .dispatched (.ok ()) p⟩
      ⟨id, false, f' :: fs', .ok .null, .dispatched (.ok ()) p'⟩
  | unwinding {f f' : Frame G F M} {fs fs' : List (Frame G F M)} (done : f.completed = true)
    (mirrors : v.Mirrors f f') (idle : Idle fs) (rest : v.Watched fs fs') :
    Follows id ⟨id, false, f :: fs, .ok .null, .unwinding⟩
      ⟨id, false, f' :: fs', .ok .null, .unwinding⟩
  | settled {root : Outcome} (outcome : Outcome) :
    Follows id ⟨id, false, [], root, .settled outcome⟩ ⟨id, false, [], root, .settled outcome⟩

/-- Whether a frame is one of the observer's. -/
def isOwn (f : Frame G F M) : Bool :=
  match f.slot with
  | some slot => slot.kind == callKind && slot.index == v.ahead.length
  | none => false

/-- The stack below the frames of the observer that are on top. -/
def beneath (frames : List (Frame G F M)) : List (Frame G F M) := frames.dropWhile v.isOwn

/-- The next turn acts on a frame of the observer in place of the frame below it. -/
inductive Disturbed (t : Task G F M) : Prop
  /-- `recover` directly above the observer, which hides an error. -/
  | recoversAbove {slot : HandlerSlot M} {origin : Option (HandlerSlot M)} {p : Purpose}
    {f o : Frame G F M} {rest : List (Frame G F M)} {e : Error}
    (stage : t.stage = .offering .recover slot origin p) (unhandled : slot.handler? = none)
    (frames : t.frames = f :: o :: rest) (top : v.isOwn f = false) (own : v.isOwn o = true)
    (hidden : heldOf (v.beneath rest) = some (.error e))
  /-- `recover` on the observer, with an outcome below it or an error below the frame that called. -/
  | recoversOn {slot : HandlerSlot M} {origin : Option (HandlerSlot M)} {p : Purpose}
    {o : Frame G F M} {rest : List (Frame G F M)}
    (stage : t.stage = .offering .recover slot origin p) (unhandled : slot.handler? = none)
    (frames : t.frames = o :: rest) (own : v.isOwn o = true)
    (hidden : (heldOf (v.beneath rest)).isSome = true ∨
      ∃ e, heldOf (v.beneath (v.beneath rest).tail) = some (.error e))
  | defersOn {inner : Operation G F} {slot : HandlerSlot M} {origin : Option (HandlerSlot M)}
    {p : Purpose} {o : Frame G F M} {rest : List (Frame G F M)}
    (stage : t.stage = .offering (.defer inner) slot origin p) (unhandled : slot.handler? = none)
    (frames : t.frames = o :: rest) (own : v.isOwn o = true)
  | replaces {inner : Operation G F} {slot : HandlerSlot M} {origin : Option (HandlerSlot M)}
    {p : Purpose} {o : Frame G F M} {rest : List (Frame G F M)}
    (stage : t.stage = .offering (.terminal inner) slot origin p)
    (unhandled : slot.handler? = none) (accepted : inner.needsFrame = false)
    (frames : t.frames = o :: rest) (own : v.isOwn o = true)
  | forksOn {inner : Operation G F} {slot : HandlerSlot M} {origin : Option (HandlerSlot M)}
    {p : Purpose} {o : Frame G F M} {rest : List (Frame G F M)}
    (stage : t.stage = .offering (.fork inner) slot origin p) (unhandled : slot.handler? = none)
    (frames : t.frames = o :: rest) (own : v.isOwn o = true)
    (hidden : (heldOf (v.beneath rest)).isSome = true)
  /-- A dispatch has ended without a frame on the observer above a completed frame. -/
  | strands {result : Except Error Unit} {op : Operation G F} {o : Frame G F M}
    {rest : List (Frame G F M)} (stage : t.stage = .dispatched result .yielded)
    (frames : t.frames = o :: rest) (own : v.isOwn o = true)
    (waits : o.generator = v.waiting op) (hidden : (heldOf (v.beneath rest)).isSome = true)

/-- A check for what may disturb a task. -/
def disturbs (t : Task G F M) : Bool :=
  match t.stage, t.frames with
  | .offering op slot _ _, f :: rest =>
    slot.handler?.isNone &&
      match op with
      | .recover => v.isOwn f || rest.head?.any v.isOwn && (heldOf (v.beneath rest.tail)).isSome
      | .defer _ | .terminal _ | .fork _ => v.isOwn f
      | _ => false
  | .dispatched _ .yielded, o :: rest => v.isOwn o && (heldOf (v.beneath rest)).isSome
  | _, _ => false

variable {v} in
theorem Disturbed.disturbs {t : Task G F M} (h : v.Disturbed t) : v.disturbs t = true := by
  cases h with
  | recoversAbove stage unhandled frames top own hidden =>
    simp [Observer.disturbs, stage, unhandled, frames, own, hidden]
  | recoversOn stage unhandled frames own | defersOn stage unhandled frames own
  | replaces stage unhandled _ frames own | forksOn stage unhandled frames own =>
    simp [Observer.disturbs, stage, unhandled, frames, own]
  | strands stage frames own _ hidden => simp [Observer.disturbs, stage, frames, own, hidden]

end Observer

theorem Idle.setCurrent {id : TaskId} {fs : List (Frame G F M)} {stage : Stage G F M}
    (idle : Idle fs) (running : heldOf fs = none) :
    Task.setCurrent ⟨id, false, fs, .ok .null, stage⟩ (.ok .null) =
      ⟨id, false, fs, .ok .null, stage⟩ := by
  cases fs with
  | nil => rfl
  | cons f fs =>
    have running : f.completed = false := by
      by_contra done
      simp [heldOf, done] at running
    have due := idle f List.mem_cons_self running
    rw [Task.setCurrent_cons rfl]
    simp only [← due]

theorem Idle.restored {f : Frame G F M} {fs : List (Frame G F M)} (idle : Idle (f :: fs))
    (done : f.completed = true) {prior : Outcome} : Idle ({ f with result := prior } :: fs) := by
  refine List.forall_mem_cons.2 ⟨fun running => ?_, (List.forall_mem_cons.1 idle).2⟩
  rw [show f.completed = false from running] at done
  cases done

theorem Task.setCurrent_again (t : Task G F M) (stage : Stage G F M) (r r' : Outcome) :
    (((t.setCurrent r).become stage).setCurrent r').become .ready =
      (t.setCurrent r').become .ready := by
  obtain ⟨id, canceled, frames, root, _⟩ := t
  cases frames <;> rfl

theorem Task.setCurrent_handDown {id : TaskId} {fs : List (Frame G F M)} {stage : Stage G F M} (r : Outcome)
    (running : heldOf fs = none) :
    (Task.setCurrent ⟨id, false, fs, .ok .null, stage⟩ r).become .ready =
      Task.handDown ⟨id, false, fs, .ok .null, stage⟩ r fs := by
  cases fs with
  | nil => rfl
  | cons f fs =>
    have running : f.completed = false := by
      by_contra done
      simp [heldOf, done] at running
    rw [Task.setCurrent_cons rfl, Task.handDown_running running]
    rfl

/-- An operation of the kind of calls is a call or a custom operation of that name. -/
theorem Operation.of_callKind {op : Operation G F} (kind : op.kind = callKind) :
    (∃ func args, op = .call func args) ∨ ∃ payload, op = .custom callKind payload := by
  cases op with
  | call func args => exact .inl ⟨func, args, rfl⟩
  | custom kind' payload =>
    obtain rfl : kind' = callKind := kind
    exact .inr ⟨payload, rfl⟩
  | _ => simp [Operation.kind, callKind, executeKind, forkKind, deferKind, recoverKind, terminalKind,
      startKind, nextKind] at kind

/-! ### Places and frames -/

namespace Observer

variable {v : Observer G F M} {slot slot' : HandlerSlot M} {f f' o : Frame G F M}
  {fs fs' : List (Frame G F M)}

theorem handlers_plain : v.plain.handlers callKind = v.ahead ++ v.behind := by
  simp [plain, ahead, behind, Registry.handlers]

theorem handlers_watched :
    v.watched.handlers callKind = v.ahead ++ v.middleware :: v.behind := by
  simp [watched, ahead, behind, Registry.handlers]

theorem handlers_other {kind : String} (other : kind ≠ callKind) :
    v.watched.handlers kind = v.plain.handlers kind := by
  have other : (callKind == kind) = false := by simpa using fun same : callKind = kind => other same.symm
  simp [watched, plain, Registry.handlers, other]

theorem contains_execute : v.watched.contains executeKind = v.plain.contains executeKind := by
  have other : (callKind == executeKind) = false := by decide
  simp [watched, plain, Registry.contains, other]

/-- Two places that an operation comes to next. -/
def Comes (v : Observer G F M) (slot slot' : HandlerSlot M) : Prop :=
  v.Lines slot slot' ∨ slot = v.gap ∧ slot' = v.place

theorem comes_first (v : Observer G F M) :
    v.Comes ⟨callKind, v.plain.handlers callKind, 0⟩ ⟨callKind, v.watched.handlers callKind, 0⟩ := by
  rw [handlers_plain, handlers_watched]
  by_cases empty : v.ahead.length = 0
  · exact .inr ⟨by rw [gap, empty], by rw [place, empty]⟩
  · exact .inl (.ahead 0 (Nat.pos_of_ne_zero empty))

namespace Lines

theorem kind_eq (h : v.Lines slot slot') : slot'.kind = slot.kind := by cases h <;> rfl

theorem handler?_eq (h : v.Lines slot slot') : slot'.handler? = slot.handler? := by
  cases h with
  | other => rfl
  | ahead i bound => simp [HandlerSlot.handler?, List.getElem?_append_left bound]
  | behind i bound =>
    simp only [HandlerSlot.handler?, List.getElem?_append_right bound,
      List.getElem?_append_right (Nat.le_succ_of_le bound), Nat.succ_sub bound,
      List.getElem?_cons_succ]

theorem comes (h : v.Lines slot slot') : v.Comes slot.succ slot'.succ := by
  cases h with
  | other slot other => exact .inl (.other slot.succ other)
  | ahead i bound =>
    rcases Nat.lt_or_eq_of_le (Nat.succ_le_of_lt bound) with bound | same
    · exact .inl (.ahead (i + 1) bound)
    · exact .inr ⟨congrArg (HandlerSlot.mk _ _) same, congrArg (HandlerSlot.mk _ _) same⟩
  | behind i bound => exact .inl (.behind (i + 1) (Nat.le_succ_of_le bound))

theorem eq_of_other (h : v.Lines slot slot') (other : slot.kind ≠ callKind) : slot' = slot := by
  cases h with
  | other => rfl
  | ahead | behind => exact absurd rfl other

end Lines

theorem Mirrors.isOwn_eq (h : v.Mirrors f f') : v.isOwn f' = false := by
  have slot := h.slot
  unfold isOwn
  generalize f.slot = place, f'.slot = place' at slot
  cases slot with
  | none => rfl
  | some lines =>
    cases lines with
    | other slot other => simp [other]
    | ahead i bound => simp [Nat.ne_of_lt bound]
    | behind i bound => simp [Nat.ne_of_gt (Nat.lt_succ_of_le bound)]

theorem Waits.isOwn_eq (h : v.Waits o) : v.isOwn o = true := by simp [isOwn, h.slot, place]

theorem Waits.withResult (h : v.Waits o) (result : Outcome) : v.Waits { o with result } :=
  ⟨h.generator, h.running, h.defers, h.slot, h.calm⟩

theorem Mirrors.receive (h : v.Mirrors f f') (outcome : Outcome) :
    v.Mirrors (f.receive outcome) (f'.receive outcome) := by
  obtain ⟨g, name, mark, result, defers, completed, slot⟩ := f
  obtain ⟨g', name', mark', result', defers', completed', slot'⟩ := f'
  obtain ⟨rfl, rfl, rfl, rfl, rfl, lines, calm, calm'⟩ := h
  unfold Frame.receive
  cases completed' with
  | false => exact ⟨rfl, rfl, rfl, rfl, rfl, lines, calm, calm'⟩
  | true => cases outcome <;> exact ⟨rfl, rfl, rfl, rfl, rfl, lines, calm, calm'⟩

theorem completed_receive (f : Frame G F M) (outcome : Outcome) :
    (f.receive outcome).completed = f.completed := by
  unfold Frame.receive
  split
  · cases outcome <;> rfl
  · rfl

theorem Watched.beneath (h : v.Watched fs fs') : v.Level fs (v.beneath fs') := by
  induction h with
  | nil => exact .nil
  | frame mirrors rest =>
    rw [Observer.beneath, List.dropWhile_cons_of_neg (by simp [mirrors.isOwn_eq])]
    exact .frame mirrors rest
  | observer waits idle rest ih => rwa [Observer.beneath, List.dropWhile_cons_of_pos waits.isOwn_eq]

theorem Watched.calm (h : v.Watched fs fs') : Calm fs ∧ Calm fs' := by
  induction h with
  | nil => exact ⟨nofun, nofun⟩
  | frame mirrors rest ih =>
    exact ⟨List.forall_mem_cons.2 ⟨mirrors.calm, ih.1⟩, List.forall_mem_cons.2 ⟨mirrors.calm', ih.2⟩⟩
  | observer waits idle rest ih => exact ⟨ih.1, List.forall_mem_cons.2 ⟨waits.calm, ih.2⟩⟩

theorem Mirrors.due (h : v.Mirrors f f') (result : Outcome) :
    v.Mirrors { f with result } { f' with result } :=
  ⟨h.generator, h.name, rfl, h.defers, h.completed, h.slot, h.calm, h.calm'⟩

/-- Either the observer has no frame on top, or its frame is there because the one above it was
replaced. -/
theorem Watched.level_or (h : v.Watched fs fs') : v.Level fs fs' ∨
    ∃ o rest, fs' = o :: rest ∧ v.Waits o ∧ o.result = .ok .null ∧ v.Watched fs rest := by
  cases h with
  | nil => exact .inl .nil
  | frame mirrors rest => exact .inl (.frame mirrors rest)
  | observer waits idle rest => exact .inr ⟨_, _, rfl, waits, idle, rest⟩

theorem Level.watched (h : v.Level fs fs') : v.Watched fs fs' := by
  cases h with
  | nil => exact .nil
  | frame mirrors rest => exact .frame mirrors rest

theorem Level.tail (h : v.Level fs fs') : v.Watched fs.tail fs'.tail := by
  cases h with
  | nil => exact .nil
  | frame mirrors rest => exact rest

theorem Level.heldOf_eq (h : v.Level fs fs') : heldOf fs' = heldOf fs := by
  cases h with
  | nil => rfl
  | frame mirrors rest => simp only [heldOf, mirrors.completed, mirrors.result]

end Observer

theorem Task.conclude_deferred (id : TaskId) (new f : Frame G F M) (fs : List (Frame G F M))
    (root prior : Outcome) (stage : Stage G F M) :
    Task.conclude ⟨id, false, new :: f :: fs, root, stage⟩ (.ok ()) (.deferred (fs.length + 1) prior) =
      ⟨id, false, new :: { f with result := prior } :: fs, root, .ready⟩ := by
  simp [Task.conclude, atLevel, Frame.afterDefer]

section Turns

variable [Named G] {env : Surroundings σ G F M} {registry : Registry M} {t : Task G F M}
  {s s₁ : Scene σ G F M} {f : Frame G F M} {rest : List (Frame G F M)} {g : G}

theorem turn_yields {y : Yielded G F} (h : t.stage = .ready) (hf : t.frames = f :: rest)
    (hm : f.mark = .clear ∨ f.mark = .shielded)
    (ha : s.ask (.resume f.generator (.deliver f.result))
      (env.resume f.generator (.deliver f.result)) = ((.yielded y, g), s₁)) :
    env.turn registry (t, s) = ({ t with
      frames := { f with generator := g, result := .ok .null } :: rest
      stage := .dispatching y f.slot .yielded }, s₁) := by
  rw [turn_ready h hf hm ha, Task.resumed_yielded (t := t) (f := { f with result := .ok .null }) hm]

theorem turn_completes {outcome : Outcome} (h : t.stage = .ready) (hf : t.frames = f :: rest)
    (hm : f.mark = .clear ∨ f.mark = .shielded)
    (ha : s.ask (.resume f.generator (.deliver f.result))
      (env.resume f.generator (.deliver f.result)) = ((.complete outcome, g), s₁)) :
    env.turn registry (t, s) = ({ t with
      frames := { f with generator := g, result := outcome, completed := true } :: rest
      stage := .unwinding }, s₁) := by
  rw [turn_ready h hf hm ha, Task.resumed_complete (t := t) (f := { f with result := .ok .null }) hm]

end Turns

/-! ### The turns that only the observed task makes -/

namespace Observer

variable {v : Observer G F M} {Same : σ → σ → Prop}

section Scenes

variable {s s' : Scene σ G F M} {α : Type} {act act' : σ → α × σ} {request : Request G F M}
  {a : α}

theorem Alongside.ask (h : v.Alongside Same s s') (request : Request G F M)
    (agree : Matching Same act act') :
    ∃ a s₁ s₁', s.ask request act = (a, s₁) ∧ s'.ask request act' = (a, s₁') ∧
      v.Alongside Same s₁ s₁' := by
  obtain ⟨answer, state⟩ := agree _ _ h.state
  exact ⟨_, _, _, rfl, Prod.ext answer rfl, state, h.actions.both _⟩

theorem Alongside.report (h : v.Alongside Same s s') (d : Diagnostic) :
    v.Alongside Same (s.ask (.report d) fun state => ((), state)).2
      (s'.ask (.report d) fun state => ((), state)).2 :=
  ⟨h.state, h.actions.both _⟩

theorem Alongside.own (h : v.Alongside Same s s') (unseen : Unseen Same act a)
    (own : v.Own request) :
    ∃ s₁, s'.ask request act = (a, s₁) ∧ v.Alongside Same s s₁ := by
  obtain ⟨answer, state⟩ := unseen _ _ h.state
  exact ⟨_, Prod.ext answer rfl, state, h.actions.own own⟩

end Scenes

section Follows

variable {id : TaskId} {fs fs' : List (Frame G F M)} {p p' : Purpose}

theorem Seats.watched (h : v.Seats fs fs' p p') : v.Watched fs fs' := by
  cases h with
  | yielded watched => exact watched
  | deferred _ _ mirrors rest => exact .frame mirrors rest

theorem Handed.calm (h : v.Handed fs fs' p p') : Calm fs ∧ Calm fs' := by
  cases h with
  | seats seats => exact seats.watched.calm
  | deferred prior _ waits _ rest =>
    refine ⟨?_, List.forall_mem_cons.2 ⟨waits.calm, rest.calm.2⟩⟩
    exact Calm.change rest.calm.1 rfl

theorem follows_ended (idle : Idle fs) (seats : v.Seats fs fs' p p') (result : Except Error Unit) :
    v.Follows id ⟨id, false, fs, .ok .null, .dispatched result p⟩
      ⟨id, false, fs', .ok .null, .dispatched result p'⟩ := by
  have tail : Idle fs.tail := fun f hf => idle f (List.mem_of_mem_tail hf)
  cases seats with
  | yielded watched =>
    cases watched with
    | nil => exact .ended result .nil tail nofun (.yielded .nil)
    | frame mirrors rest =>
      exact .ended result (.frame mirrors rest) tail (fun _ => rfl) (.yielded (.frame mirrors rest))
    | @observer o _ gs waits due rest =>
      cases held : heldOf fs with
      | some outcome => exact .stranded result waits (by rw [held]; rfl) rest
      | none =>
        have bared : v.Follows id _ _ :=
          .bared result (.dispatched result .yielded) waits tail held rest
        rwa [due, idle.setCurrent held] at bared
  | deferred prior done mirrors rest =>
    exact .ended result (.frame mirrors rest) tail (fun _ => rfl) (.deferred prior done mirrors rest)

theorem follows_failed (idle : Idle fs) (handed : v.Handed fs fs' p p') (e : Error) :
    v.Follows id ⟨id, false, fs, .ok .null, .dispatched (.error e) p⟩
      ⟨id, false, fs', .ok .null, .dispatched (.error e) p'⟩ := by
  cases handed with
  | seats seats => exact follows_ended idle seats (.error e)
  | deferred prior done waits _ rest =>
    exact .failed e prior done waits (List.forall_mem_cons.1 idle).2 rest

theorem follows_pushed (idle : Idle fs) (handed : v.Handed fs fs' p p') (g : G) (name : String)
    {slot slot' : Option (HandlerSlot M)} (lines : Option.Rel v.Lines slot slot')
    (st st' : Stage G F M) :
    v.Follows id (Task.push ⟨id, false, fs, .ok .null, st⟩ g name slot p)
      (Task.push ⟨id, false, fs', .ok .null, st'⟩ g name slot' p') :=
  .pushed ⟨rfl, rfl, rfl, rfl, rfl, lines, handed.calm.1.pushed, handed.calm.2.pushed⟩ idle handed

theorem Level.setHeld (h : v.Level fs fs') (result : Outcome) :
    v.Watched (setHeld (some result) fs) (setHeld (some result) fs') := by
  cases h with
  | nil => exact .nil
  | frame mirrors rest => exact .frame (mirrors.due result) rest

theorem Seats.change {f f' g g' : Frame G F M} {gs gs' : List (Frame G F M)}
    (h : v.Seats (f :: fs) (f' :: fs') p p') (mirrors : v.Mirrors g g')
    (done : g.completed = f.completed) (length : gs.length = fs.length)
    (length' : gs'.length = fs'.length) (rest : v.Watched gs gs') :
    v.Seats (g :: gs) (g' :: gs') p p' := by
  cases h with
  | yielded => exact .yielded (.frame mirrors rest)
  | deferred prior completed =>
    rw [← length, ← length']
    exact .deferred prior (done.trans completed) mirrors rest

theorem follows_recover (idle : Idle fs) (seats : v.Seats fs fs' p p') {slot : HandlerSlot M}
    (unhandled : slot.handler? = none) {origin origin' : Option (HandlerSlot M)}
    (undisturbed : ¬ v.Disturbed ⟨id, false, fs', .ok .null, .offering .recover slot origin' p'⟩) :
    v.Follows id
      (Task.become (Task.recover ⟨id, false, fs, .ok .null, .offering .recover slot origin p⟩)
        (.dispatched (.ok ()) p))
      (Task.become (Task.recover ⟨id, false, fs', .ok .null, .offering .recover slot origin' p'⟩)
        (.dispatched (.ok ()) p')) := by
  have nothing (h : ∀ e, heldOf fs.tail ≠ some (.error e))
      (h' : ∀ e, heldOf fs'.tail ≠ some (.error e)) :
      v.Follows id
        (Task.become (Task.recover ⟨id, false, fs, .ok .null, .offering .recover slot origin p⟩)
          (.dispatched (.ok ()) p))
        (Task.become (Task.recover ⟨id, false, fs', .ok .null, .offering .recover slot origin' p'⟩)
          (.dispatched (.ok ()) p')) := by
    rw [Task.recover_eq_self h, Task.recover_eq_self h']
    exact follows_ended idle seats _
  rcases seats.watched.level_or with level | ⟨o, rest, rfl, waits, -, watched⟩
  · cases level with
    | nil => exact nothing nofun nofun
    | @frame f f' fs gs mirrors rest =>
      rcases rest.level_or with level | ⟨o, rest, rfl, waits, -, watched⟩
      · by_cases held : ∃ e, heldOf fs = some (.error e)
        · obtain ⟨e, held⟩ := held
          have held' := level.heldOf_eq.trans held
          rw [Task.recover_eq_of_held rfl held, Task.recover_eq_of_held rfl held']
          have watched := level.setHeld (.ok .null)
          have seats := seats.change (mirrors.due (.ok (.error e))) rfl
            (length_setHeld ..) (length_setHeld ..) watched
          refine .ended _ (.frame (mirrors.due _) watched) (fun g hg running => ?_) (fun _ => rfl)
            seats
          cases fs with
          | nil => cases held
          | cons below fs =>
            rcases List.mem_cons.1 hg with rfl | hg
            · rfl
            · exact idle g (List.mem_cons_of_mem _ (List.mem_cons_of_mem _ hg)) running
        · refine nothing (fun e h => held ⟨e, h⟩) fun e h => held ⟨e, level.heldOf_eq ▸ h⟩
      · refine nothing (fun e hidden => undisturbed ?_) fun e => by simp [heldOf, waits.running]
        refine .recoversAbove (e := e) rfl unhandled rfl mirrors.isOwn_eq waits.isOwn_eq ?_
        exact watched.beneath.heldOf_eq.trans hidden
  · have below : heldOf (v.beneath rest) = none := by
      by_contra hidden
      have hidden := Option.isSome_iff_ne_none.2 hidden
      exact undisturbed (.recoversOn rfl unhandled rfl waits.isOwn_eq (.inl hidden))
    refine nothing (fun e hidden => undisturbed ?_) fun e hidden => ?_
    · refine .recoversOn rfl unhandled rfl waits.isOwn_eq (.inr ⟨e, ?_⟩)
      exact watched.beneath.tail.beneath.heldOf_eq.trans hidden
    · have hidden : heldOf rest = some (.error e) := hidden
      rcases watched.level_or with level | ⟨o₂, rest, rfl, waits₂, -, -⟩
      · rw [level.heldOf_eq, ← watched.beneath.heldOf_eq, below] at hidden
        cases hidden
      · simp [heldOf, waits₂.running] at hidden

theorem follows_defer (idle : Idle fs) (seats : v.Seats fs fs' p p') (inner : Operation G F)
    {slot : HandlerSlot M} (unhandled : slot.handler? = none)
    {origin origin' : Option (HandlerSlot M)} [Named G]
    (undisturbed :
      ¬ v.Disturbed ⟨id, false, fs', .ok .null, .offering (.defer inner) slot origin' p'⟩) :
    ∃ t t', Task.core ⟨id, false, fs, .ok .null, .offering (.defer inner) slot origin p⟩
        (.defer inner) origin p = (t, .silent) ∧
      Task.core ⟨id, false, fs', .ok .null, .offering (.defer inner) slot origin' p'⟩
        (.defer inner) origin' p' = (t', .silent) ∧ v.Follows id t t' := by
  rcases seats.watched.level_or with level | ⟨o, rest, rfl, waits, -, watched⟩
  · cases level with
    | nil => exact ⟨_, _, rfl, rfl, follows_ended idle seats _⟩
    | @frame f f' fs gs mirrors rest =>
      refine ⟨_, _, rfl, rfl, ?_⟩
      have registered : v.Mirrors { f with defers := inner :: f.defers }
          { f' with defers := inner :: f'.defers } :=
        ⟨mirrors.generator, mirrors.name, mirrors.result, congrArg (inner :: ·) mirrors.defers,
          mirrors.completed, mirrors.slot, mirrors.calm, mirrors.calm'⟩
      refine follows_ended (fun g hg running => ?_) (seats.change registered rfl rfl rfl rest) _
      rcases List.mem_cons.1 hg with rfl | hg
      · exact idle f List.mem_cons_self running
      · exact idle g (List.mem_cons_of_mem _ hg) running
  · exact absurd (.defersOn rfl unhandled rfl waits.isOwn_eq) undisturbed

theorem follows_terminal (idle : Idle fs) (seats : v.Seats fs fs' p p') (inner : Operation G F)
    {slot : HandlerSlot M} (unhandled : slot.handler? = none)
    {origin origin' : Option (HandlerSlot M)} (origins : Option.Rel v.Lines origin origin')
    [Named G] (undisturbed :
      ¬ v.Disturbed ⟨id, false, fs', .ok .null, .offering (.terminal inner) slot origin' p'⟩) :
    ∃ t t', Task.core ⟨id, false, fs, .ok .null, .offering (.terminal inner) slot origin p⟩
        (.terminal inner) origin p = (t, .silent) ∧
      Task.core ⟨id, false, fs', .ok .null, .offering (.terminal inner) slot origin' p'⟩
        (.terminal inner) origin' p' = (t', .silent) ∧ v.Follows id t t' := by
  simp only [Task.core]
  cases needsFrame : inner.needsFrame with
  | true => exact ⟨_, _, rfl, rfl, follows_ended idle seats _⟩
  | false =>
    rcases seats.watched.level_or with level | ⟨o, rest, rfl, waits, -, watched⟩
    · cases level with
      | nil => exact ⟨_, _, rfl, rfl, follows_ended idle seats _⟩
      | @frame f f' fs gs mirrors rest =>
        simp only [mirrors.completed, Bool.false_eq_true, if_false]
        cases done : f.completed with
        | true => exact ⟨_, _, rfl, rfl, follows_ended idle seats _⟩
        | false =>
          cases seats with
          | yielded =>
            exact ⟨_, _, rfl, rfl,
              .replacing inner mirrors (fun g hg => idle g (List.mem_cons_of_mem _ hg)) origins rest⟩
          | deferred prior completed =>
            rw [done] at completed
            cases completed
    · exact absurd (.replaces rfl unhandled needsFrame rfl waits.isOwn_eq) undisturbed

theorem follows_fork (idle : Idle fs) (seats : v.Seats fs fs' p p') {inner : Operation G F}
    (child : TaskId) {slot : HandlerSlot M} (unhandled : slot.handler? = none)
    {origin' : Option (HandlerSlot M)} (undisturbed :
      ¬ v.Disturbed ⟨id, false, fs', .ok .null, .offering (.fork inner) slot origin' p'⟩) :
    v.Follows id (Task.forked ⟨id, false, fs, .ok .null, .forking p⟩ child)
      (Task.forked ⟨id, false, fs', .ok .null, .forking p'⟩ child) := by
  have tail : Idle fs.tail := fun f hf => idle f (List.mem_of_mem_tail hf)
  rcases seats.watched.level_or with level | ⟨o, rest, rfl, waits, -, watched⟩
  · cases level with
    | nil => exact .ended _ .nil tail nofun seats
    | frame mirrors rest =>
      exact .ended _ (.frame (mirrors.due _) rest) tail (fun _ => rfl)
        (seats.change (mirrors.due _) rfl rfl rfl rest)
  · have running : heldOf fs = none := by
      by_contra hidden
      have hidden := Option.isSome_iff_ne_none.2 (watched.beneath.heldOf_eq ▸ hidden)
      exact undisturbed (.forksOn rfl unhandled rfl waits.isOwn_eq hidden)
    cases seats with
    | deferred prior done mirrors =>
      have own := waits.isOwn_eq
      rw [mirrors.isOwn_eq] at own
      cases own
    | yielded =>
      exact .bared _ _ (waits.withResult (.ok (.task child))) tail running watched

theorem Follows.settled_iff {t t' : Task G F M} (h : v.Follows id t t') (r : Outcome) :
    t.stage = .settled r ↔ t'.stage = .settled r := by
  cases h <;> simp [Task.fresh, Task.become]

end Follows

variable [Named G] {env env' : Surroundings σ G F M} {id : TaskId} {s s' : Scene σ G F M}
  {x x' x₁ : Task G F M × Scene σ G F M} {fs fs' : List (Frame G F M)} {o : Frame G F M}

/-- A task and its surroundings with and without the observer. -/
structure Tracks (v : Observer G F M) (Same : σ → σ → Prop) (id : TaskId)
    (x x' : Task G F M × Scene σ G F M) : Prop where
  task : v.Follows id x.1 x'.1
  scene : v.Alongside Same x.2 x'.2

/-- The observed task is as far as the other one after some turns of its own. -/
def Catches (v : Observer G F M) (env' : Surroundings σ G F M) (Same : σ → σ → Prop) (id : TaskId)
    (x x' : Task G F M × Scene σ G F M) : Prop :=
  ∃ n, v.Tracks Same id x ((env'.turn v.watched)^[n] x')

theorem Catches.now (task : v.Follows id x.1 x'.1) (scene : v.Alongside Same x.2 x'.2) :
    v.Catches env' Same id x x' :=
  ⟨0, task, scene⟩

theorem Catches.later (turn : env'.turn v.watched x' = x₁) (h : v.Catches env' Same id x x₁) :
    v.Catches env' Same id x x' := by
  obtain ⟨n, tracks⟩ := h
  refine ⟨n + 1, ?_⟩
  rwa [Function.iterate_succ_apply, turn]

/-- A waiting frame of the observer completes with what it is due, has deferred nothing and is
popped. -/
theorem catches_return (delegates : v.Delegates Same env') (waits : v.Waits o)
    (scene : v.Alongside Same s s') {t : Task G F M} (frames : List (Frame G F M))
    (stage : Stage G F M)
    (h : ∀ s₁, v.Alongside Same s s₁ → v.Catches env' Same id (t, s)
      (Task.handDown ⟨id, false, frames, .ok .null, stage⟩ o.result fs', s₁)) :
    v.Catches env' Same id (t, s) (⟨id, false, o :: fs', .ok .null, .ready⟩, s') := by
  obtain ⟨op, generator⟩ := waits.generator
  obtain ⟨s₁, answered, scene₁⟩ := scene.own (delegates.proceed op o.result) (.proceed op o.result)
  rw [← generator] at answered
  refine .later (turn_completes rfl rfl waits.calm answered) (.later (turn_unwinding rfl) ?_)
  simp only [Task.unwind, waits.defers]
  have popped := h s₁ scene₁
  rwa [← Task.handDown_with (t := ⟨id, false, frames, .ok .null, stage⟩)
    ({ o with generator := v.finished, completed := true } :: fs') fs' .unwinding o.result] at popped

/-- Waiting frames of the observer hand an outcome on to the frame below them. -/
theorem catches_handDown (delegates : v.Delegates Same env') (watched : v.Watched fs fs')
    (idle : Idle fs.tail) (scene : v.Alongside Same s s') (r : Outcome)
    (frames frames' : List (Frame G F M)) (stage stage' : Stage G F M) :
    v.Catches env' Same id (Task.handDown ⟨id, false, frames, .ok .null, stage⟩ r fs, s)
      (Task.handDown ⟨id, false, frames', .ok .null, stage'⟩ r fs', s') := by
  induction watched generalizing s' with
  | nil => exact .now (.ready .nil nofun nofun) scene
  | @frame f f' fs fs' mirrors rest =>
    have mirrors' := mirrors.receive r
    simp only [Task.handDown, mirrors.completed]
    cases done : f.completed with
    | true => exact .now (.unwinding ((completed_receive ..).trans done) mirrors' idle rest) scene
    | false => exact .now (.ready (.frame mirrors' rest) idle fun _ => rfl) scene
  | @observer o fs fs' waits _ rest ih =>
    rw [Task.handDown_running waits.running]
    exact catches_return delegates (waits.withResult r) scene [] .ready fun s₁ scene =>
      ih idle scene

/-- A call that comes to the observer is delegated by a new frame of the observer. -/
theorem catches_call (delegates : v.Delegates Same env') {op : Operation G F}
    (kind : op.kind = callKind) {slot slot' : HandlerSlot M} (comes : v.Comes slot slot')
    {origin origin' : Option (HandlerSlot M)} {p p' : Purpose} (idle : Idle fs)
    (handed : v.Handed fs fs' p p') (scene : v.Alongside Same s s') :
    v.Catches env' Same id (⟨id, false, fs, .ok .null, .offering op slot origin p⟩, s)
      (⟨id, false, fs', .ok .null, .offering op slot' origin' p'⟩, s') := by
  rcases comes with lines | ⟨rfl, rfl⟩
  · exact .now (.offeringCall op origin origin' idle kind lines handed) scene
  have serves : v.place.handler? = some v.middleware := by simp [place, HandlerSlot.handler?]
  obtain ⟨s₁, accepts, scene⟩ := scene.own (delegates.filter op) (.filter op)
  refine .later (turn_filter rfl serves accepts) ?_
  obtain ⟨s₂, creates, scene⟩ := scene.own (delegates.handle op) (.handle op)
  refine .later (turn_handle rfl serves creates) (.later (turn_dispatched rfl) ?_)
  obtain ⟨s₃, yields, scene⟩ := scene.own (delegates.start op .null) (.start op)
  let new : Frame G F M := ⟨v.created op, Task.handlerName callKind,
    .pushed p'.shields false (fs'.head?.map (·.mark)), .ok .null, [], false, some v.place⟩
  let o : Frame G F M := { new with generator := v.waiting op }
  have waits : v.Waits o := ⟨⟨op, rfl⟩, rfl, rfl, rfl, handed.calm.2.pushed⟩
  have kinds : (op.kind == v.place.kind) = true := beq_iff_eq.2 kind
  have goes {gs' : List (Frame G F M)} (handed : v.Handed fs (o :: gs') p .yielded) :
      v.Catches env' Same id (⟨id, false, fs, .ok .null, .offering op v.gap origin p⟩, s)
        (⟨id, false, new :: gs', .ok .null, .ready⟩, s₂) := by
    refine .later (turn_yields rfl rfl waits.calm yields) (.later (turn_dispatching rfl) ?_)
    simp only [Task.dispatch, new, kinds, if_true]
    exact .now (.offeringCall op origin _ idle kind (.behind _ (Nat.le_refl _)) handed) scene
  cases handed with
  | seats seats =>
    cases seats with
    | yielded watched => exact goes (.seats (.yielded (.observer waits rfl watched)))
    | @deferred f f' fs fs' prior done mirrors rest =>
      have concluded := Task.conclude_deferred id new f' fs' (.ok .null) prior
        (.dispatched (.ok ()) (.deferred (fs'.length + 1) prior))
      refine Eq.mpr (congrArg (fun t => v.Catches env' Same id _ (t, s₂)) concluded) ?_
      exact goes (.deferred prior done waits rfl (.frame (mirrors.due prior) rest))
  | deferred prior done waits₂ idle₂ rest =>
    exact goes (.deferred prior done waits rfl (.observer waits₂ idle₂ rest))

/-! ### The turns that both tasks make -/

section Follows

variable {p p' : Purpose} {origin origin' : Option (HandlerSlot M)} {f f' : Frame G F M}

variable (delegates : v.Delegates Same env') (agree : env.Matches Same env')
  (scene : v.Alongside Same s s')
include scene

/-- The end of a dispatch that no frame of the observer is concerned with. -/
theorem step_ended {root : Outcome} (result : Except Error Unit) (level : v.Level fs fs')
    (idle : Idle fs.tail) (unset : fs ≠ [] → root = .ok .null) (seats : v.Seats fs fs' p p') :
    v.Catches env' Same id
      (env.turn v.plain (⟨id, false, fs, root, .dispatched result p⟩, s))
      (env'.turn v.watched (⟨id, false, fs', root, .dispatched result p'⟩, s')) := by
  rw [turn_dispatched rfl, turn_dispatched rfl]
  cases seats with
  | yielded watched =>
    cases result with
    | ok => exact .now (.ready level idle unset) scene
    | error e =>
      cases level with
      | nil => exact .now (.ready .nil (List.forall_mem_nil _) fun ne => absurd rfl ne) scene
      | frame mirrors rest =>
        obtain rfl := unset (List.cons_ne_nil _ _)
        exact .now (.ready (.frame (mirrors.due _) rest) idle fun _ => rfl) scene
  | deferred prior done mirrors rest =>
    obtain rfl := unset (List.cons_ne_nil _ _)
    simp only [Task.conclude, atLevel, List.length_cons, Nat.sub_self, Nat.lt_irrefl, if_false,
      gt_iff_lt, List.modify_zero_cons]
    exact .now (.unwinding done (mirrors.due _) idle rest) scene

/-- The end of a dispatch that has pushed a frame. -/
theorem step_pushed (mirrors : v.Mirrors f f') (idle : Idle fs) (handed : v.Handed fs fs' p p') :
    v.Catches env' Same id
      (env.turn v.plain (⟨id, false, f :: fs, .ok .null, .dispatched (.ok ()) p⟩, s))
      (env'.turn v.watched (⟨id, false, f' :: fs', .ok .null, .dispatched (.ok ()) p'⟩, s')) := by
  rw [turn_dispatched rfl, turn_dispatched rfl]
  cases handed with
  | seats seats =>
    cases seats with
    | yielded watched => exact .now (.ready (.frame mirrors watched) idle fun _ => rfl) scene
    | deferred prior done mirrors₂ rest =>
      rw [Task.conclude_deferred, Task.conclude_deferred]
      have restored := Watched.frame (mirrors₂.due prior) rest
      exact .now (.ready (.frame mirrors restored) (idle.restored done) fun _ => rfl) scene
  | deferred prior done waits idle₂ rest =>
    rw [Task.conclude_deferred]
    exact .now
      (.ready (.frame mirrors (.observer waits idle₂ rest)) (idle.restored done) fun _ => rfl) scene

section

include delegates

/-- The end of a dispatch on a frame of the observer, which returns. -/
theorem step_bared (result : Except Error Unit) (stage : Stage G F M) (waits : v.Waits o)
    (idle : Idle fs.tail) (running : heldOf fs = none) (rest : v.Watched fs fs') :
    v.Catches env' Same id
      (env.turn v.plain ((Task.setCurrent ⟨id, false, fs, .ok .null, stage⟩ o.result).become
        (.dispatched result .yielded), s))
      (env'.turn v.watched (⟨id, false, o :: fs', .ok .null, .dispatched result .yielded⟩, s')) := by
  rw [turn_dispatched rfl, turn_dispatched rfl]
  have handDown (r : Outcome) : v.Catches env' Same id _ _ :=
    catches_return delegates (waits.withResult r) scene [] .ready fun s₁ scene =>
      catches_handDown delegates rest idle scene r fs [] stage .ready
  cases result with
  | ok =>
    have concluded := handDown o.result
    rw [← Task.setCurrent_handDown o.result running] at concluded
    exact concluded
  | error e =>
    have concluded := handDown (.error e)
    rw [← Task.setCurrent_handDown (.error e) running] at concluded
    simp only [Task.conclude, Task.setCurrent_again]
    exact concluded

/-- A call that the observer delegated has failed, and its frame returns with the error. -/
theorem step_failed (e : Error) (prior : Outcome) (done : f.completed = true) (waits : v.Waits o)
    (idle : Idle fs) (rest : v.Watched ({ f with result := prior } :: fs) fs') :
    v.Catches env' Same id
      (env.turn v.plain (⟨id, false, f :: fs, .ok .null,
        .dispatched (.error e) (.deferred (fs.length + 1) prior)⟩, s))
      (env'.turn v.watched (⟨id, false, o :: fs', .ok .null,
        .dispatched (.error e) .yielded⟩, s')) := by
  rw [turn_dispatched rfl, turn_dispatched rfl]
  have handDown : v.Catches env' Same id _ _ :=
    catches_return delegates (waits.withResult (.error e)) scene [] .ready fun s₁ scene =>
      catches_handDown delegates rest idle scene (.error e) [] [] .ready .ready
  rw [Task.handDown_completed (f := { f with result := prior }) done] at handDown
  simp only [Task.conclude, atLevel, List.length_cons, Nat.sub_self, Nat.lt_irrefl, if_false,
    gt_iff_lt, List.modify_zero_cons]
  exact handDown

/-- A completed frame is popped, or has one of its operations dispatched. -/
theorem step_unwinding (done : f.completed = true) (mirrors : v.Mirrors f f') (idle : Idle fs)
    (rest : v.Watched fs fs') :
    v.Catches env' Same id
      (env.turn v.plain (⟨id, false, f :: fs, .ok .null, .unwinding⟩, s))
      (env'.turn v.watched (⟨id, false, f' :: fs', .ok .null, .unwinding⟩, s')) := by
  rw [turn_unwinding rfl, turn_unwinding rfl]
  simp only [Task.unwind, mirrors.defers, mirrors.result]
  cases registered : f.defers with
  | nil =>
    have tail : Idle fs.tail := fun g hg => idle g (List.mem_of_mem_tail hg)
    exact catches_handDown delegates rest tail scene _ _ _ _ _
  | cons op defers =>
    have dispatched : v.Mirrors { f with defers, result := .ok .null }
        { f' with defers, result := .ok .null } :=
      ⟨mirrors.generator, mirrors.name, rfl, rfl, mirrors.completed, mirrors.slot, mirrors.calm,
        mirrors.calm'⟩
    refine .now (.dispatching _ ?_ mirrors.slot (.deferred f.result done dispatched rest)) scene
    exact List.forall_mem_cons.2 ⟨fun _ => rfl, idle⟩

theorem step_dispatching {y : Yielded G F} (idle : Idle fs)
    (origins : Option.Rel v.Lines origin origin') (seats : v.Seats fs fs' p p') :
    v.Catches env' Same id
      (Task.dispatch v.plain ⟨id, false, fs, .ok .null, .dispatching y origin p⟩ y origin p, s)
      (Task.dispatch v.watched ⟨id, false, fs', .ok .null, .dispatching y origin' p'⟩ y origin' p',
        s') := by
  -- An operation comes to its chain in the same way in both engines.
  have enters (op : Operation G F) : v.Catches env' Same id
      (⟨id, false, fs, .ok .null, .offering op ⟨op.kind, v.plain.handlers op.kind, 0⟩ origin p⟩, s)
      (⟨id, false, fs', .ok .null,
        .offering op ⟨op.kind, v.watched.handlers op.kind, 0⟩ origin' p'⟩, s') := by
    by_cases kind : op.kind = callKind
    · have comes := v.comes_first
      rw [← kind] at comes
      exact catches_call delegates kind comes idle (.seats seats) scene
    · rw [handlers_other kind]
      exact .now (.offering op _ idle rfl kind origins seats) scene
  cases y with
  | generator g =>
    simp only [Task.dispatch, contains_execute]
    split
    · exact .now (.dispatching _ idle origins seats) scene
    · exact .now (follows_pushed idle (.seats seats) g _ .none _ _) scene
  | operation op =>
    cases op with
    | next inner =>
      cases origins with
      | none => exact .now (follows_ended idle seats _) scene
      | @some slot slot' lines =>
        simp only [Task.dispatch, lines.kind_eq]
        split
        · rename_i kinds
          have kinds : inner.kind = slot.kind := beq_iff_eq.1 kinds
          by_cases kind : inner.kind = callKind
          · exact catches_call delegates kind lines.comes idle (.seats seats) scene
          · rw [lines.eq_of_other (kinds ▸ kind)]
            exact .now (.offering inner slot.succ idle kinds.symm kind
              (.some (lines.eq_of_other (kinds ▸ kind) ▸ lines)) seats) scene
        · exact .now (follows_ended idle seats _) scene
    | _ => exact enters _

end

include agree

/-- The built-in handling of an operation other than a call. -/
theorem step_core {op : Operation G F} {slot : HandlerSlot M} (unhandled : slot.handler? = none)
    (other : op.kind ≠ callKind) (idle : Idle fs) (origins : Option.Rel v.Lines origin origin')
    (seats : v.Seats fs fs' p p')
    (undisturbed : ¬ v.Disturbed ⟨id, false, fs', .ok .null, .offering op slot origin' p'⟩) :
    v.Catches env' Same id
      (env.turn v.plain (⟨id, false, fs, .ok .null, .offering op slot origin p⟩, s))
      (env'.turn v.watched (⟨id, false, fs', .ok .null, .offering op slot origin' p'⟩, s')) := by
  -- Most operations are handled without asking anybody.
  have quiet {t t' : Task G F M}
      (core : Task.core ⟨id, false, fs, .ok .null, .offering op slot origin p⟩ op origin p =
        (t, .silent))
      (core' : Task.core ⟨id, false, fs', .ok .null, .offering op slot origin' p'⟩ op origin' p' =
        (t', .silent)) (follows : v.Follows id t t') :
      v.Catches env' Same id
        (env.turn v.plain (⟨id, false, fs, .ok .null, .offering op slot origin p⟩, s))
        (env'.turn v.watched (⟨id, false, fs', .ok .null, .offering op slot origin' p'⟩, s')) := by
    rw [turn_core rfl unhandled core, turn_core rfl unhandled core']
    exact .now follows scene
  cases op with
  | call func args => exact absurd rfl other
  | execute g => exact quiet rfl rfl (follows_pushed idle (.seats seats) g _ .none _ _)
  | fork inner =>
    obtain ⟨child, s₁, s₁', asks, asks', scene⟩ := scene.ask (.fork inner) (agree.fork inner)
    rw [turn_fork rfl unhandled asks, turn_fork rfl unhandled asks']
    exact .now (follows_fork idle seats _ unhandled undisturbed) scene
  | start inner => exact quiet rfl rfl (.dispatching _ idle origins seats)
  | «defer» inner =>
    obtain ⟨t, t', core, core', follows⟩ := follows_defer idle seats inner unhandled undisturbed
    exact quiet core core' follows
  | recover => exact quiet rfl rfl (follows_recover idle seats unhandled undisturbed)
  | terminal inner =>
    obtain ⟨t, t', core, core', follows⟩ :=
      follows_terminal idle seats inner unhandled origins undisturbed
    exact quiet core core' follows
  | next inner => exact quiet rfl rfl (follows_ended idle seats _)
  | custom kind payload => exact quiet rfl rfl (follows_ended idle seats _)

/-- The top frame is resumed. -/
theorem step_resumed (mirrors : v.Mirrors f f') (idle : Idle fs) (rest : v.Watched fs fs') :
    v.Catches env' Same id
      (env.turn v.plain (⟨id, false, f :: fs, .ok .null, .ready⟩, s))
      (env'.turn v.watched (⟨id, false, f' :: fs', .ok .null, .ready⟩, s')) := by
  obtain ⟨⟨signal, g⟩, s₁, s₁', asks, asks', scene⟩ :=
    scene.ask (.resume f.generator (.deliver f.result)) (agree.resume f.generator (.deliver f.result))
  rw [← mirrors.generator, ← mirrors.result] at asks'
  cases signal with
  | yielded y =>
    rw [turn_yields rfl rfl mirrors.calm asks, turn_yields rfl rfl mirrors.calm' asks']
    have suspended : v.Mirrors { f with generator := g, result := .ok .null }
        { f' with generator := g, result := .ok .null } :=
      ⟨rfl, mirrors.name, rfl, mirrors.defers, mirrors.completed, mirrors.slot, mirrors.calm,
        mirrors.calm'⟩
    refine .now (.dispatching y ?_ mirrors.slot (.yielded (.frame suspended rest))) scene
    exact List.forall_mem_cons.2 ⟨fun _ => rfl, idle⟩
  | complete outcome =>
    rw [turn_completes rfl rfl mirrors.calm asks, turn_completes rfl rfl mirrors.calm' asks']
    have completed : v.Mirrors { f with generator := g, result := outcome, completed := true }
        { f' with generator := g, result := outcome, completed := true } :=
      ⟨rfl, mirrors.name, rfl, mirrors.defers, rfl, mirrors.slot, mirrors.calm, mirrors.calm'⟩
    exact .now (.unwinding rfl completed idle rest) scene

/-- A handler is asked for a generator, which is pushed unless there is none. -/
theorem step_handling {op : Operation G F} {slot slot' : HandlerSlot M} (idle : Idle fs)
    (lines : v.Lines slot slot') (handed : v.Handed fs fs' p p') :
    v.Catches env' Same id
      (env.turn v.plain (⟨id, false, fs, .ok .null, .handling op slot p⟩, s))
      (env'.turn v.watched (⟨id, false, fs', .ok .null, .handling op slot' p'⟩, s')) := by
  cases serves : slot.handler? with
  | some m =>
    obtain ⟨result, s₁, s₁', asks, asks', scene⟩ := scene.ask (.handle m op) (agree.handle m op)
    rw [turn_handle rfl serves asks, turn_handle rfl (lines.handler?_eq.trans serves) asks']
    cases result with
    | ok g =>
      simp only [Task.handled, lines.kind_eq]
      exact .now (follows_pushed idle handed g _ (.some lines) _ _) scene
    | error e => exact .now (follows_failed idle handed e) scene
  | none =>
    have serves' := lines.handler?_eq.trans serves
    simp only [Surroundings.turn, Task.step, serves, serves']
    exact .now (follows_failed idle handed _) scene

/-- A frame that has been replaced is resumed for its return. -/
theorem step_retiring {inner : Operation G F} (mirrors : v.Mirrors f f') (idle : Idle fs)
    (origins : Option.Rel v.Lines origin origin') (watched : v.Watched fs fs') :
    v.Catches env' Same id
      (env.turn v.plain (⟨id, false, fs, .ok .null, .retiring f inner origin .yielded⟩, s))
      (env'.turn v.watched
        (⟨id, false, fs', .ok .null, .retiring f' inner origin' .yielded⟩, s')) := by
  obtain ⟨⟨signal, g⟩, s₁, s₁', asks, asks', scene⟩ :=
    scene.ask (.retire f.generator) (agree.resume f.generator .forcedReturn)
  simp only [Surroundings.turn, Task.step, mirrors.generator, asks, asks']
  have returned : v.Follows id _ _ :=
    .dispatching (.operation inner) idle origins (.yielded watched)
  have reported (d : Diagnostic) : v.Follows id _ _ :=
    .reporting d inner idle origins watched
  simp only [Task.retired, mirrors.name]
  split
  · exact .now returned scene
  · exact .now returned scene
  · exact .now (reported _) scene
  · exact .now (reported _) scene

/-- An operation is offered to the same handler in both engines. -/
theorem step_offered {op : Operation G F} {slot slot' : HandlerSlot M} {m : M}
    (serves : slot.handler? = some m) (serves' : slot'.handler? = some m) {t t' : Task G F M}
    (stage : t.stage = .offering op slot origin p) (stage' : t'.stage = .offering op slot' origin' p')
    (next : ∀ accepts s₁ s₁', v.Alongside Same s₁ s₁' →
      v.Catches env' Same id (t.filtered accepts, s₁) (t'.filtered accepts, s₁')) :
    v.Catches env' Same id (env.turn v.plain (t, s)) (env'.turn v.watched (t', s')) := by
  obtain ⟨accepts, s₁, s₁', asks, asks', scene⟩ := scene.ask (.filter m op) (agree.filter m op)
  rw [turn_filter stage serves asks, turn_filter stage' serves' asks']
  exact next accepts s₁ s₁' scene

include delegates in
/-- A call is offered to a handler, or else invoked. -/
theorem step_offeringCall {op : Operation G F} {slot slot' : HandlerSlot M}
    (kind : op.kind = callKind) (idle : Idle fs) (lines : v.Lines slot slot')
    (handed : v.Handed fs fs' p p') :
    v.Catches env' Same id
      (env.turn v.plain (⟨id, false, fs, .ok .null, .offering op slot origin p⟩, s))
      (env'.turn v.watched (⟨id, false, fs', .ok .null, .offering op slot' origin' p'⟩, s')) := by
  cases serves : slot.handler? with
  | some m =>
    have serves' := lines.handler?_eq.trans serves
    refine step_offered agree scene serves serves' rfl rfl fun accepts s₁ s₁' scene => ?_
    cases accepts with
    | true => exact .now (.handling op idle lines handed) scene
    | false => exact catches_call delegates kind lines.comes idle handed scene
  | none =>
    have serves' := lines.handler?_eq.trans serves
    rcases Operation.of_callKind kind with ⟨func, args, rfl⟩ | ⟨payload, rfl⟩
    · obtain ⟨result, s₁, s₁', asks, asks', scene⟩ :=
        scene.ask (.invoke func args) (agree.invoke func args)
      rw [turn_invoke rfl serves asks, turn_invoke rfl serves' asks']
      cases result with
      | ok g => exact .now (follows_pushed idle handed g _ .none _ _) scene
      | error e => exact .now (follows_failed idle handed e) scene
    · rw [turn_core rfl serves rfl, turn_core rfl serves' rfl]
      exact .now (follows_failed idle handed _) scene

end Follows

/-- A task that has settled stays as it is. -/
theorem settled_iterate {registry : Registry M} {n n' : Nat} {r : Outcome} (later : n ≤ n')
    (settled : ((env.turn registry)^[n] x).1.stage = .settled r) :
    (env.turn registry)^[n'] x = (env.turn registry)^[n] x := by
  obtain ⟨k, rfl⟩ := Nat.exists_eq_add_of_le' later
  rw [Function.iterate_add_apply]
  exact Function.iterate_fixed (turn_settled settled) k

section Step

variable (delegates : v.Delegates Same env') (agree : env.Matches Same env')
include delegates agree

/-- Whatever the task does in one turn the observed one does in some turns, unless it is disturbed. -/
theorem Tracks.turn (h : v.Tracks Same id x x') (undisturbed : ¬ v.Disturbed x'.1) :
    v.Catches env' Same id (env.turn v.plain x) (env'.turn v.watched x') := by
  obtain ⟨t, s⟩ := x
  obtain ⟨t', s'⟩ := x'
  obtain ⟨follows, scene⟩ := h
  simp only at follows scene undisturbed
  cases follows with
  | fresh root =>
    exact .now (.dispatching root (List.forall_mem_nil _) .none (.yielded .nil)) scene
  | ready level idle unset =>
    cases level with
    | nil => exact .now (.settled _) scene
    | frame mirrors rest =>
      obtain rfl := unset (List.cons_ne_nil _ _)
      exact step_resumed agree scene mirrors idle rest
  | dispatching y idle origins seats =>
    rw [turn_dispatching rfl, turn_dispatching rfl]
    exact step_dispatching delegates scene idle origins seats
  | offering op slot idle kind other origins seats =>
    cases serves : slot.handler? with
    | none => exact step_core agree scene serves other idle origins seats undisturbed
    | some m =>
      refine step_offered agree scene serves serves rfl rfl fun accepts s₁ s₁' scene => ?_
      cases accepts with
      | true => exact .now (.handling op idle (.other slot (kind ▸ other)) (.seats seats)) scene
      | false => exact .now (.offering op slot.succ idle kind other origins seats) scene
  | offeringCall op origin origin' idle kind lines handed =>
    exact step_offeringCall delegates agree scene kind idle lines handed
  | handling op idle lines handed => exact step_handling agree scene idle lines handed
  | replacing inner mirrors idle origins watched =>
    rename_i f f' fs fs' origin origin'
    have retiring : v.Follows id _ _ := .retiring inner mirrors idle origins watched
    simp only [Surroundings.turn, Task.step, mirrors.defers, mirrors.name]
    cases f.defers.isEmpty with
    | true => exact .now retiring scene
    | false => exact .now retiring (scene.report _)
  | retiring inner mirrors idle origins watched =>
    exact step_retiring agree scene mirrors idle origins watched
  | reporting d inner idle origins watched =>
    exact .now (.dispatching _ idle origins (.yielded watched)) (scene.report d)
  | ended result level idle unset seats => exact step_ended scene result level idle unset seats
  | bared result stage waits idle running rest =>
    exact step_bared delegates scene result stage waits idle running rest
  | stranded result waits done rest =>
    obtain ⟨op, generator⟩ := waits.generator
    refine absurd (.strands rfl rfl waits.isOwn_eq generator ?_) undisturbed
    rwa [rest.beneath.heldOf_eq]
  | failed e prior done waits idle rest =>
    exact step_failed delegates scene e prior done waits idle rest
  | pushed mirrors idle handed => exact step_pushed scene mirrors idle handed
  | unwinding done mirrors idle rest => exact step_unwinding delegates scene done mirrors idle rest
  | settled outcome => exact .now (.settled outcome) scene

/-- A run and the same run with the observer, which goes on at least as long. -/
theorem Tracks.run (h : v.Tracks Same id x x')
    (undisturbed : ∀ n, ¬ v.Disturbed ((env'.turn v.watched)^[n] x').1) (n : Nat) :
    ∃ n', n ≤ n' ∧ v.Tracks Same id ((env.turn v.plain)^[n] x) ((env'.turn v.watched)^[n'] x') := by
  induction n with
  | zero => exact ⟨0, Nat.le_refl _, h⟩
  | succ n ih =>
    obtain ⟨n', later, tracks⟩ := ih
    obtain ⟨k, tracks⟩ := tracks.turn delegates agree (undisturbed n')
    refine ⟨k + (n' + 1), by omega, ?_⟩
    rwa [Function.iterate_succ_apply', Function.iterate_add_apply, Function.iterate_succ_apply']

/-- An observer is transparent in every run that it does not disturb: the task settles with it iff
it does without it, with the same outcome, and at any time all that was asked of generators,
functions and middleware, with all that they were resumed with, is what is asked with the observer
at some time, apart from what concerns the observer itself. -/
theorem transparent (id : TaskId) (root : Yielded G F) {state state' : σ}
    (same : Same state state') :
    let plain n := (env.turn v.plain)^[n] (.fresh id root, ⟨state, []⟩)
    let watched n := (env'.turn v.watched)^[n] (.fresh id root, ⟨state', []⟩)
    (∀ n, ¬ v.Disturbed (watched n).1) →
      (∀ r, (∃ n, (plain n).1.stage = .settled r) ↔ ∃ n, (watched n).1.stage = .settled r) ∧
      ∀ n, ∃ n', n ≤ n' ∧ v.Alongside Same (plain n).2 (watched n').2 := by
  intro plain watched undisturbed
  have begins : v.Tracks Same id (.fresh id root, ⟨state, []⟩) (.fresh id root, ⟨state', []⟩) :=
    ⟨.fresh root, same, .nil⟩
  have runs := begins.run delegates agree undisturbed
  refine ⟨fun r => ⟨fun ⟨n, settled⟩ => ?_, fun ⟨n, settled⟩ => ?_⟩, fun n => ?_⟩
  · obtain ⟨n', -, tracks⟩ := runs n
    exact ⟨n', (tracks.task.settled_iff r).1 settled⟩
  · obtain ⟨n', later, tracks⟩ := runs n
    refine ⟨n, (tracks.task.settled_iff r).2 ?_⟩
    rw [settled_iterate later settled]
    exact settled
  · obtain ⟨n', later, tracks⟩ := runs n
    exact ⟨n', later, tracks.scene⟩

end Step

end Observer

end EffectEngine
