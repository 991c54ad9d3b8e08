import EffectEngine.Proofs.Task.Run

/-!
# How an operation is dispatched

A `Dispatch` is a task that dispatches an operation, with all `Exchange`s with its surroundings
since it began to; `Dispatch.after` lets answers and cancellations come in any order. An operation
may be wrapped in layers that the dispatch undoes one after another (`Sheds`): each is offered to
its chain first, and undone by its built-in handling if nobody takes it. `Dispatch.traced` says
where a dispatch stands at any time (`Position`, `Ended`), and `Sheds.reached` that it gets through
the layers if the answers let it.
-/

namespace EffectEngine

variable {G F M : Type}

/-- What passes between a dispatch and its surroundings. -/
inductive Exchange (G F M : Type) where
  | filtered (middleware : M) (op : Operation G F) (accepts : Bool)
  | handled (middleware : M) (op : Operation G F) (result : Except Error G)
  | invoked (func : F) (args : List Value)
  | forked (root : Operation G F)
  /-- The generator of a replaced frame is resumed for its return. -/
  | retired (generator : G) (signal : Signal G F)
  | reported (d : Diagnostic)

namespace Task

/-- What a dispatch can go on with: its next move if it has not asked anything, an answer to what it
has asked, and a cancellation at any time. -/
def awaits (t : Task G F M) : Impulse G F → Bool
  | .move => match t.stage with
    | .dispatching .. | .replacing .. | .reporting .. => true
    | .offering _ slot _ _ | .handling _ slot _ => slot.handler?.isNone
    | _ => false
  | .filtered _ => match t.stage with
    | .offering _ slot _ _ => slot.handler?.isSome
    | _ => false
  | .handled _ => match t.stage with
    | .handling _ slot _ => slot.handler?.isSome
    | _ => false
  | .invoked _ => match t.stage with
    | .invoking _ => true
    | _ => false
  | .forked _ => match t.stage with
    | .forking _ => true
    | _ => false
  | .resumed .. => match t.stage with
    | .retiring .. => true
    | _ => false
  | .cancel => match t.stage with
    | .dispatching .. | .offering .. | .handling .. | .invoking _ | .forking _ | .replacing ..
    | .retiring .. | .reporting .. => true
    | _ => false

/-- All that a dispatch can go on with, apart from a cancellation. -/
theorem awaited {t : Task G F M} {i : Impulse G F} (awaits : t.awaits i = true)
    (other : i ≠ .cancel) :
    match t.stage with
    | .dispatching .. | .replacing .. | .reporting .. => i = .move
    | .offering _ slot _ _ => (i = .move ∧ slot.handler? = none) ∨
        ∃ m, slot.handler? = some m ∧ ∃ accepts, i = .filtered accepts
    | .handling _ slot _ => (i = .move ∧ slot.handler? = none) ∨
        ∃ m, slot.handler? = some m ∧ ∃ result, i = .handled result
    | .invoking _ => ∃ result, i = .invoked result
    | .forking _ => ∃ child, i = .forked child
    | .retiring .. => ∃ signal g, i = .resumed signal g
    | _ => False := by
  cases i with
  | cancel => exact absurd rfl other
  | _ =>
    simp only [Task.awaits] at awaits
    split at awaits <;> simp_all [Option.isSome_iff_exists]

end Task

/-- What a request and the impulse that follows pass between a task and its surroundings. -/
def Request.exchange? (request : Request G F M) (i : Impulse G F) : Option (Exchange G F M) :=
  match request, i with
  | .invoke func args, .move => some (.invoked func args)
  | .fork root, .move => some (.forked root)
  | .report d, .move => some (.reported d)
  | .filter middleware op, .filtered accepts => some (.filtered middleware op accepts)
  | .handle middleware op, .handled result => some (.handled middleware op result)
  | .retire generator, .resumed signal _ => some (.retired generator signal)
  | _, _ => none

structure Dispatch (G F M : Type) where
  task : Task G F M
  exchanges : List (Exchange G F M)

namespace Dispatch

/-- A task is about to dispatch an operation. -/
def begin (t : Task G F M) (op : Operation G F) (origin : Option (HandlerSlot M))
    (p : Purpose) : Dispatch G F M :=
  ⟨t.become (.dispatching (.operation op) origin p), []⟩

variable [Named G] (registry : Registry M)

/-- What the dispatch does not wait for is lost on it, as is everything once it has ended. -/
def take (d : Dispatch G F M) (i : Impulse G F) : Dispatch G F M :=
  if d.task.awaits i then
    ⟨d.task.take registry i, d.exchanges ++ ((d.task.step registry).2.exchange? i).toList⟩
  else d

def after (d : Dispatch G F M) (impulses : List (Impulse G F)) : Dispatch G F M :=
  impulses.foldl (take registry) d

theorem after_induction {P : Dispatch G F M → Prop} {d : Dispatch G F M} (h : P d)
    (step : ∀ d i, P d → P (d.take registry i)) (impulses : List (Impulse G F)) :
    P (d.after registry impulses) := by
  induction impulses generalizing d with
  | nil => exact h
  | cons i rest ih => exact ih (step d i h)

theorem after_append (d : Dispatch G F M) (is js : List (Impulse G F)) :
    d.after registry (is ++ js) = (d.after registry is).after registry js :=
  List.foldl_append

end Dispatch

/-! ### Where an operation is offered first -/

namespace HandlerSlot

/-- The middleware from a place on. -/
def rest (s : HandlerSlot M) : List M := s.handlers.drop s.index

def onward (s : HandlerSlot M) (k : Nat) : HandlerSlot M := { s with index := s.index + k }

theorem handler?_onward (s : HandlerSlot M) (k : Nat) : (s.onward k).handler? = s.rest[k]? := by
  simp only [handler?, onward, rest, List.getElem?_drop]

end HandlerSlot

namespace Registry

/-- What a dispatch offers first, and to whom: an operation to its whole chain, and the operation
inside `next` to those that come after the handler frame that yielded it. -/
def entry (registry : Registry M) (origin : Option (HandlerSlot M)) :
    Operation G F → Except Error (Operation G F × HandlerSlot M)
  | .next inner =>
    match origin with
    | none => .error .nextOutsideHandler
    | some slot =>
      if inner.kind = slot.kind then .ok (inner, slot.onward 1)
      else .error (.nextKindMismatch slot.kind inner.kind)
  | op => .ok (op, ⟨op.kind, registry.handlers op.kind, 0⟩)

end Registry

namespace Exchange

/-- The middleware declines an operation, one after the other. -/
def declines (op : Operation G F) (ms : List M) : List (Exchange G F M) :=
  ms.map fun m => .filtered m op false

theorem declines_snoc (op : Operation G F) {ms : List M} {k : Nat} {m : M} (h : ms[k]? = some m) :
    declines op (ms.take (k + 1)) = declines op (ms.take k) ++ [.filtered m op false] := by
  simp only [declines, List.take_add_one, h, List.map_append]
  rfl

/-- The report on the deferred operations that a replaced frame leaves undone, if it does. -/
def skipped (id : TaskId) (f : Frame G F M) : List (Exchange G F M) :=
  if f.defers.isEmpty then [] else [.reported (.skippedDefers id f.name f.defers.length)]

/-- What is reported about how a replaced frame took its return. -/
def complaint? (id : TaskId) (f : Frame G F M) : Signal G F → Option Diagnostic
  | .complete (.ok _) | .complete (.error .interrupted) => none
  | .complete (.error e) => some (.failedTermination id f.name e.message)
  | .yielded _ => some (.unfinishedTermination id f.name)

/-- A frame that is replaced has its generator resumed once, for its return. -/
def retirement (id : TaskId) (f : Frame G F M) (signal : Signal G F) : List (Exchange G F M) :=
  skipped id f ++ .retired f.generator signal :: (complaint? id f signal).toList.map .reported

end Exchange

namespace Operation

/-- Why an operation cannot replace the top frame. -/
def refusal? (inner : Operation G F) (frames : List (Frame G F M)) : Option Error :=
  if inner.needsFrame then some (.forbiddenTerminal inner.kind)
  else match frames with
    | [] => some (.usage terminalKind "no frame to replace")
    | f :: _ =>
      if f.completed then some (.usage terminalKind "the frame has already completed") else none

theorem refusal?_eq_none {inner : Operation G F} {frames : List (Frame G F M)} :
    inner.refusal? frames = none ↔
      inner.needsFrame = false ∧ ∃ f rest, frames = f :: rest ∧ f.completed = false := by
  unfold refusal?
  split
  · simp_all
  · cases frames <;> simp_all

/-- With which error the built-in handling of an operation fails at once. -/
def failure? (op : Operation G F) (frames : List (Frame G F M)) : Option Error :=
  match op, frames with
  | .defer _, [] => some (.usage deferKind "no frame to attach the operation to")
  | .terminal inner, frames => inner.refusal? frames
  | .next _, _ => some .nextOutsideHandler
  | .custom kind _, _ => some (.unrecognizedOperation kind)
  | _, _ => none

end Operation

namespace Task

variable {t u : Task G F M}

def cancelled (t : Task G F M) : Task G F M :=
  { t with canceled := true, frames := t.frames.map fun f => { f with mark := f.mark.cancel } }

/-- A task has come to another stage, and has been cancelled meanwhile or not. -/
inductive Still (t : Task G F M) : Task G F M → Prop
  | same (s : Stage G F M) : Still t (t.become s)
  | cancelled (s : Stage G F M) (uncanceled : t.canceled = false) : Still t (t.cancelled.become s)

theorem stage_requestCancel : u.requestCancel.2.stage = u.stage := by
  unfold requestCancel
  split <;> rfl

namespace Still

theorem become (h : Still t u) (s : Stage G F M) : Still t (u.become s) := by
  cases h with
  | same => exact .same s
  | cancelled _ uncanceled => exact .cancelled s uncanceled

theorem requestCancel (h : Still t u) : Still t u.requestCancel.2 := by
  unfold Task.requestCancel
  split
  · exact h
  · rename_i free
    cases h with
    | same s =>
      simp only [Task.become, Bool.or_eq_true, not_or, Bool.not_eq_true] at free
      exact .cancelled s free.2
    | cancelled s => simp [Task.become, Task.cancelled] at free

theorem id_eq (h : Still t u) : u.id = t.id := by
  cases h <;> rfl

theorem frames_nil (h : Still t u) : u.frames = [] ↔ t.frames = [] := by
  cases h with
  | same => exact Iff.rfl
  | cancelled => exact List.map_eq_nil_iff

/-- The top frame is the same but for its mark, and so is all that is below it. -/
theorem top (h : Still t u) {f : Frame G F M} {rest : List (Frame G F M)}
    (frames : u.frames = f :: rest) : ∃ f₀ rest₀ mark, t.frames = f₀ :: rest₀ ∧
      f = { f₀ with mark } ∧
        ∀ s, Still { t with frames := rest₀ } { u with frames := rest, stage := s } := by
  cases h with
  | same => exact ⟨f, rest, f.mark, frames, rfl, fun s => .same s⟩
  | cancelled _ uncanceled =>
    obtain ⟨f₀, rest₀, before, rfl, rfl⟩ := List.map_eq_cons_iff.1 frames
    exact ⟨f₀, rest₀, f₀.mark.cancel, before, rfl, fun s => .cancelled s uncanceled⟩

theorem refusal?_eq (h : Still t u) (inner : Operation G F) :
    inner.refusal? u.frames = inner.refusal? t.frames := by
  unfold Operation.refusal?
  split
  · rfl
  · rcases frames : u.frames with _ | ⟨f, rest⟩
    · rw [h.frames_nil.1 frames]
    · obtain ⟨f₀, rest₀, mark, before, rfl, -⟩ := h.top frames
      rw [before]

end Still

end Task

/-! ### Layers -/

section Layers

variable (registry : Registry M) (origin : Option (HandlerSlot M))

open Exchange

/-- Nobody takes the outermost layer of an operation, and its built-in handling undoes it: `start`
and `next` are just left off, while for `terminal` the top frame goes. -/
inductive Undone (t : Task G F M) (op : Operation G F) :
    List (Exchange G F M) → Task G F M → Operation G F → Prop
  | start {inner : Operation G F} {slot : HandlerSlot M}
    (entry : registry.entry origin op = .ok (.start inner, slot)) :
    Undone t op (declines (.start inner) slot.rest) t inner
  | terminal {inner : Operation G F} {slot : HandlerSlot M} {f : Frame G F M}
    {rest : List (Frame G F M)} (entry : registry.entry origin op = .ok (.terminal inner, slot))
    (frames : t.frames = f :: rest) (allowed : inner.refusal? t.frames = none)
    (signal : Signal G F) :
    Undone t op (declines (.terminal inner) slot.rest ++ retirement t.id f signal)
      { t with frames := rest } inner

/-- Some of the layers of an operation are undone, from the outermost one on. -/
inductive Sheds (t : Task G F M) (op : Operation G F) :
    List (Exchange G F M) → Task G F M → Operation G F → Prop
  | none : Sheds t op [] t op
  | more {u v : Task G F M} {op' op'' : Operation G F} {xs ys : List (Exchange G F M)}
    (before : Sheds t op xs u op') (undone : Undone registry origin u op' ys v op'') :
    Sheds t op (xs ++ ys) v op''

variable {registry origin} in
theorem Sheds.trans {t u v : Task G F M} {op op' op'' : Operation G F}
    {xs ys : List (Exchange G F M)} (h : Sheds registry origin t op xs u op')
    (h' : Sheds registry origin u op' ys v op'') : Sheds registry origin t op (xs ++ ys) v op'' := by
  induction h' with
  | none => exact (List.append_nil xs).symm ▸ h
  | more before undone ih => exact List.append_assoc .. ▸ ih.more undone

variable (p : Purpose)

/-- Where the dispatch of the outermost layer of an operation can stand, what has passed since it
began, and what is left of the task. -/
inductive Position (t : Task G F M) (op : Operation G F) :
    List (Exchange G F M) → Task G F M → Stage G F M → Prop
  | begun : Position t op [] t (.dispatching (.operation op) origin p)
  /-- The first `k` in the chain have declined. -/
  | offering {op' : Operation G F} {slot : HandlerSlot M} (k : Nat)
    (entry : registry.entry origin op = .ok (op', slot)) (bound : k ≤ slot.rest.length) :
    Position t op (declines op' (slot.rest.take k)) t (.offering op' (slot.onward k) origin p)
  /-- The first `k` in the chain have declined, and the next one accepts. -/
  | handling {op' : Operation G F} {slot : HandlerSlot M} (k : Nat) {m : M}
    (entry : registry.entry origin op = .ok (op', slot)) (handler : slot.rest[k]? = some m) :
    Position t op (declines op' (slot.rest.take k) ++ [.filtered m op' true]) t
      (.handling op' (slot.onward k) p)
  | invoking {func : F} {args : List Value} {slot : HandlerSlot M}
    (entry : registry.entry origin op = .ok (.call func args, slot)) :
    Position t op (declines (.call func args) slot.rest ++ [.invoked func args]) t (.invoking p)
  | forking {inner : Operation G F} {slot : HandlerSlot M}
    (entry : registry.entry origin op = .ok (.fork inner, slot)) :
    Position t op (declines (.fork inner) slot.rest ++ [.forked inner]) t (.forking p)
  | replacing {inner : Operation G F} {slot : HandlerSlot M} {f : Frame G F M}
    {rest : List (Frame G F M)} (entry : registry.entry origin op = .ok (.terminal inner, slot))
    (frames : t.frames = f :: rest) (allowed : inner.refusal? t.frames = none) (mark : Mark) :
    Position t op (declines (.terminal inner) slot.rest) { t with frames := rest }
      (.replacing { f with mark } inner origin p)
  | retiring {inner : Operation G F} {slot : HandlerSlot M} {f : Frame G F M}
    {rest : List (Frame G F M)} (entry : registry.entry origin op = .ok (.terminal inner, slot))
    (frames : t.frames = f :: rest) (allowed : inner.refusal? t.frames = none) (mark : Mark) :
    Position t op (declines (.terminal inner) slot.rest ++ skipped t.id f) { t with frames := rest }
      (.retiring { f with mark } inner origin p)
  | reporting {inner : Operation G F} {slot : HandlerSlot M} {f : Frame G F M}
    {rest : List (Frame G F M)} (entry : registry.entry origin op = .ok (.terminal inner, slot))
    (frames : t.frames = f :: rest) (allowed : inner.refusal? t.frames = none)
    {signal : Signal G F} {d : Diagnostic} (complains : complaint? t.id f signal = some d) :
    Position t op
      (declines (.terminal inner) slot.rest ++ skipped t.id f ++ [.retired f.generator signal])
      { t with frames := rest } (.reporting d inner origin p)

variable [Named G]

/-- How the dispatch of an operation can end with its outermost layer, and what has passed since
that began. -/
inductive Ended (t : Task G F M) (op : Operation G F) : List (Exchange G F M) → Task G F M → Prop
  | misdirected {u : Task G F M} {e : Error} (entry : registry.entry origin op = .error e)
    (still : t.Still u) : Ended t op [] (u.become (.dispatched (.error e) p))
  | refused {u : Task G F M} {op' : Operation G F} {slot : HandlerSlot M} (k : Nat) {m : M}
    (entry : registry.entry origin op = .ok (op', slot)) (handler : slot.rest[k]? = some m)
    (e : Error) (still : t.Still u) :
    Ended t op (declines op' (slot.rest.take k) ++
      [.filtered m op' true, .handled m op' (.error e)]) (u.become (.dispatched (.error e) p))
  | handled {u : Task G F M} {op' : Operation G F} {slot : HandlerSlot M} (k : Nat) {m : M}
    (entry : registry.entry origin op = .ok (op', slot)) (handler : slot.rest[k]? = some m)
    (g : G) (still : t.Still u) :
    Ended t op (declines op' (slot.rest.take k) ++
      [.filtered m op' true, .handled m op' (.ok g)])
      (u.push g (Task.handlerName slot.kind) (some (slot.onward k)) p)
  /-- Nobody takes the operation, and its built-in handling fails. -/
  | failed {u : Task G F M} {op' : Operation G F} {slot : HandlerSlot M}
    (entry : registry.entry origin op = .ok (op', slot)) {e : Error}
    (fails : op'.failure? t.frames = some e) (still : t.Still u) :
    Ended t op (declines op' slot.rest) (u.become (.dispatched (.error e) p))
  | invoked {u : Task G F M} {func : F} {args : List Value} {slot : HandlerSlot M}
    (entry : registry.entry origin op = .ok (.call func args, slot)) (still : t.Still u)
    (result : Except Error G) :
    Ended t op (declines (.call func args) slot.rest ++ [.invoked func args])
      ((u.become (.invoking p)).invoked result)
  | executed {u : Task G F M} {g : G} {slot : HandlerSlot M}
    (entry : registry.entry origin op = .ok (.execute g, slot)) (still : t.Still u) :
    Ended t op (declines (.execute g) slot.rest) (u.pushPlain g p)
  | forked {u : Task G F M} {inner : Operation G F} {slot : HandlerSlot M}
    (entry : registry.entry origin op = .ok (.fork inner, slot)) (still : t.Still u)
    (child : TaskId) :
    Ended t op (declines (.fork inner) slot.rest ++ [.forked inner])
      ((u.become (.forking p)).forked child)
  | registered {u : Task G F M} {inner : Operation G F} {slot : HandlerSlot M} {f : Frame G F M}
    {rest : List (Frame G F M)} (entry : registry.entry origin op = .ok (.defer inner, slot))
    (still : t.Still u) (frames : u.frames = f :: rest) :
    Ended t op (declines (.defer inner) slot.rest) { u with
      frames := { f with defers := inner :: f.defers } :: rest
      stage := .dispatched (.ok ()) p }
  | recovered {u : Task G F M} {slot : HandlerSlot M}
    (entry : registry.entry origin op = .ok (.recover, slot)) (still : t.Still u) :
    Ended t op (declines .recover slot.rest) (u.recover.become (.dispatched (.ok ()) p))

/-- Where the dispatch of an operation stands with its outermost layer. -/
inductive Stands (t : Task G F M) (op : Operation G F) : List (Exchange G F M) → Task G F M → Prop
  | underway {xs : List (Exchange G F M)} {base u : Task G F M}
    (position : Position registry origin p t op xs base u.stage) (still : base.Still u) :
    Stands t op xs u
  | ended {xs : List (Exchange G F M)} {u : Task G F M}
    (ended : Ended registry origin p t op xs u) : Stands t op xs u

end Layers

section Steps

open Exchange

variable [Named G] {registry : Registry M} {origin : Option (HandlerSlot M)} {p : Purpose}
  {t u : Task G F M} {op op' inner : Operation G F} {slot : HandlerSlot M}
  {xs : List (Exchange G F M)} {k : Nat} {m : M}

namespace Task

theorem dispatch_of_entry (entry : registry.entry origin op = .ok (op', slot)) :
    u.dispatch registry (.operation op) origin p = u.become (.offering op' slot origin p) := by
  cases op with
  | next inner =>
    cases origin with
    | none => cases entry
    | some slot₀ =>
      simp only [Registry.entry] at entry
      split at entry
      · rename_i same
        obtain ⟨rfl, rfl⟩ := Prod.mk.inj (Except.ok.inj entry)
        simp only [Task.dispatch, beq_iff_eq, if_pos same]
        rfl
      · cases entry
  | call | execute | fork | defer | recover | terminal | start | custom =>
    obtain ⟨rfl, rfl⟩ := Prod.mk.inj (Except.ok.inj entry)
    rfl

theorem dispatch_of_error {e : Error} (entry : registry.entry origin op = .error e) :
    u.dispatch registry (.operation op) origin p = u.become (.dispatched (.error e) p) := by
  cases op with
  | next inner =>
    cases origin with
    | none => cases entry; rfl
    | some slot₀ =>
      simp only [Registry.entry] at entry
      split at entry
      · cases entry
      · rename_i other
        cases entry
        simp only [Task.dispatch, beq_iff_eq, if_neg other]
  | call | execute | fork | defer | recover | terminal | start | custom => cases entry

theorem core_refused {e : Error} (refused : inner.refusal? u.frames = some e) :
    u.core (.terminal inner) origin p = (u.become (.dispatched (.error e) p), .silent) := by
  unfold Operation.refusal? at refused
  unfold Task.core
  split at refused
  · rename_i forbidden
    cases refused
    exact if_pos forbidden
  · rename_i plain
    refine (if_neg plain).trans ?_
    cases frames : u.frames with
    | nil =>
      rw [frames] at refused
      cases refused
      rfl
    | cons f rest =>
      rw [frames] at refused
      by_cases completed : f.completed = true
      · obtain rfl := Option.some.inj ((if_pos completed).symm.trans refused)
        exact if_pos completed
      · cases (if_neg completed).symm.trans refused

theorem core_replaces {f : Frame G F M} {rest : List (Frame G F M)}
    (allowed : inner.refusal? u.frames = none) (frames : u.frames = f :: rest) :
    u.core (.terminal inner) origin p =
      ({ u with frames := rest, stage := .replacing f inner origin p }, .silent) := by
  obtain ⟨plain, f', rest', frames', running⟩ := Operation.refusal?_eq_none.1 allowed
  obtain ⟨rfl, rfl⟩ := List.cons.inj (frames.symm.trans frames')
  simp only [Task.core, plain, frames, running]
  rfl

/-- The built-in handling finds just custom operations unrecognized. -/
theorem core_unrecognized {kind : String} :
    u.core op origin p = (u.become (.dispatched (.error (.unrecognizedOperation kind)) p), .silent) ↔
      ∃ payload, op = .custom kind payload := by
  constructor
  · intro fails
    have stage := congrArg (fun move => move.1.stage) fails
    cases op with
    | custom kind' payload =>
      cases stage
      exact ⟨payload, rfl⟩
    | defer inner =>
      simp only [Task.core] at stage
      split at stage <;> cases stage
    | terminal inner =>
      cases refused : inner.refusal? u.frames with
      | some e =>
        rw [core_refused refused] at stage
        cases stage
        unfold Operation.refusal? at refused
        split at refused
        · cases refused
        · split at refused
          · cases refused
          · split at refused <;> cases refused
      | none =>
        obtain ⟨-, f, rest, frames, -⟩ := Operation.refusal?_eq_none.1 refused
        rw [core_replaces refused frames] at stage
        cases stage
    | call | execute | fork | start | recover | next => cases stage
  · rintro ⟨payload, rfl⟩
    rfl

omit [Named G] in
theorem retired_eq (f : Frame G F M) (mark : Mark)
    (stage : u.stage = .retiring { f with mark } inner origin p) (signal : Signal G F) :
    u.retired signal = match complaint? u.id f signal with
      | none => u.become (.dispatching (.operation inner) origin p)
      | some d => u.become (.reporting d inner origin p) := by
  simp only [Task.retired, stage]
  cases signal with
  | yielded y => rfl
  | complete outcome =>
    cases outcome with
    | ok v => rfl
    | error e => cases e <;> rfl

end Task

theorem Ended.stage (h : Ended registry origin p t op xs u) :
    ∃ result, u.stage = .dispatched result p := by
  cases h with
  | misdirected | refused | failed => exact ⟨_, rfl⟩
  | handled | executed | registered | recovered => exact ⟨_, rfl⟩
  | invoked entry still result => cases result <;> exact ⟨_, rfl⟩
  | forked => exact ⟨_, rfl⟩

/-- A dispatch that has ended waits for nothing. -/
theorem Ended.awaits (h : Ended registry origin p t op xs u) (i : Impulse G F) :
    u.awaits i = false := by
  obtain ⟨result, stage⟩ := h.stage
  cases i <;> simp only [Task.awaits, stage]

/-- What the impulse leads to: the dispatch goes on with the same layer or the next one. -/
def Goes (registry : Registry M) (origin : Option (HandlerSlot M)) (p : Purpose) (t : Task G F M)
    (op : Operation G F) (xs : List (Exchange G F M)) (u : Task G F M) : Prop :=
  Stands registry origin p t op xs u ∨ ∃ t' op', Undone registry origin t op xs t' op' ∧
    t'.Still u ∧ u.stage = .dispatching (.operation op') origin p

theorem Stands.goes (h : Stands registry origin p t op xs u) : Goes registry origin p t op xs u :=
  .inl h

theorem Goes.silent (h : Goes registry origin p t op xs u) :
    Goes registry origin p t op (xs ++ []) u := (List.append_nil xs).symm ▸ h

/-- An operation that nobody takes is left to its built-in handling. -/
theorem goes_core (entry : registry.entry origin op = .ok (op', slot)) (still : t.Still u) :
    Goes registry origin p t op
      (declines op' slot.rest ++ ((u.core op' origin p).2.exchange? .move).toList)
      (u.core op' origin p).1 := by
  cases op' with
  | call func args => exact (Stands.underway (.invoking entry) (still.become _)).goes
  | execute g => exact (Stands.ended (.executed entry still)).goes.silent
  | fork inner => exact (Stands.underway (.forking entry) (still.become _)).goes
  | defer inner =>
    unfold Task.core
    rcases frames : u.frames with _ | ⟨f, rest⟩
    · have fails : (Operation.defer inner : Operation G F).failure? t.frames =
          some (.usage deferKind "no frame to attach the operation to") := by
        rw [still.frames_nil.1 frames]
        rfl
      exact (Stands.ended (.failed entry fails still)).goes.silent
    · exact (Stands.ended (.registered entry still frames)).goes.silent
  | recover => exact (Stands.ended (.recovered entry still)).goes.silent
  | terminal inner =>
    cases refused : inner.refusal? u.frames with
    | some e =>
      have fails := (still.refusal?_eq inner).symm.trans refused
      rw [Task.core_refused refused]
      exact (Stands.ended (.failed entry fails still)).goes.silent
    | none =>
      obtain ⟨-, f, rest, frames, -⟩ := Operation.refusal?_eq_none.1 refused
      have allowed := (still.refusal?_eq inner).symm.trans refused
      obtain ⟨f₀, rest₀, mark, before, rfl, below⟩ := still.top frames
      rw [Task.core_replaces refused frames]
      exact (Stands.underway (.replacing entry before allowed mark) (below _)).goes.silent
  | start inner =>
    exact .inr ⟨t, inner, (List.append_nil (declines _ _)).symm ▸ .start entry, still.become _, rfl⟩
  | next inner => exact (Stands.ended (.failed entry rfl still)).goes.silent
  | custom kind payload => exact (Stands.ended (.failed entry rfl still)).goes.silent

/-- Wherever the dispatch stands, it goes on. -/
theorem Position.goes {base : Task G F M} (h : Position registry origin p t op xs base u.stage)
    (still : base.Still u) {i : Impulse G F} (awaits : u.awaits i = true) :
    Goes registry origin p t op (xs ++ ((u.step registry).2.exchange? i).toList)
      (u.take registry i) := by
  by_cases cancels : i = .cancel
  · subst cancels
    have silent : (u.step registry).2.exchange? .cancel = none := by
      cases (u.step registry).2 <;> rfl
    rw [silent]
    refine (Stands.underway ?_ still.requestCancel).goes.silent
    exact Task.stage_requestCancel.symm ▸ h
  have awaited := Task.awaited awaits cancels
  generalize stage : u.stage = s at h awaited
  cases h with
  | begun =>
    obtain rfl := awaited
    have steps : u.step registry = (u.dispatch registry (.operation op) origin p, .silent) := by
      simp only [Task.step, stage]
    simp only [Task.take, steps]
    cases entry : registry.entry origin op with
    | error e =>
      rw [Task.dispatch_of_error entry]
      exact (Stands.ended (.misdirected entry still)).goes.silent
    | ok first =>
      obtain ⟨op', slot⟩ := first
      rw [Task.dispatch_of_entry entry]
      have offers : Position registry origin p t op [] t (.offering op' slot origin p) :=
        .offering 0 entry (Nat.zero_le _)
      exact (Stands.underway offers (still.become _)).goes.silent
  | @offering op' slot k entry bound =>
    have handler := slot.handler?_onward k
    rcases awaited with ⟨rfl, unhandled⟩ | ⟨m, serves, accepts, rfl⟩
    · have steps : u.step registry = u.core op' origin p := by
        simp only [Task.step, stage, unhandled]
      have last : slot.rest.take k = slot.rest :=
        List.take_of_length_le (List.getElem?_eq_none_iff.1 (handler.symm.trans unhandled))
      rw [last, Task.take, steps]
      exact goes_core entry still
    · have steps : u.step registry = (u, .filter m op') := by
        simp only [Task.step, stage, serves]
      have listed := handler.symm.trans serves
      simp only [Task.take, Task.filtered, steps, stage]
      cases accepts with
      | true => exact (Stands.underway (.handling k entry listed) (still.become _)).goes
      | false =>
        have further : k + 1 ≤ slot.rest.length := (List.getElem?_eq_some_iff.1 listed).1
        have position := Position.offering (p := p) (t := t) (k + 1) entry further
        rw [declines_snoc op' listed] at position
        exact (Stands.underway position (still.become _)).goes
  | @handling op' slot k m entry listed =>
    have handler := (slot.handler?_onward k).trans listed
    rcases awaited with ⟨-, unhandled⟩ | ⟨-, -, result, rfl⟩
    · cases handler.symm.trans unhandled
    · have steps : u.step registry = (u, .handle m op') := by
        simp only [Task.step, stage, handler]
      simp only [Task.take, Task.handled, steps, stage]
      rw [List.append_assoc]
      cases result with
      | ok g => exact (Stands.ended (.handled k entry listed g still)).goes
      | error e => exact (Stands.ended (.refused k entry listed e still)).goes
  | @invoking func args slot entry =>
    obtain ⟨result, rfl⟩ := awaited
    have ended := Ended.invoked (p := p) entry still result
    have same : u.become (.invoking p) = u := by rw [← stage]; rfl
    rw [same] at ended
    have steps : u.step registry = (u, .silent) := by simp only [Task.step, stage]
    simp only [Task.take, steps]
    exact (Stands.ended ended).goes.silent
  | @forking inner slot entry =>
    obtain ⟨child, rfl⟩ := awaited
    have ended := Ended.forked (p := p) entry still child
    have same : u.become (.forking p) = u := by rw [← stage]; rfl
    rw [same] at ended
    have steps : u.step registry = (u, .silent) := by simp only [Task.step, stage]
    simp only [Task.take, steps]
    exact (Stands.ended ended).goes.silent
  | @replacing inner slot f rest entry frames allowed mark =>
    obtain rfl := awaited
    have passes : ((u.step registry).2.exchange? .move).toList =
        (skipped t.id f : List (Exchange G F M)) := by
      simp only [Task.step, stage, skipped, still.id_eq]
      split <;> rfl
    have moved : (u.step registry).1 = u.become (.retiring { f with mark } inner origin p) := by
      simp only [Task.step, stage]
    rw [passes, Task.take, moved]
    exact (Stands.underway (.retiring entry frames allowed mark) (still.become _)).goes
  | @retiring inner slot f rest entry frames allowed mark =>
    obtain ⟨signal, g, rfl⟩ := awaited
    have steps : u.step registry = (u, .retire f.generator) := by simp only [Task.step, stage]
    have undone := Undone.terminal entry frames allowed signal
    rw [Task.take, steps, List.append_assoc]
    simp only [stage]
    have same : u.id = t.id := still.id_eq
    rw [Task.retired_eq f mark stage, same]
    cases complains : complaint? t.id f signal with
    | none =>
      simp only [retirement, complains] at undone
      exact .inr ⟨_, inner, undone, still.become _, rfl⟩
    | some d =>
      rw [← List.append_assoc]
      exact (Stands.underway (.reporting entry frames allowed complains) (still.become _)).goes
  | @reporting inner slot f rest entry frames allowed signal d complains =>
    obtain rfl := awaited
    have steps : u.step registry =
        (u.become (.dispatching (.operation inner) origin p), .report d) := by
      simp only [Task.step, stage]
    have undone := Undone.terminal entry frames allowed signal
    simp only [Task.take, steps]
    refine .inr ⟨_, inner, ?_, still.become _, rfl⟩
    simp only [retirement, complains] at undone
    rw [List.append_assoc, List.append_assoc]
    exact undone

/-- Some layers of the operation have been undone, and the dispatch stands with the next one. -/
def Dispatch.Traced (registry : Registry M) (origin : Option (HandlerSlot M)) (p : Purpose)
    (t : Task G F M) (op : Operation G F) (d : Dispatch G F M) : Prop :=
  ∃ xs t' op' ys, d.exchanges = xs ++ ys ∧ Sheds registry origin t op xs t' op' ∧
    Stands registry origin p t' op' ys d.task

theorem Dispatch.Traced.take {d : Dispatch G F M} (h : d.Traced registry origin p t op)
    (i : Impulse G F) : (d.take registry i).Traced registry origin p t op := by
  unfold Dispatch.take
  split
  · rename_i awaits
    obtain ⟨xs, t', op', ys, passed, sheds, stands⟩ := h
    rw [passed, List.append_assoc]
    cases stands with
    | ended ended => exact absurd awaits (by simp [ended.awaits])
    | underway position still =>
      rcases position.goes still awaits with stands | ⟨t'', op'', undone, still', stage⟩
      · exact ⟨xs, t', op', _, rfl, sheds, stands⟩
      · refine ⟨_, t'', op'', [], (List.append_nil _).symm, sheds.more undone, .underway ?_ still'⟩
        exact stage ▸ .begun
  · exact h

/-- At any time, some layers of the operation have been undone, and the dispatch stands with the
next one. -/
theorem Dispatch.traced (registry : Registry M) (t : Task G F M) (op : Operation G F)
    (origin : Option (HandlerSlot M)) (p : Purpose) (impulses : List (Impulse G F)) :
    ((Dispatch.begin t op origin p).after registry impulses).Traced registry origin p t op := by
  have begun : (Dispatch.begin t op origin p).Traced registry origin p t op :=
    ⟨[], t, op, [], rfl, .none, .underway .begun (.same _)⟩
  exact after_induction registry begun (fun d i traced => traced.take i) impulses

end Steps

/-! ### Getting on -/

section Progress

open Exchange

variable [Named G] {registry : Registry M} {origin : Option (HandlerSlot M)} {p : Purpose}
  {t t' u : Task G F M} {op op' inner : Operation G F} {slot : HandlerSlot M}
  {xs : List (Exchange G F M)} {k : Nat} {m : M}

namespace Dispatch

/-- What has passed before does not matter to what comes. -/
theorem after_mk (xs : List (Exchange G F M)) (impulses : List (Impulse G F)) :
    after registry ⟨t, xs⟩ impulses =
      ⟨(after registry ⟨t, []⟩ impulses).task, xs ++ (after registry ⟨t, []⟩ impulses).exchanges⟩ := by
  induction impulses generalizing t xs with
  | nil => exact congrArg (mk t) (List.append_nil xs).symm
  | cons i rest ih =>
    change after registry (take registry ⟨t, xs⟩ i) rest =
      ⟨(after registry (take registry ⟨t, []⟩ i) rest).task,
        xs ++ (after registry (take registry ⟨t, []⟩ i) rest).exchanges⟩
    unfold take
    simp only
    split
    · rw [ih (xs ++ _), ih ([] ++ _), List.append_assoc]
      rfl
    · exact ih xs

/-- The impulses after which a dispatch stands with the next layer. -/
def Passes (registry : Registry M) (origin : Option (HandlerSlot M)) (p : Purpose) (t : Task G F M)
    (op : Operation G F) (xs : List (Exchange G F M)) (u : Task G F M) : Prop :=
  ∃ impulses, (begin t op origin p).after registry impulses = ⟨u, xs⟩

theorem Passes.step (h : Passes registry origin p t op xs u) {i : Impulse G F}
    (awaits : u.awaits i = true) : Passes registry origin p t op
      (xs ++ ((u.step registry).2.exchange? i).toList) (u.take registry i) := by
  obtain ⟨impulses, reached⟩ := h
  refine ⟨impulses ++ [i], ?_⟩
  rw [after_append, reached]
  exact if_pos awaits

theorem Passes.andThen {ys : List (Exchange G F M)}
    (h : Passes registry origin p t op xs (t'.become (.dispatching (.operation op') origin p)))
    (passes : Passes registry origin p t' op' ys u) :
    Passes registry origin p t op (xs ++ ys) u := by
  obtain ⟨impulses, reached⟩ := h
  obtain ⟨more, passes⟩ := passes
  refine ⟨impulses ++ more, ?_⟩
  rw [after_append, reached, after_mk]
  exact congrArg (fun d : Dispatch G F M => (⟨d.task, xs ++ d.exchanges⟩ : Dispatch G F M)) passes

theorem passes_error {e : Error} (entry : registry.entry origin op = .error e) :
    Passes registry origin p t op [] (t.become (.dispatched (.error e) p)) := by
  refine ⟨[.move], ?_⟩
  change take registry (begin t op origin p) .move = _
  simp only [take, begin, Task.awaits, Task.become, Task.take, Task.step, if_true,
    Task.dispatch_of_error entry]
  rfl

theorem passes_offering (entry : registry.entry origin op = .ok (op', slot))
    (bound : k ≤ slot.rest.length) : Passes registry origin p t op
      (declines op' (slot.rest.take k)) (t.become (.offering op' (slot.onward k) origin p)) := by
  induction k with
  | zero =>
    refine ⟨[.move], ?_⟩
    change take registry (begin t op origin p) .move = _
    simp only [take, begin, Task.awaits, Task.become, Task.take, Task.step, if_true,
      Task.dispatch_of_entry entry]
    rfl
  | succ k ih =>
    have listed := List.getElem?_eq_getElem (Nat.lt_of_succ_le bound)
    have serves := (slot.handler?_onward k).trans listed
    have passes := (ih (Nat.le_of_succ_le bound)).step (i := .filtered false)
      (by simp only [Task.awaits, Task.become, serves, Option.isSome_some])
    rw [declines_snoc op' listed]
    simp only [Task.step, Task.become, serves] at passes
    exact passes

theorem passes_handling (entry : registry.entry origin op = .ok (op', slot))
    (handler : slot.rest[k]? = some m) : Passes registry origin p t op
      (declines op' (slot.rest.take k) ++ [.filtered m op' true])
      (t.become (.handling op' (slot.onward k) p)) := by
  have serves := (slot.handler?_onward k).trans handler
  have bound := Nat.le_of_lt (List.getElem?_eq_some_iff.1 handler).1
  have passes := (passes_offering (p := p) (t := t) entry bound).step (i := .filtered true)
    (by simp only [Task.awaits, Task.become, serves, Option.isSome_some])
  simp only [Task.step, Task.become, serves] at passes
  exact passes

theorem passes_handled (entry : registry.entry origin op = .ok (op', slot))
    (handler : slot.rest[k]? = some m) (result : Except Error G) : Passes registry origin p t op
      (declines op' (slot.rest.take k) ++ [.filtered m op' true, .handled m op' result])
      ((t.become (.handling op' (slot.onward k) p)).handled result) := by
  have serves := (slot.handler?_onward k).trans handler
  have passes := (passes_handling (p := p) (t := t) entry handler).step (i := .handled result)
    (by simp only [Task.awaits, Task.become, serves, Option.isSome_some])
  simp only [Task.step, Task.become, serves, List.append_assoc] at passes
  exact passes

theorem core_become (s : Stage G F M) : (t.become s).core op origin p = t.core op origin p := by
  obtain ⟨id, canceled, frames, root, stage⟩ := t
  cases op with
  | recover =>
    rcases frames with _ | ⟨top, _ | ⟨below, rest⟩⟩
    · rfl
    · rfl
    · simp only [Task.core, Task.recover, Task.become]
      split <;> rfl
  | _ => rfl

/-- An operation that nobody takes comes to its built-in handling. -/
theorem passes_core (entry : registry.entry origin op = .ok (op', slot)) :
    Passes registry origin p t op
      (declines op' slot.rest ++ ((t.core op' origin p).2.exchange? .move).toList)
      (t.core op' origin p).1 := by
  have passes := passes_offering (p := p) (t := t) entry (Nat.le_refl _)
  have last := slot.handler?_onward slot.rest.length
  rw [List.getElem?_eq_none_iff.2 (Nat.le_refl _)] at last
  have passes := passes.step (i := .move)
    (by simp only [Task.awaits, Task.become, last, Option.isNone_none])
  have steps : (t.become (.offering op' (slot.onward slot.rest.length) origin p)).step registry =
      t.core op' origin p := by
    rw [← core_become (.offering op' (slot.onward slot.rest.length) origin p)]
    simp only [Task.step, Task.become, last]
  rw [Task.take, steps, List.take_length] at passes
  exact passes

theorem Passes.replacing {f : Frame G F M}
    (h : Passes registry origin p t op xs (u.become (.replacing f inner origin p))) :
    Passes registry origin p t op (xs ++ skipped u.id f)
      (u.become (.retiring f inner origin p)) := by
  have reports : (((u.become (.replacing f inner origin p)).step registry).2.exchange?
      .move).toList = skipped u.id f := by
    simp only [Task.step, Task.become, skipped]
    split <;> rfl
  exact reports ▸ h.step (i := .move) rfl

theorem Passes.retiring {f : Frame G F M} (signal : Signal G F)
    (h : Passes registry origin p t op xs (u.become (.retiring f inner origin p))) :
    Passes registry origin p t op
      (xs ++ .retired f.generator signal :: (complaint? u.id f signal).toList.map .reported)
      (u.become (.dispatching (.operation inner) origin p)) := by
  have concludes : (u.become (.retiring f inner origin p)).retired signal =
      match complaint? u.id f signal with
        | none => u.become (.dispatching (.operation inner) origin p)
        | some d => u.become (.reporting d inner origin p) :=
    Task.retired_eq f f.mark rfl signal
  have retired : Passes registry origin p t op (xs ++ [.retired f.generator signal])
      ((u.become (.retiring f inner origin p)).retired signal) :=
    h.step (i := .resumed signal f.generator) rfl
  rw [concludes] at retired
  cases complains : complaint? u.id f signal with
  | none =>
    simp only [complains] at retired
    exact retired
  | some d =>
    simp only [complains] at retired
    have reported := retired.step (i := .move) rfl
    rw [List.append_assoc] at reported
    exact reported

/-- A layer that nobody takes is undone. -/
theorem passes_undone (h : Undone registry origin t op xs t' inner) :
    Passes registry origin p t op xs (t'.become (.dispatching (.operation inner) origin p)) := by
  cases h with
  | start entry =>
    have passes := passes_core (p := p) (t := t) entry
    exact List.append_nil (declines _ _) ▸ passes
  | @terminal inner slot f rest entry frames allowed signal =>
    let u : Task G F M := { t with frames := rest }
    have replaces : t.core (.terminal inner) origin p =
        (u.become (.replacing f inner origin p), .silent) := Task.core_replaces allowed frames
    have passes := passes_core (p := p) (t := t) entry
    rw [replaces] at passes
    rw [retirement, ← List.append_assoc]
    have silent : declines (.terminal inner) slot.rest ++ [] =
      (declines (.terminal inner) slot.rest : List (Exchange G F M)) := List.append_nil _
    exact (silent ▸ passes).replacing.retiring signal

end Dispatch

/-- If the answers let it, a dispatch gets through the layers. -/
theorem Sheds.reached (h : Sheds registry origin t op xs t' op') :
    Dispatch.Passes registry origin p t op xs
      (t'.become (.dispatching (.operation op') origin p)) := by
  induction h with
  | none => exact ⟨[], rfl⟩
  | more before undone ih => exact ih.andThen (Dispatch.passes_undone undone)

/-- What the dispatch of the next layer comes to, that of all layers comes to. -/
theorem Sheds.andThen {ys : List (Exchange G F M)} (h : Sheds registry origin t op xs t' op')
    (passes : Dispatch.Passes registry origin p t' op' ys u) :
    Dispatch.Passes registry origin p t op (xs ++ ys) u := h.reached.andThen passes

end Progress

end EffectEngine
