import EffectEngine.Proofs.Task.Dispatch
import EffectEngine.Proofs.Task.Settlement

/-!
# What a failed dispatch leaves behind

`Fails` lists the ways in which the dispatch of an operation fails, once the layers around it have
been undone. `Dispatch.Remains` says that a dispatch has taken the frames that `terminal` replaces
and has done nothing else to its task, and `Aftermath` what becomes of the task from then on up to
its next resumption. Every failed dispatch comes to this.
-/

namespace EffectEngine

variable {G F M : Type}

namespace Yielded

/-- A bare generator is dispatched like its execution. -/
def asOperation : Yielded G F → Operation G F
  | operation op => op
  | generator g => .execute g

end Yielded

/-- The generator of a frame that is replaced. -/
def Exchange.retired? : Exchange G F M → Option G
  | retired generator _ => some generator
  | _ => none

def Impulse.isMove : Impulse G F → Bool
  | move => true
  | _ => false

namespace Dispatch

/-- A task is about to dispatch what a generator yielded. -/
def yielding (t : Task G F M) (y : Yielded G F) (origin : Option (HandlerSlot M)) (p : Purpose) :
    Dispatch G F M := ⟨t.become (.dispatching y origin p), []⟩

/-- Of a task, the frames in `gone` have been replaced while they were running, the generator of
each having been resumed once, for its return. No task was forked, and apart from a cancellation
nothing has changed about `kept`, the frames that are left, and the rest of the task. -/
structure Remains (t : Task G F M) (gone kept : List (Frame G F M)) (d : Dispatch G F M) :
    Prop where
  frames : t.frames = gone ++ kept
  running : ∀ f ∈ gone, f.completed = false
  retired : d.exchanges.filterMap Exchange.retired? = gone.map (·.generator)
  unforked : ∀ root, .forked root ∉ d.exchanges
  still : ({ t with frames := kept } : Task G F M).Still d.task

end Dispatch

open Exchange

/-- The dispatch of an operation fails with its outermost layer: there is nowhere to hand it on to
by `next`, the middleware that takes it refuses, the called function refuses, or its built-in
handling fails. -/
inductive Fails (registry : Registry M) (origin : Option (HandlerSlot M)) (t : Task G F M)
    (op : Operation G F) : List (Exchange G F M) → Error → Prop
  | misdirected {e : Error} (entry : registry.entry origin op = .error e) :
    Fails registry origin t op [] e
  | refused {op' : Operation G F} {slot : HandlerSlot M} (k : Nat) {m : M}
    (entry : registry.entry origin op = .ok (op', slot)) (handler : slot.rest[k]? = some m)
    (e : Error) : Fails registry origin t op
      (declines op' (slot.rest.take k) ++ [.filtered m op' true, .handled m op' (.error e)]) e
  | uncalled {func : F} {args : List Value} {slot : HandlerSlot M}
    (entry : registry.entry origin op = .ok (.call func args, slot)) (e : Error) :
    Fails registry origin t op (declines (.call func args) slot.rest ++ [.invoked func args]) e
  | failed {op' : Operation G F} {slot : HandlerSlot M}
    (entry : registry.entry origin op = .ok (op', slot)) {e : Error}
    (fails : op'.failure? t.frames = some e) :
    Fails registry origin t op (declines op' slot.rest) e

section Layers

variable {registry : Registry M} {origin : Option (HandlerSlot M)} {p q : Purpose}
  {t u : Task G F M} {op op' : Operation G F} {xs ys : List (Exchange G F M)} {e : Error}

theorem filterMap_declines (op : Operation G F) (ms : List M) :
    (declines op ms).filterMap retired? = ([] : List G) := by
  simp [declines, retired?]

theorem not_forked_declines (root op : Operation G F) (ms : List M) :
    Exchange.forked root ∉ declines op ms := by simp [declines]

theorem filterMap_retirement (id : TaskId) (f : Frame G F M) (signal : Signal G F) :
    (retirement id f signal).filterMap retired? = [f.generator] := by
  unfold retirement skipped
  split <;> cases complaint? id f signal <;> rfl

theorem not_forked_retirement (root : Operation G F) (id : TaskId) (f : Frame G F M)
    (signal : Signal G F) : Exchange.forked root ∉ retirement id f signal := by
  unfold retirement skipped
  split <;> cases complaint? id f signal <;> simp

/-- Undoing layers takes frames away and does nothing else. -/
theorem Sheds.remains (h : Sheds registry origin t op xs u op') : ∃ gone,
    Dispatch.Remains t gone u.frames ⟨u, xs⟩ ∧ u = { t with frames := u.frames } := by
  induction h with
  | none => exact ⟨[], ⟨rfl, nofun, rfl, nofun, .same _⟩, rfl⟩
  | @more u v op' op'' xs ys before undone ih =>
    obtain ⟨gone, ⟨frames, running, retired, unforked, -⟩, same⟩ := ih
    cases undone with
    | start entry =>
      refine ⟨gone, ⟨frames, running, ?_, fun root forked => ?_, same ▸ .same _⟩, same⟩
      · rw [List.filterMap_append, filterMap_declines, List.append_nil, retired]
      · rcases List.mem_append.1 forked with forked | forked
        · exact unforked root forked
        · exact not_forked_declines _ _ _ forked
    | @terminal inner slot f rest entry top allowed signal =>
      obtain ⟨-, f', rest', top', unfinished⟩ := Operation.refusal?_eq_none.1 allowed
      obtain ⟨rfl, rfl⟩ := List.cons.inj (top.symm.trans top')
      refine ⟨gone ++ [f], ⟨?_, ?_, ?_, fun root forked => ?_, ?_⟩, ?_⟩
      · rw [frames, top, List.append_assoc, List.singleton_append]
      · intro g hg
        rcases List.mem_append.1 hg with hg | hg
        · exact running g hg
        · exact (List.mem_singleton.1 hg) ▸ unfinished
      · simp only [List.filterMap_append, filterMap_declines, filterMap_retirement, retired,
          List.map_append, List.nil_append, List.map_cons, List.map_nil]
      · rcases List.mem_append.1 forked with forked | forked
        · exact unforked root forked
        · rcases List.mem_append.1 forked with forked | forked
          · exact not_forked_declines _ _ _ forked
          · exact not_forked_retirement _ _ _ _ forked
      · rw [same]
        exact .same _
      · rw [same]

theorem Fails.filterMap_retired (h : Fails registry origin t op xs e) :
    xs.filterMap retired? = ([] : List G) := by
  cases h with
  | misdirected => rfl
  | refused | uncalled => simp [filterMap_declines, retired?]
  | failed => exact filterMap_declines _ _

theorem Fails.not_forked (h : Fails registry origin t op xs e) (root : Operation G F) :
    Exchange.forked root ∉ xs := by
  cases h with
  | misdirected => nofun
  | refused | uncalled => simp [not_forked_declines]
  | failed => exact not_forked_declines _ _ _

variable [Named G]

/-- A dispatch that has ended with an error has failed in one of these ways, and has left the task
as it was. -/
theorem Ended.fails (h : Ended registry origin p t op xs u)
    (stage : u.stage = .dispatched (.error e) q) : Fails registry origin t op xs e ∧ t.Still u := by
  cases h with
  | misdirected entry still => cases stage; exact ⟨.misdirected entry, still.become _⟩
  | refused k entry handler e' still =>
    cases stage; exact ⟨.refused k entry handler _, still.become _⟩
  | failed entry fails still => cases stage; exact ⟨.failed entry fails, still.become _⟩
  | invoked entry still result =>
    cases result with
    | ok g => cases stage
    | error e' => cases stage; exact ⟨.uncalled entry _, still.become _⟩
  | handled | executed | forked | registered | recovered => cases stage

end Layers

/-! ### From the yielded thing to the failure -/

section Yielded

variable [Named G] {registry : Registry M} {origin : Option (HandlerSlot M)} {p q : Purpose}
  {t u : Task G F M} {xs : List (Exchange G F M)} {e : Error}

namespace Dispatch

/-- Where the dispatch of a bare generator can stand: it has not begun, goes on as an execution if
there is middleware for that, or has ended with a frame. -/
theorem generator_traced (registry : Registry M) (t : Task G F M) (g : G)
    (origin : Option (HandlerSlot M)) (p : Purpose) (impulses : List (Impulse G F)) :
    let d := (yielding t (.generator g) origin p).after registry impulses
    (d.exchanges = [] ∧ t.Still d.task ∧ d.task.stage = .dispatching (.generator g) origin p) ∨
      d.Traced registry origin p t (.execute g) ∨ d.task.stage = .dispatched (.ok ()) p := by
  let stands (d : Dispatch G F M) : Prop :=
    (d.exchanges = [] ∧ t.Still d.task ∧ d.task.stage = .dispatching (.generator g) origin p) ∨
      d.Traced registry origin p t (.execute g) ∨ d.task.stage = .dispatched (.ok ()) p
  have begun : stands (yielding t (.generator g) origin p) := .inl ⟨rfl, .same _, rfl⟩
  refine after_induction (P := stands) registry begun (fun d i h => ?_) impulses
  unfold Dispatch.take
  split
  · rename_i awaits
    rcases h with ⟨nothing, still, stage⟩ | traced | stage
    · cases i with
      | resumed | filtered | handled | invoked | forked => simp [Task.awaits, stage] at awaits
      | cancel =>
        have silent : (d.task.step registry).2.exchange? .cancel = none := by
          cases (d.task.step registry).2 <;> rfl
        rw [nothing, silent]
        exact .inl ⟨rfl, still.requestCancel, Task.stage_requestCancel.trans stage⟩
      | move =>
        have steps : d.task.step registry =
            (d.task.dispatch registry (.generator g) origin p, .silent) := by
          simp only [Task.step, stage]
        rw [Task.take, steps, nothing]
        by_cases registered : registry.contains executeKind = true
        · have goes : d.task.dispatch registry (.generator g) origin p =
              d.task.become (.dispatching (.operation (.execute g)) origin p) := if_pos registered
          rw [goes]
          exact .inr (.inl ⟨[], t, _, [], rfl, .none, .underway .begun (still.become _)⟩)
        · have pushes : d.task.dispatch registry (.generator g) origin p = d.task.pushPlain g p :=
            if_neg registered
          rw [pushes]
          exact .inr (.inr rfl)
    · refine .inr (.inl ?_)
      have taken := traced.take i
      rw [Dispatch.take, if_pos awaits] at taken
      exact taken
    · cases i <;> simp [Task.awaits, stage] at awaits
  · exact h

/-- A dispatch that has failed has undone layers, and has failed with the next one. -/
theorem failed_cases {y : Yielded G F} {impulses : List (Impulse G F)}
    (failed : ((yielding t y origin p).after registry impulses).task.stage =
      .dispatched (.error e) q) :
    let d := (yielding t y origin p).after registry impulses
    ∃ xs ys u op, d.exchanges = xs ++ ys ∧ Sheds registry origin t y.asOperation xs u op ∧
      Fails registry origin u op ys e ∧ u.Still d.task := by
  intro d
  have traced : d.Traced registry origin p t y.asOperation := by
    cases y with
    | operation op => exact Dispatch.traced registry t op origin p impulses
    | generator g =>
      rcases generator_traced registry t g origin p impulses with ⟨-, -, stage⟩ | traced | stage
      · cases failed.symm.trans stage
      · exact traced
      · cases failed.symm.trans stage
  obtain ⟨xs, u, op, ys, passed, sheds, stands⟩ := traced
  cases stands with
  | underway position still =>
    rw [show d.task.stage = _ from failed] at position
    cases position
  | ended ended =>
    obtain ⟨fails, still⟩ := ended.fails failed
    exact ⟨xs, ys, u, op, passed, sheds, fails, still⟩

/-- Without a cancellation, a task is not cancelled. -/
theorem canceled_after {d : Dispatch G F M} {impulses : List (Impulse G F)}
    (calm : ∀ i ∈ impulses, i ≠ .cancel) :
    (d.after registry impulses).task.canceled = d.task.canceled := by
  induction impulses generalizing d with
  | nil => rfl
  | cons i rest ih =>
    obtain ⟨other, calm⟩ := List.forall_mem_cons.1 calm
    refine (ih (d := d.take registry i) calm).trans ?_
    unfold Dispatch.take
    split
    · exact (Task.take_eq registry d.task other).2
    · rfl

end Dispatch

omit [Named G] in
theorem Task.Still.calm (h : t.Still u) (same : u.canceled = t.canceled) :
    u = t.become u.stage := by
  cases h with
  | same => rfl
  | cancelled s uncanceled => cases same.trans uncanceled

omit [Named G] in
theorem Task.Still.fits (h : t.Still u) (fits : p.Fits t.frames) : p.Fits u.frames := by
  cases h with
  | same => exact fits
  | cancelled => exact fits.map_mark Mark.cancel

end Yielded

/-! ### Up to the next resumption -/

namespace Task

variable {t u : Task G F M} {es : List (StackEvent G F)} {outcome : Outcome}

/-- A task has come to another stage, and has been cancelled if that is among the events. -/
inductive Drifts (t : Task G F M) : List (StackEvent G F) → Task G F M → Prop
  | calm {es : List (StackEvent G F)} (s : Stage G F M) (none : .cancelled ∉ es) :
    Drifts t es (t.become s)
  | cancelled {es : List (StackEvent G F)} (s : Stage G F M) (one : .cancelled ∈ es) :
    Drifts t es (t.cancelled.become s)

theorem setCurrent_become (s : Stage G F M) :
    (t.become s).setCurrent outcome = (t.setCurrent outcome).become s := by
  obtain ⟨id, canceled, frames, root, stage⟩ := t
  cases frames <;> rfl

theorem setCurrent_cancelled :
    t.cancelled.setCurrent outcome = (t.setCurrent outcome).cancelled := by
  obtain ⟨id, canceled, frames, root, stage⟩ := t
  cases frames <;> rfl

theorem Drifts.setCurrent (h : t.Drifts es u) (outcome : Outcome) (s : Stage G F M) :
    (t.setCurrent outcome).Drifts es ((u.setCurrent outcome).become s) := by
  cases h with
  | calm s' none =>
    rw [setCurrent_become]
    exact .calm s none
  | cancelled s' one =>
    rw [setCurrent_become, setCurrent_cancelled]
    exact .cancelled s one

theorem Drifts.become (h : t.Drifts es u) (s : Stage G F M) : t.Drifts es (u.become s) := by
  cases h with
  | calm s' none => exact .calm s none
  | cancelled s' one => exact .cancelled s one

theorem Drifts.root_eq (h : t.Drifts es u) : u.root = t.root := by
  cases h <;> rfl

theorem Drifts.frames_nil (h : t.Drifts es u) (frames : t.frames = []) : u.frames = [] := by
  cases h with
  | calm => exact frames
  | cancelled => exact List.map_eq_nil_iff.2 frames

theorem Drifts.top (h : t.Drifts es u) {f : Frame G F M} {rest : List (Frame G F M)}
    (frames : t.frames = f :: rest) : ∃ mark rest', u.frames = { f with mark } :: rest' ∧
      (mark = f.mark ∨ .cancelled ∈ es ∧ mark = f.mark.cancel) := by
  cases h with
  | calm => exact ⟨f.mark, rest, frames, .inl rfl⟩
  | cancelled s one =>
    exact ⟨f.mark.cancel, _, congrArg (List.map _) frames, .inr ⟨one, rfl⟩⟩

theorem Drifts.snoc (h : t.Drifts es u) {x : StackEvent G F} (other : x ≠ .cancelled) :
    t.Drifts (es ++ [x]) u := by
  cases h with
  | calm s none => exact .calm s (by simp [none, other.symm])
  | cancelled s one => exact .cancelled s (List.mem_append_left _ one)

theorem Drifts.requestCancel (h : t.Drifts es u) :
    t.Drifts (es ++ if u.requestCancel.1 then [.cancelled] else []) u.requestCancel.2 := by
  unfold Task.requestCancel
  split
  · simpa using h
  · rename_i free
    cases h with
    | calm s none => exact .cancelled s (by simp)
    | cancelled s one =>
      have canceled : (t.cancelled.become s).canceled = true := rfl
      simp only [canceled, Bool.or_true, not_true_eq_false] at free

end Task

section Aftermath

variable {t u : Task G F M} {r : Run G F M} {e : Error} {n : Nat}

variable [Named G] (registry : Registry M)

/-- What can have become of a task since a dispatch on it failed with an error, and how many moves
it has still to make up to the next resumption. -/
inductive Aftermath (e : Error) (t : Task G F M) : Nat → Run G F M → Prop
  | failed {u : Task G F M} {es : List (StackEvent G F)} (drifts : t.Drifts es u)
    (stage : u.stage = .dispatched (.error e) .yielded) (quiet : ∀ x ∈ es, x = .cancelled) :
    Aftermath e t 2 ⟨u, es⟩
  /-- The error has become the outcome of the top frame, or of the task if it has no frame. -/
  | written {u : Task G F M} {es : List (StackEvent G F)}
    (drifts : (t.setCurrent (.error e)).Drifts es u) (stage : u.stage = .ready)
    (quiet : ∀ x ∈ es, x = .cancelled ∨ x = .stranded) : Aftermath e t 1 ⟨u, es⟩
  /-- The top frame was the first one that the task asked to resume, with the error, or for its
  return if its cancellation was pending by then. -/
  | resumed {u due : Task G F M} {es more : List (StackEvent G F)} {f : Frame G F M}
    {rest : List (Frame G F M)} (mark : Mark) (frames : t.frames = f :: rest)
    (marked : mark = f.mark ∨ .cancelled ∈ es ∧ mark = f.mark.cancel)
    (quiet : ∀ x ∈ es, x = .cancelled ∨ x = .stranded)
    (drifts : (t.setCurrent (.error e)).Drifts es due)
    (asked : (due.step registry).2 =
      .resume f.generator (if mark = .pending then .forcedReturn else .throw e)) :
    Aftermath e t 0
      ⟨u, es ++ .resumed (if mark = .pending then .forcedReturn else .throw e) :: more⟩
  /-- Without frames, the task has settled with the error, or with its cancellation. -/
  | settled {u : Task G F M} {es : List (StackEvent G F)} (frames : t.frames = [])
    (drifts : ({ t with root := .error e } : Task G F M).Drifts es u)
    (stage : u.stage = .settled (if u.canceled then .error .cancelled else .error e)) :
    Aftermath e t 0 ⟨u, es⟩

variable {registry}

/-- A task about to move waits for nothing else. -/
theorem Task.take_of_moving (registry : Registry M)
    (stage : u.stage = .ready ∨ ∃ result p, u.stage = .dispatched result p) {i : Impulse G F}
    (notMove : i.isMove = false) (notCancel : i ≠ .cancel) :
    u.take registry i = u ∧ u.observe registry i = [] := by
  suffices same : u.take registry i = u by
    refine ⟨same, observe_eq_nil same ?_⟩
    cases i <;> first | rfl | cases notMove
  rcases stage with stage | ⟨result, p, stage⟩ <;> cases i with
  | move => cases notMove
  | cancel => exact absurd rfl notCancel
  | resumed | handled | invoked | filtered | forked =>
    simp [take, resumed, handled, invoked, filtered, forked, stage]

namespace Aftermath

theorem failed_move {es : List (StackEvent G F)} (drifts : t.Drifts es u)
    (stage : u.stage = .dispatched (.error e) .yielded) (quiet : ∀ x ∈ es, x = .cancelled) :
    Aftermath registry e t 1 ((⟨u, es⟩ : Run G F M).take registry .move) := by
  have moved : u.take registry .move = (u.setCurrent (.error e)).become .ready := by
    simp only [Task.take, Task.step, stage, Task.conclude]
  have events : u.observe registry .move = [] ∨ u.observe registry .move = [.stranded] := by
    have unasked : (u.demand registry .move).input? = none := by
      simp only [Task.demand, Task.step, stage, Request.input?]
    rw [Task.observe_of_unasked unasked, moved]
    rcases frames : u.frames with _ | ⟨f, rest⟩
    · refine .inl ?_
      simp [Task.setCurrent_nil frames, Task.changes, Task.transitions, Task.become, stage, frames]
    · cases done : f.completed <;>
        simp [Task.setCurrent_cons frames, Task.changes, Task.transitions, Task.become, stage,
          frames, done]
  have quiet : ∀ x ∈ es, x = .cancelled ∨ x = .stranded := fun x hx => .inl (quiet x hx)
  rw [Run.take, moved]
  rcases events with events | events
  · rw [events, List.append_nil]
    exact .written (drifts.setCurrent _ _) rfl quiet
  · rw [events]
    refine .written ((drifts.setCurrent _ _).snoc (by simp)) rfl fun x hx => ?_
    rcases List.mem_append.1 hx with hx | hx
    · exact quiet x hx
    · exact .inr (List.mem_singleton.1 hx)

theorem written_move {es : List (StackEvent G F)}
    (drifts : (t.setCurrent (.error e)).Drifts es u) (stage : u.stage = .ready)
    (quiet : ∀ x ∈ es, x = .cancelled ∨ x = .stranded) :
    Aftermath registry e t 0 ((⟨u, es⟩ : Run G F M).take registry .move) := by
  cases frames : t.frames with
  | nil =>
    rw [Task.setCurrent_nil frames] at drifts
    have empty : u.frames = [] := drifts.frames_nil frames
    have moved : u.take registry .move = u.settle := by
      simp only [Task.take, Task.step, stage, empty]
    have unasked : (u.demand registry .move).input? = none := by
      simp only [Task.demand, Task.step, stage, empty, Request.input?]
    have events : u.observe registry .move = [] := by
      rw [Task.observe_of_unasked unasked, moved]
      exact Task.changes_settled rfl rfl rfl
    rw [Run.take, moved, events, List.append_nil]
    refine .settled frames (drifts.become _) ?_
    have root : u.root = .error e := drifts.root_eq
    simp only [Task.settle, Task.become, root]
  | cons f rest =>
    rw [Task.setCurrent_cons frames] at drifts
    obtain ⟨mark, rest', top, marked⟩ := drifts.top rfl
    have asked : (u.step registry).2 =
        .resume f.generator (if mark = .pending then .forcedReturn else .throw e) := by
      simp only [Task.step, stage, top, Task.resumeTop, beq_iff_eq, Resume.deliver]
    have events : u.observe registry .move =
        [.resumed (if mark = .pending then .forcedReturn else .throw e)] := by
      rw [Task.observe_ready stage top]
      simp only [Frame.input, beq_iff_eq, Resume.deliver]
    rw [Run.take, events]
    rw [← Task.setCurrent_cons frames] at drifts
    exact .resumed mark frames marked quiet drifts asked

theorem take (h : Aftermath registry e t n r) (i : Impulse G F) :
    Aftermath registry e t (n - if i.isMove then 1 else 0) (r.take registry i) := by
  have still {u : Task G F M} {es : List (StackEvent G F)}
      (stage : u.stage = .ready ∨ ∃ result p, u.stage = .dispatched result p)
      (notMove : i.isMove = false) (notCancel : i ≠ .cancel) :
      (⟨u, es⟩ : Run G F M).take registry i = ⟨u, es⟩ := by
    obtain ⟨same, quiet⟩ := Task.take_of_moving registry stage notMove notCancel
    rw [Run.take, same, quiet, List.append_nil]
  cases h with
  | failed drifts stage quiet =>
    cases i with
    | move => exact failed_move drifts stage quiet
    | cancel =>
      rw [Run.take, Task.observe_cancel]
      refine .failed drifts.requestCancel (Task.stage_requestCancel.trans stage) fun x hx => ?_
      rcases List.mem_append.1 hx with hx | hx
      · exact quiet x hx
      · exact List.mem_singleton.1 (List.mem_ite_nil_right.1 hx).2
    | resumed | filtered | handled | invoked | forked =>
      rw [still (.inr ⟨_, _, stage⟩) rfl (by simp)]
      exact .failed drifts stage quiet
  | written drifts stage quiet =>
    cases i with
    | move => exact written_move drifts stage quiet
    | cancel =>
      rw [Run.take, Task.observe_cancel]
      refine .written drifts.requestCancel (Task.stage_requestCancel.trans stage) fun x hx => ?_
      rcases List.mem_append.1 hx with hx | hx
      · exact quiet x hx
      · exact .inl (List.mem_singleton.1 (List.mem_ite_nil_right.1 hx).2)
    | resumed | filtered | handled | invoked | forked =>
      rw [still (.inl stage) rfl (by simp)]
      exact .written drifts stage quiet
  | resumed mark frames marked quiet drifts asked =>
    rw [Nat.zero_sub, Run.take, List.append_assoc, List.cons_append]
    exact .resumed mark frames marked quiet drifts asked
  | settled frames drifts stage =>
    obtain ⟨same, quiet⟩ := Task.take_of_settled registry stage i
    rw [Nat.zero_sub, Run.take, same, quiet, List.append_nil]
    exact .settled frames drifts stage

end Aftermath

/-- Up to the next resumption, the error waits for the top frame. -/
theorem aftermath (stage : t.stage = .dispatched (.error e) .yielded)
    (impulses : List (Impulse G F)) :
    Aftermath registry e t (2 - impulses.countP Impulse.isMove)
      ((⟨t, []⟩ : Run G F M).after registry impulses) := by
  induction impulses using List.reverseRecOn with
  | nil =>
    exact .failed (.calm t.stage nofun) stage nofun
  | append_singleton is i ih =>
    rw [Run.after_append, List.countP_append, ← Nat.sub_sub, List.countP_singleton]
    exact ih.take i

end Aftermath

namespace Dispatch

/-- A deferred operation is dispatched with a completed frame on top, which is never replaced. -/
theorem Remains.gone_eq_nil {t : Task G F M} {gone kept : List (Frame G F M)} {d : Dispatch G F M}
    (h : Remains t gone kept d) {level : Nat} {prior : Outcome}
    (fits : (Purpose.deferred level prior).Fits t.frames) : gone = [] := by
  obtain ⟨f, rest, frames, completed, -⟩ := fits
  cases gone with
  | nil => rfl
  | cons g more =>
    obtain ⟨rfl, -⟩ := List.cons.inj (h.frames.symm.trans frames)
    cases (h.running g (List.mem_cons_self ..)).symm.trans completed

variable [Named G]

/-- The move after the dispatch of a deferred operation, which has failed: the completed frame is
left with an error that overrides the outcome it had. -/
theorem move_of_deferred_failed (registry : Registry M) {u : Task G F M} {e : Error} {level : Nat}
    {prior : Outcome} (stage : u.stage = .dispatched (.error e) (.deferred level prior))
    (fits : (Purpose.deferred level prior).Fits u.frames) : ∃ f rest, u.frames = f :: rest ∧
      f.completed = true ∧ u.take registry .move =
        { u with
          frames := { f with result := .error (e.overriding prior) } :: rest
          stage := .unwinding } := by
  obtain ⟨f, rest, frames, completed, rfl⟩ := fits
  refine ⟨f, rest, frames, completed, ?_⟩
  simp [Task.take, Task.step, stage, Task.conclude, frames, atLevel, Frame.afterDefer]

/-- When the dispatch of what a generator yielded, or of a deferred operation, fails, whatever the
middleware, functions and generators it calls answer:
* All it has done is to replace the frames of the `terminal` layers it had undone, with the last
  layer failing in one of the ways of `Fails`.
* If nobody has cancelled the task meanwhile, the frames that are left and the rest of the task are
  as they were.
* The error then becomes the outcome of the frame on top, or of the task if it has no frame, and is
  what this frame is resumed with, unless it is resumed for its return. For a deferred operation it
  becomes, overriding the outcome it had, that of the completed frame which registered it. -/
theorem fails_cleanly {registry : Registry M} {t : Task G F M} {y : Yielded G F}
    {origin : Option (HandlerSlot M)} {p : Purpose} {impulses : List (Impulse G F)} {e : Error}
    (failed : ((yielding t y origin p).after registry impulses).task.stage =
      .dispatched (.error e) p) :
    let d := (yielding t y origin p).after registry impulses
    ∃ gone kept, d.Remains t gone kept ∧
      (∃ xs ys op, d.exchanges = xs ++ ys ∧
        Sheds registry origin t y.asOperation xs { t with frames := kept } op ∧
        Fails registry origin { t with frames := kept } op ys e) ∧
      ((∀ i ∈ impulses, i ≠ .cancel) →
        d.task = ({ t with frames := kept } : Task G F M).become (.dispatched (.error e) p)) ∧
      (p = .yielded → ∀ later, Aftermath registry e d.task (2 - later.countP Impulse.isMove)
        ((⟨d.task, []⟩ : Run G F M).after registry later)) ∧
      (∀ level prior, p = .deferred level prior → p.Fits t.frames → gone = [] ∧
        ∃ f rest, d.task.frames = f :: rest ∧ f.completed = true ∧ d.task.take registry .move =
          { d.task with
            frames := { f with result := .error (e.overriding prior) } :: rest
            stage := .unwinding }) := by
  intro d
  have stage : d.task.stage = .dispatched (.error e) p := failed
  obtain ⟨xs, ys, u, op, passed, sheds, fails, still⟩ := failed_cases failed
  obtain ⟨gone, ⟨frames, running, retired, unforked, -⟩, rest⟩ := sheds.remains
  have remains : d.Remains t gone u.frames := by
    refine ⟨frames, running, ?_, fun root forked => ?_, rest ▸ still⟩
    · rw [show d.exchanges = _ from passed, List.filterMap_append, retired,
        fails.filterMap_retired, List.append_nil]
    · rw [show d.exchanges = _ from passed] at forked
      exact (List.mem_append.1 forked).elim (unforked root) (fails.not_forked root)
  refine ⟨gone, u.frames, remains, ⟨xs, ys, op, passed, rest ▸ sheds, rest ▸ fails⟩,
    fun calm => ?_, fun yielded later => ?_, fun level prior deferred fits => ?_⟩
  · have uncanceled : d.task.canceled = u.canceled := by
      rw [rest]
      exact canceled_after calm
    rw [← rest, ← stage]
    exact still.calm uncanceled
  · subst yielded
    exact aftermath stage later
  · subst deferred
    have none := remains.gone_eq_nil fits
    refine ⟨none, move_of_deferred_failed registry stage ?_⟩
    have kept : t.frames = u.frames := by rw [frames, none, List.nil_append]
    exact still.fits (kept ▸ fits)

/-- A frame yields `terminal (start op)` where nothing recognizes `op`. It is replaced, and the
frame below is resumed with the error. -/
theorem unrecognized_fails_cleanly :
    let caller : Stub := ⟨"caller"⟩
    let below : Frame Stub Unit Unit := ⟨⟨"main"⟩, "main", .clear, .ok .null, [], false, none⟩
    let frame : Frame Stub Unit Unit := ⟨caller, "caller", .clear, .ok .null, [], false, none⟩
    let t : Task Stub Unit Unit := ⟨default, false, [frame, below], .ok .null, .resuming⟩
    let op : Operation Stub Unit := .terminal (.start (.custom "nobody" .null))
    let d := (yielding t (.operation op) none .yielded).after default
      (.replicate 3 .move ++ .resumed (.complete (.error .interrupted)) caller ::
        .replicate 5 .move)
    d.task.stage = .dispatched (.error (.unrecognizedOperation "nobody")) .yielded ∧
      d.task.frames = [below] ∧
      ∀ later, Aftermath default (.unrecognizedOperation "nobody") d.task
        (2 - later.countP Impulse.isMove)
        ((⟨d.task, []⟩ : Run Stub Unit Unit).after default later) := by
  intro caller below frame t op d
  have failed :
      d.task.stage = .dispatched (.error (.unrecognizedOperation "nobody")) .yielded := rfl
  obtain ⟨gone, kept, -, -, -, later, -⟩ := fails_cleanly failed
  exact ⟨failed, rfl, later rfl⟩

end Dispatch

end EffectEngine
