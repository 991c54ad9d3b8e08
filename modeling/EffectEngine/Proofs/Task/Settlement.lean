import EffectEngine.Host
import EffectEngine.Proofs.Task.Lives
import EffectEngine.Proofs.Task.Marks
import Mathlib.Data.List.Induction

/-!
# Settlement and cancellation

`Dealings` is a task together with all that other tasks do to it: the answers to the requests to
cancel it, and the calls of `cancel`, each as far as it has come. Its `Act`s happen in any order;
within a call of `cancel`, asking whether the task has settled and asking it to cancel are one act.
`Sound` is what the answers, the calls and the outcome have to do with each other.
-/

namespace EffectEngine

/-- The types of an engine of which nothing but the names of its generators is known. -/
def Sig.ofStubs : Sig where
  State := Unit
  Note := Unit
  Ctx := Unit
  Gen := Stub
  Fn := Unit
  Mw := Unit
  Listener := Unit
  Seed := Unit

/-- What happens to a task and to those that want it cancelled. -/
inductive Act (G F : Type) where
  /-- The driver makes a move or gets an answer, or somebody asks the task to cancel. -/
  | impulse (i : Impulse G F)
  /-- The driver panics. -/
  | panic (message : String)
  /-- Somebody begins to cancel the task. -/
  | cancel

namespace Act

variable {G F : Type}

def isRequest : Act G F → Bool
  | impulse .cancel => true
  | _ => false

def isCall : Act G F → Bool
  | cancel => true
  | _ => false

end Act

/-- What a call of `cancel` comes to if the task settles with an outcome. -/
def TaskId.cancelResult : Outcome → Except Error Unit
  | .ok _ | .error .cancelled => .ok ()
  | .error e => .error (.cancelFailed e)

/-- What code comes to that has ended, or that waits for a task with the given outcome. -/
def Code.result? {S : Sig} {α : Type} (id : TaskId) (outcome : Option Outcome) : S.Code α → Option α
  | .done a => some a
  | .perform (.wait (.task id')) k =>
    if id' = id then outcome.bind fun o =>
      match k o with
      | .done a => some a
      | _ => none
    else none
  | _ => none

namespace Run

variable {S : Sig} {α : Type}

/-- Lets code ask a task whether it has settled, or to cancel, until it ends or has to wait. Along
with the rest of the code and the task come the answers to the requests. -/
def attend (registry : Registry S.Mw) (r : Run S.Gen S.Fn S.Mw) :
    S.Code α → List Bool × S.Code α × Run S.Gen S.Fn S.Mw
  | .ask (.isSettled id) k =>
    if id = r.task.id then r.attend registry (k r.task.isSettled)
    else ([], .ask (.isSettled id) k, r)
  | .ask (.requestCancel id) k =>
    if id = r.task.id then
      let answer := r.task.requestCancel.1
      let (answers, rest, r) := (r.take registry .cancel).attend registry (k answer)
      (answer :: answers, rest, r)
    else ([], .ask (.requestCancel id) k, r)
  | rest => ([], rest, r)

/-- The rest of a call of `cancel` that waits for the task. -/
def awaiting (S : Sig) (id : TaskId) : S.Code (Except Error Unit) :=
  .perform (.wait (.task id)) fun outcome => .done (TaskId.cancelResult outcome)

variable {registry : Registry S.Mw} {r : Run S.Gen S.Fn S.Mw}

theorem attend_settled (h : r.task.isSettled = true) :
    r.attend registry r.task.id.cancel =
      ([], (.done (.ok ()) : S.Code (Except Error Unit)), r) := by
  simp only [TaskId.cancel, Code.isSettled, Code.query, bind, Code.bind, attend, if_true, h]
  rfl

theorem attend_unsettled (h : r.task.isSettled = false) :
    r.attend registry r.task.id.cancel =
      ([r.task.requestCancel.1], awaiting S r.task.id, r.take registry .cancel) := by
  simp only [TaskId.cancel, Code.isSettled, Code.requestCancel, Code.query, Code.effect, bind,
    Code.bind, attend, if_true, h, Bool.false_eq_true, if_false]
  refine Prod.ext rfl (Prod.ext ?_ rfl)
  simp only [awaiting]
  congr 1
  funext outcome
  rcases outcome with e | v
  · cases e <;> rfl
  · rfl

end Run

namespace Task

variable {G F M : Type} {registry : Registry M} {t : Task G F M} {outcome : Outcome}

theorem isSettled_eq_false (h : ∀ outcome, t.stage ≠ .settled outcome) : t.isSettled = false := by
  rw [Bool.eq_false_iff, ne_eq, isSettled_iff]
  rintro ⟨outcome, stage⟩
  exact h outcome stage

theorem outcome?_eq_some : t.outcome? = some outcome ↔ t.stage = .settled outcome := by
  unfold outcome?
  split <;> simp_all

theorem requestCancel_settled (h : t.isSettled = true) : t.requestCancel = (false, t) := by
  simp [requestCancel, h]

/-- The task went on, and has not settled. -/
structure Ongoing (t t' : Task G F M) : Prop where
  id : t'.id = t.id
  canceled : t'.canceled = t.canceled
  unsettled : t'.isSettled = false

theorem id_setCurrent (outcome : Outcome) : (t.setCurrent outcome).id = t.id := by
  unfold setCurrent
  split <;> rfl

theorem ongoing_conclude (result : Except Error Unit) (p : Purpose) :
    t.Ongoing (t.conclude result p) := by
  cases p with
  | yielded =>
    cases result with
    | ok => exact ⟨rfl, rfl, rfl⟩
    | error e => exact ⟨id_setCurrent _, canceled_setCurrent _, rfl⟩
  | deferred level prior =>
    refine ⟨rfl, rfl, isSettled_eq_false fun outcome => ?_⟩
    simp only [conclude]
    split <;> simp

theorem ongoing_unwind : t.Ongoing t.unwind := by
  unfold unwind
  split
  · exact ⟨rfl, rfl, rfl⟩
  · split
    · exact ⟨rfl, rfl, rfl⟩
    · unfold handDown
      split
      · exact ⟨rfl, rfl, rfl⟩
      · refine ⟨rfl, rfl, isSettled_eq_false fun outcome => ?_⟩
        simp only
        split <;> simp

theorem footings_eq_nil : t.footings = [] ↔ t.frames = [] := List.map_eq_nil_iff

/-- A task is left without frames when the bottom one is replaced or popped. -/
theorem emptied_turn {t' : Task G F M} {es : List (StackEvent G F)} (turn : Turn t es t')
    (h : t'.frames = []) :
    t.frames = [] ∧ (∀ outcome, .popped outcome ∉ es) ∨ es = [.replaced] ∨
      es = [.popped t'.root] ∧ t'.stage = .ready := by
  cases turn with
  | idle | quiet | onwards => exact .inl ⟨h, by simp⟩
  | replaced => exact .inr (.inl rfl)
  | popped f rest stage frames done defers =>
    cases rest with
    | nil => exact .inr (.inr ⟨rfl, rfl⟩)
    | cons below rest => simp [handDown] at h
  | cancelled => exact .inl ⟨List.map_eq_nil_iff.1 h, by simp⟩
  | forked outcome =>
    have kept : (t.setCurrent outcome).footings = [] := footings_eq_nil.2 h
    rw [footings_setCurrent, footings_eq_nil] at kept
    exact .inl ⟨kept, by simp⟩
  | returned result | stranded f rest result =>
    rw [← footings_eq_nil, footings_conclude, footings_eq_nil] at h
    exact .inl ⟨h, by simp⟩
  | pushed | resumed | suspended | completed | registered | recovered | discharged | entrusted
  | undertaken => simp [push, resumeTop] at h

variable [Named G]

theorem ongoing_dispatch (y : Yielded G F) (origin : Option (HandlerSlot M)) (p : Purpose) :
    t.Ongoing (t.dispatch registry y origin p) := by
  unfold dispatch
  split
  · split <;> exact ⟨rfl, rfl, rfl⟩
  · split
    · exact ⟨rfl, rfl, rfl⟩
    · split <;> exact ⟨rfl, rfl, rfl⟩
  · exact ⟨rfl, rfl, rfl⟩

theorem ongoing_core (op : Operation G F) (origin : Option (HandlerSlot M)) (p : Purpose) :
    t.Ongoing (t.core op origin p).1 := by
  cases op with
  | defer inner =>
    simp only [core]
    split <;> exact ⟨rfl, rfl, rfl⟩
  | recover =>
    simp only [core, become, recover]
    split
    · split <;> exact ⟨rfl, rfl, rfl⟩
    · exact ⟨rfl, rfl, rfl⟩
  | terminal inner =>
    simp only [core]
    split
    · exact ⟨rfl, rfl, rfl⟩
    · split
      · exact ⟨rfl, rfl, rfl⟩
      · split <;> exact ⟨rfl, rfl, rfl⟩
  | _ => exact ⟨rfl, rfl, rfl⟩

/-- A move of the driver settles the task, or leaves it as it is, or the task goes on. -/
theorem step_cases : (t.step registry).1 = t ∨ (t.step registry).1 = t.settle ∨
    t.Ongoing (t.step registry).1 := by
  unfold step
  split
  · split
    · exact .inr (.inl rfl)
    · exact .inr (.inr ⟨rfl, rfl, rfl⟩)
  · split
    · exact .inr (.inl rfl)
    · exact .inr (.inr ⟨rfl, rfl, rfl⟩)
  · exact .inr (.inr (ongoing_dispatch ..))
  · split
    · exact .inl rfl
    · exact .inr (.inr (ongoing_core ..))
  · split
    · exact .inl rfl
    · exact .inr (.inr ⟨rfl, rfl, rfl⟩)
  · exact .inr (.inr ⟨rfl, rfl, rfl⟩)
  · exact .inl rfl
  · exact .inr (.inr ⟨rfl, rfl, rfl⟩)
  · exact .inr (.inr (ongoing_conclude ..))
  · exact .inr (.inr ongoing_unwind)
  all_goals exact .inl rfl

/-- What is no request to cancel settles the task, or leaves it as it is, or the task goes on. -/
theorem take_cases (registry : Registry M) (t : Task G F M) {i : Impulse G F} (h : i ≠ .cancel) :
    t.take registry i = t ∨ t.take registry i = t.settle ∨ t.Ongoing (t.take registry i) := by
  cases i with
  | move => exact step_cases
  | cancel => exact absurd rfl h
  | resumed signal g =>
    simp only [take]
    split
    · unfold retired
      split
      · split <;> exact .inr (.inr ⟨rfl, rfl, rfl⟩)
      · exact .inl rfl
    · unfold resumed
      split
      · split
        · exact .inr (.inr ⟨rfl, rfl, rfl⟩)
        · refine .inr (.inr ⟨rfl, rfl, isSettled_eq_false fun outcome => ?_⟩)
          simp only
          split <;> simp
      · exact .inl rfl
  | filtered accepts =>
    simp only [take, filtered]
    split
    · split <;> exact .inr (.inr ⟨rfl, rfl, rfl⟩)
    · exact .inl rfl
  | handled result =>
    simp only [take, handled]
    split
    · split <;> exact .inr (.inr ⟨rfl, rfl, rfl⟩)
    · exact .inl rfl
  | invoked result =>
    simp only [take, invoked]
    split
    · split <;> exact .inr (.inr ⟨rfl, rfl, rfl⟩)
    · exact .inl rfl
  | forked child =>
    simp only [take, forked]
    split
    · exact .inr (.inr ⟨id_setCurrent _, canceled_setCurrent _, rfl⟩)
    · exact .inl rfl

theorem take_eq (registry : Registry M) (t : Task G F M) {i : Impulse G F} (h : i ≠ .cancel) :
    (t.take registry i).id = t.id ∧ (t.take registry i).canceled = t.canceled := by
  rcases take_cases registry t h with same | settled | ongoing
  · rw [same]
    exact ⟨rfl, rfl⟩
  · rw [settled]
    exact ⟨rfl, rfl⟩
  · exact ⟨ongoing.id, ongoing.canceled⟩

/-- A task only ever settles with its cancellation or its root outcome. -/
theorem settled_take {i : Impulse G F} (unsettled : t.isSettled = false)
    (h : (t.take registry i).stage = .settled outcome) :
    t.take registry i = t.settle ∧ outcome = if t.canceled then .error .cancelled else t.root := by
  have settled : (t.take registry i).isSettled = true := isSettled_iff.2 ⟨outcome, h⟩
  by_cases hi : i = .cancel
  · subst hi
    have : (t.take registry .cancel).isSettled = t.isSettled := by
      simp only [take, requestCancel]
      split <;> rfl
    simp [this, unsettled] at settled
  · rcases take_cases registry t hi with same | settle | ongoing
    · simp [same, unsettled] at settled
    · rw [settle] at h
      exact ⟨settle, (Stage.settled.inj h).symm⟩
    · simp [ongoing.unsettled] at settled

theorem take_of_settled (registry : Registry M) (h : t.stage = .settled outcome)
    (i : Impulse G F) :
    t.take registry i = t ∧ t.observe registry i = [] := by
  have settled : t.isSettled = true := isSettled_iff.2 ⟨outcome, h⟩
  have same : t.take registry i = t := by
    cases i with
    | cancel => simp [take, requestCancel, settled]
    | _ => simp [take, step, resumed, handled, invoked, filtered, forked, h]
  refine ⟨same, observe_eq_nil same ?_⟩
  cases i <;> simp [demand, step, h, Request.input?]

/-- Before its first step a task stays as it is, and one that was cancelled settles with that
step. -/
theorem take_of_fresh (registry : Registry M) {root : Yielded G F} {i : Impulse G F}
    (h : t.stage = .fresh root)
    (hi : i ≠ .cancel) (hm : i ≠ .move ∨ t.canceled = true) :
    (t.take registry i = t ∨ t.take registry i = t.settle) ∧ t.observe registry i = [] := by
  cases i with
  | move =>
    have canceled : t.canceled = true := hm.resolve_left fun ne => ne rfl
    have settles : t.take registry .move = t.settle := by simp [take, step, h, canceled]
    have unasked : (t.demand registry .move).input? = none := by
      simp [demand, step, h, canceled, Request.input?]
    refine ⟨.inr settles, ?_⟩
    rw [observe_of_unasked unasked, settles]
    exact changes_settled rfl rfl rfl
  | cancel => exact absurd rfl hi
  | resumed | handled | invoked | filtered | forked =>
    suffices same : _ = t from ⟨.inl same, observe_eq_nil same rfl⟩
    simp [take, resumed, handled, invoked, filtered, forked, h]

/-- With no frames left to resume, all that can happen is that the task settles. -/
theorem take_of_ready (registry : Registry M) (i : Impulse G F) (frames : t.frames = [])
    (h : t.stage = .ready ∨ t.isSettled = true) :
    (t.take registry i).root = t.root ∧
      ((t.take registry i).stage = .ready ∨ (t.take registry i).isSettled = true) := by
  rcases h with ready | settled
  · cases i with
    | move =>
      have settles : t.take registry .move = t.settle := by simp [take, step, ready, frames]
      rw [settles]
      exact ⟨rfl, .inr rfl⟩
    | cancel =>
      simp only [take, requestCancel]
      split <;> exact ⟨rfl, .inl ready⟩
    | _ => simp [take, resumed, filtered, handled, invoked, forked, ready]
  · obtain ⟨outcome, stage⟩ := isSettled_iff.1 settled
    rw [(take_of_settled registry stage i).1]
    exact ⟨rfl, .inr settled⟩

end Task

namespace Run

variable {G F M : Type} [Named G] {registry : Registry M} {id : TaskId} {root : Yielded G F}

/-- Once the bottom frame has been popped the root outcome is what that frame handed down, and there
is nothing left to do but to settle. -/
theorem root_of_popped (impulses : List (Impulse G F)) {outcome : Outcome} :
    let r : Run G F M := (start id root).after registry impulses
    r.task.frames = [] →
      (r.history.filter (!·.isCommon)).getLast? = some (.popped outcome) →
      r.task.root = outcome ∧ (r.task.stage = .ready ∨ r.task.isSettled = true) := by
  induction impulses using List.reverseRecOn with
  | nil =>
    intro r _ last
    simp [r, after, start] at last
  | append_singleton is i ih =>
    intro r empty last
    let old : Run G F M := (start id root).after registry is
    have step : r = old.take registry i := after_append ..
    have turn : old.task.Turn (old.task.observe registry i) (old.task.take registry i) :=
      Task.turn_take (Run.coherent is) i
    rw [step] at empty last ⊢
    simp only [Run.take, List.filter_append, List.getLast?_append] at last
    rcases Task.emptied_turn turn empty with ⟨frames, kept⟩ | replaced | ⟨popped, ready⟩
    · -- No frame is popped now: it was before.
      have before : (old.history.filter (!·.isCommon)).getLast? = some (.popped outcome) := by
        rcases Option.or_eq_some_iff.1 last with now | ⟨-, before⟩
        · have now := List.mem_of_mem_filter (List.mem_of_getLast? now)
          exact absurd now (kept outcome)
        · exact before
      obtain ⟨root_eq, ready⟩ := ih frames before
      obtain ⟨same, ready⟩ := Task.take_of_ready registry i frames ready
      exact ⟨same.trans root_eq, ready⟩
    · simp [replaced, StackEvent.isCommon] at last
    · rw [popped] at last
      have last : some (StackEvent.popped _) = some (.popped outcome) := last
      exact ⟨StackEvent.popped.inj (Option.some.inj last), .inl ready⟩

end Run

/-- A task, the answers to the requests to cancel it, and what is left of the calls of `cancel`,
both in the order in which they were made. -/
structure Dealings (S : Sig) where
  run : Run S.Gen S.Fn S.Mw
  answers : List Bool
  calls : List (S.Code (Except Error Unit))

namespace Dealings

variable {S : Sig}

def start (S : Sig) (id : TaskId) (root : S.Yielded) : Dealings S := ⟨.start id root, [], []⟩

section Acts

variable (registry : Registry S.Mw)

def act (d : Dealings S) : Act S.Gen S.Fn → Dealings S
  | .impulse .cancel =>
    { d with
      run := d.run.take registry .cancel
      answers := d.answers ++ [d.run.task.requestCancel.1] }
  | .impulse i => { d with run := d.run.take registry i }
  | .panic message =>
    -- A task that has settled is driven no more.
    if d.run.task.isSettled then d
    else { d with run := { d.run with task := d.run.task.panicked message } }
  | .cancel =>
    let (answers, call, run) := d.run.attend registry d.run.task.id.cancel
    ⟨run, d.answers ++ answers, d.calls ++ [call]⟩

def after (d : Dealings S) (acts : List (Act S.Gen S.Fn)) : Dealings S :=
  acts.foldl (act registry) d

end Acts

variable {registry : Registry S.Mw} {d : Dealings S} {id : TaskId} {root : S.Yielded}

theorem after_append (d : Dealings S) (early late : List (Act S.Gen S.Fn)) :
    d.after registry (early ++ late) = (d.after registry early).after registry late :=
  List.foldl_append

theorem after_snoc (d : Dealings S) (acts : List (Act S.Gen S.Fn)) (a : Act S.Gen S.Fn) :
    d.after registry (acts ++ [a]) = (d.after registry acts).act registry a := after_append ..

/-- What holds at first and is kept by every act holds after all acts. -/
theorem after_induction {P : List (Act S.Gen S.Fn) → Dealings S → Prop} (h : P [] d)
    (step : ∀ past d a, P past d → P (past ++ [a]) (d.act registry a))
    (acts : List (Act S.Gen S.Fn)) : P acts (d.after registry acts) := by
  induction acts using List.reverseRecOn with
  | nil => exact h
  | append_singleton acts a ih =>
    rw [after_snoc]
    exact step _ _ a ih

theorem act_impulse {i : Impulse S.Gen S.Fn} (h : i ≠ .cancel) :
    d.act registry (.impulse i) = { d with run := d.run.take registry i } := by
  cases i with
  | cancel => exact absurd rfl h
  | _ => rfl

theorem act_move : d.act registry (.impulse .move) = { d with run := d.run.take registry .move } :=
  rfl

/-- A call of `cancel` on a task that has settled returns at once. -/
theorem act_cancel_settled (h : d.run.task.isSettled = true) :
    d.act registry .cancel = { d with calls := d.calls ++ [.done (.ok ())] } := by
  simp only [act, Run.attend_settled h, List.append_nil]

/-- A call of `cancel` on a task that has not settled asks it to cancel, and waits for it. -/
theorem act_cancel_unsettled (registry : Registry S.Mw) (h : d.run.task.isSettled = false) :
    d.act registry .cancel =
      { d.act registry (.impulse .cancel) with
        calls := d.calls ++ [Run.awaiting S d.run.task.id] } := by
  simp only [act, Run.attend_unsettled h]

/-- Requests to cancel a settled task are refused, and nothing else happens to it. -/
theorem act_settled (registry : Registry S.Mw) {outcome : Outcome}
    (h : d.run.task.stage = .settled outcome) (a : Act S.Gen S.Fn) :
    d.act registry a =
      ⟨d.run, d.answers ++ List.replicate ([a].countP Act.isRequest) false,
        d.calls ++ List.replicate ([a].countP Act.isCall) (.done (.ok ()))⟩ := by
  have settled : d.run.task.isSettled = true := Task.isSettled_iff.2 ⟨outcome, h⟩
  have still (i : Impulse S.Gen S.Fn) : d.run.take registry i = d.run := by
    obtain ⟨same, none⟩ := Task.take_of_settled registry h i
    rw [Run.take, same, none, List.append_nil]
  cases a with
  | panic message => simp [act, settled, Act.isRequest, Act.isCall]
  | cancel => simp [act_cancel_settled settled, Act.isRequest, Act.isCall]
  | impulse i =>
    by_cases hi : i = .cancel
    · subst hi
      simp [act, still, Task.requestCancel_settled settled, Act.isRequest, Act.isCall]
    · have other : Act.isRequest (.impulse i : Act S.Gen S.Fn) = false := by
        cases i with
        | cancel => exact absurd rfl hi
        | _ => rfl
      simp [act_impulse hi, still, other, Act.isCall]

theorem after_settled (registry : Registry S.Mw) {outcome : Outcome}
    (h : d.run.task.stage = .settled outcome) (acts : List (Act S.Gen S.Fn)) :
    d.after registry acts =
      ⟨d.run, d.answers ++ List.replicate (acts.countP Act.isRequest) false,
        d.calls ++ List.replicate (acts.countP Act.isCall) (.done (.ok ()))⟩ := by
  induction acts using List.reverseRecOn with
  | nil => simp [after]
  | append_singleton acts a ih =>
    have settled : (d.after registry acts).run.task.stage = .settled outcome := by rw [ih]; exact h
    have last := act_settled registry settled a
    rw [after_snoc, last, ih, List.countP_append, List.countP_append, List.replicate_add,
      List.replicate_add, List.append_assoc, List.append_assoc]

/-- What a call of `cancel` returned to, or waits for, if `cancelled` says whether the task was
cancelled. -/
def Accounted (id : TaskId) (cancelled : Bool) (call : S.Code (Except Error Unit)) : Prop :=
  call = .done (.ok ()) ∨ call = Run.awaiting S id ∧ cancelled = true

/-- What a task settled with: the panic of its driver, its cancellation, or its root outcome. -/
def Justified (acts : List (Act S.Gen S.Fn)) (t : S.Task) (outcome : Outcome) : Prop :=
  (∃ message, .panic message ∈ acts ∧ outcome = .error (.panicked message)) ∨
    outcome = if t.canceled then .error .cancelled else t.root

/-- What the answers, the calls and the outcome have to do with each other. -/
structure Sound (id : TaskId) (acts : List (Act S.Gen S.Fn)) (d : Dealings S) : Prop where
  same : d.run.task.id = id
  answers : d.answers.count true = if d.run.task.canceled then 1 else 0
  settled : ∀ outcome, d.run.task.stage = .settled outcome → Justified acts d.run.task outcome
  calls : ∀ call ∈ d.calls, Accounted id d.run.task.canceled call

theorem Justified.mono {acts : List (Act S.Gen S.Fn)} {t : S.Task} {outcome : Outcome}
    (h : Justified acts t outcome) (a : Act S.Gen S.Fn) : Justified (acts ++ [a]) t outcome := by
  rcases h with ⟨message, panic, rfl⟩ | agrees
  · exact .inl ⟨message, List.mem_append_left _ panic, rfl⟩
  · exact .inr agrees

namespace Sound

variable {acts : List (Act S.Gen S.Fn)}

theorem of_settled {outcome : Outcome} (h : Sound id acts d)
    (stage : d.run.task.stage = .settled outcome) (a : Act S.Gen S.Fn) :
    Sound id (acts ++ [a]) (d.act registry a) := by
  rw [act_settled registry stage]
  refine ⟨h.same, ?_, fun o ho => (h.settled o ho).mono a, fun call hc => ?_⟩
  · simp only [List.count_append, List.count_replicate, h.answers]
    simp
  · rcases List.mem_append.1 hc with old | new
    · exact h.calls call old
    · exact .inl (List.eq_of_mem_replicate new)

theorem impulse (h : Sound id acts d) {i : Impulse S.Gen S.Fn} (hi : i ≠ .cancel)
    (unsettled : d.run.task.isSettled = false) :
    Sound id (acts ++ [.impulse i]) (d.act registry (.impulse i)) := by
  obtain ⟨sameId, sameMark⟩ := Task.take_eq registry d.run.task hi
  rw [act_impulse hi]
  refine ⟨sameId.trans h.same, ?_, fun outcome stage => ?_, fun call hc => ?_⟩
  · simp only [Run.take, sameMark, h.answers]
  · obtain ⟨settles, rfl⟩ := Task.settled_take unsettled stage
    refine .inr ?_
    simp only [Run.take, settles]
    rfl
  · simp only [Run.take, sameMark]
    exact h.calls call hc

theorem request (registry : Registry S.Mw) (h : Sound id acts d)
    (unsettled : d.run.task.isSettled = false) (a : Act S.Gen S.Fn) :
    Sound id (acts ++ [a]) (d.act registry (.impulse .cancel)) ∧
      (d.act registry (.impulse .cancel)).run.task.canceled = true := by
  by_cases canceled : d.run.task.canceled = true
  · have refused : d.run.task.requestCancel = (false, d.run.task) := by
      simp [Task.requestCancel, canceled]
    refine ⟨⟨?_, ?_, ?_, ?_⟩, ?_⟩
    · simpa [act, Run.take, Task.take, refused] using h.same
    · simpa [act, Run.take, Task.take, refused] using h.answers
    · simp only [act, Run.take, Task.take, refused]
      exact fun o ho => (h.settled o ho).mono a
    · simpa [act, Run.take, Task.take, refused] using h.calls
    · simpa [act, Run.take, Task.take, refused] using canceled
  · have fresh : d.run.task.canceled = false := by simpa using canceled
    have none : d.answers.count true = 0 := by simpa [fresh] using h.answers
    refine ⟨⟨?_, ?_, fun outcome stage => ?_, fun call hc => ?_⟩, ?_⟩
    · simpa [act, Run.take, Task.take, Task.requestCancel, unsettled, fresh] using h.same
    · simp [act, Run.take, Task.take, Task.requestCancel, unsettled, fresh, none]
    · have settled := Task.isSettled_iff.2 ⟨outcome, stage⟩
      simp only [act, Run.take, Task.take, Task.requestCancel, unsettled, fresh] at settled
      cases unsettled.symm.trans settled
    · rcases h.calls call hc with done | ⟨waits, canceled⟩
      · exact .inl done
      · cases fresh.symm.trans canceled
    · simp [act, Run.take, Task.take, Task.requestCancel, unsettled, fresh]

theorem act (h : Sound id acts d) (a : Act S.Gen S.Fn) :
    Sound id (acts ++ [a]) (d.act registry a) := by
  by_cases settled : d.run.task.isSettled = true
  · obtain ⟨outcome, stage⟩ := Task.isSettled_iff.1 settled
    exact h.of_settled stage a
  have unsettled : d.run.task.isSettled = false := by simpa using settled
  cases a with
  | impulse i =>
    by_cases hi : i = .cancel
    · subst hi
      exact (h.request registry unsettled _).1
    · exact h.impulse hi unsettled
  | panic message =>
    simp only [Dealings.act, unsettled]
    refine ⟨h.same, h.answers, fun outcome stage => .inl ⟨message, by simp, ?_⟩, h.calls⟩
    exact (Stage.settled.inj stage).symm
  | cancel =>
    obtain ⟨asked, canceled⟩ := h.request registry unsettled .cancel
    rw [act_cancel_unsettled registry unsettled]
    refine ⟨asked.same, asked.answers, asked.settled, fun call hc => ?_⟩
    rcases List.mem_append.1 hc with old | new
    · exact asked.calls call old
    · rw [List.mem_singleton.1 new, h.same]
      exact .inr ⟨rfl, canceled⟩

theorem after (registry : Registry S.Mw) (id : TaskId) (root : S.Yielded)
    (acts : List (Act S.Gen S.Fn)) : Sound id acts ((start S id root).after registry acts) :=
  after_induction ⟨rfl, rfl, nofun, nofun⟩ (fun _ _ a h => h.act a) acts

end Sound

/-! ### Cancelled before the first step -/

/-- The task has not made its first step: nothing became of any frame. -/
structure Unborn (d : Dealings S) : Prop where
  history : d.run.history = if d.run.task.canceled then [.cancelled] else []
  stage : d.run.task.isSettled = true ∨ ∃ root, d.run.task.stage = .fresh root

namespace Unborn

theorem request (h : Unborn d) : Unborn (d.act registry (.impulse .cancel)) := by
  rcases h.stage with settled | ⟨root, stage⟩
  · obtain ⟨outcome, stage⟩ := Task.isSettled_iff.1 settled
    rw [act_settled registry stage]
    exact ⟨h.history, h.stage⟩
  · have unsettled : d.run.task.isSettled = false := Task.isSettled_eq_false (by simp [stage])
    by_cases canceled : d.run.task.canceled = true
    · have refused : d.run.task.requestCancel = (false, d.run.task) := by
        simp [Task.requestCancel, canceled]
      refine ⟨?_, .inr ⟨root, ?_⟩⟩
      · simpa [Dealings.act, Run.take, Task.take, Task.observe_cancel, refused] using h.history
      · simpa [Dealings.act, Run.take, Task.take, refused] using stage
    · have fresh : d.run.task.canceled = false := by simpa using canceled
      have silent : d.run.history = [] := by simpa [fresh] using h.history
      refine ⟨?_, .inr ⟨root, ?_⟩⟩
      · simp [Dealings.act, Run.take, Task.take, Task.observe_cancel, Task.requestCancel,
          unsettled, fresh, silent]
      · simpa [Dealings.act, Run.take, Task.take, Task.requestCancel, unsettled, fresh] using stage

theorem act (h : Unborn d) {a : Act S.Gen S.Fn}
    (ha : a ≠ .impulse .move ∨ d.run.task.canceled = true) : Unborn (d.act registry a) := by
  rcases h.stage with settled | ⟨root, stage⟩
  · obtain ⟨outcome, stage⟩ := Task.isSettled_iff.1 settled
    rw [act_settled registry stage]
    exact ⟨h.history, h.stage⟩
  have unsettled : d.run.task.isSettled = false := Task.isSettled_eq_false (by simp [stage])
  cases a with
  | impulse i =>
    by_cases hi : i = .cancel
    · subst hi
      exact h.request
    · have hm : i ≠ .move ∨ d.run.task.canceled = true :=
        ha.imp_left fun ne move => ne (congrArg Act.impulse move)
      obtain ⟨taken, none⟩ := Task.take_of_fresh registry stage hi hm
      rw [act_impulse hi, Run.take, none, List.append_nil]
      rcases taken with same | settles
      · rw [same]
        exact ⟨h.history, .inr ⟨root, stage⟩⟩
      · rw [settles]
        exact ⟨h.history, .inl rfl⟩
  | panic message =>
    simp only [Dealings.act, unsettled]
    exact ⟨h.history, .inl rfl⟩
  | cancel =>
    rw [act_cancel_unsettled registry unsettled]
    exact ⟨h.request.history, h.request.stage⟩

end Unborn

theorem canceled_act (h : d.run.task.canceled = true) (a : Act S.Gen S.Fn) :
    (d.act registry a).run.task.canceled = true := by
  have request : (d.act registry (.impulse .cancel)).run.task.canceled = true := by
    simp [act, Run.take, Task.take, Task.requestCancel, h]
  by_cases settled : d.run.task.isSettled = true
  · obtain ⟨outcome, stage⟩ := Task.isSettled_iff.1 settled
    rw [act_settled registry stage]
    exact h
  have unsettled : d.run.task.isSettled = false := by simpa using settled
  cases a with
  | impulse i =>
    by_cases hi : i = .cancel
    · subst hi
      exact request
    · rw [act_impulse hi]
      exact (Task.take_eq registry _ hi).2.trans h
  | panic message =>
    simp only [act, unsettled]
    exact h
  | cancel =>
    rw [act_cancel_unsettled registry unsettled]
    exact request

theorem unborn_before_move (registry : Registry S.Mw) (id : TaskId) (root : S.Yielded)
    {early : List (Act S.Gen S.Fn)} (h : .impulse .move ∉ early) :
    Unborn ((start S id root).after registry early) := by
  induction early using List.reverseRecOn with
  | nil => exact ⟨rfl, .inr ⟨root, rfl⟩⟩
  | append_singleton early a ih =>
    rw [after_snoc]
    refine (ih fun move => h (List.mem_append_left _ move)).act (.inl fun move => h ?_)
    rw [← move]
    simp

/-- A task that is cancelled before its first step never gets further. -/
theorem unborn_after_cancel (registry : Registry S.Mw) (h : Unborn d)
    (canceled : d.run.task.canceled = true) (late : List (Act S.Gen S.Fn)) :
    Unborn (d.after registry late) ∧ (d.after registry late).run.task.canceled = true :=
  after_induction (P := fun _ d => Unborn d ∧ d.run.task.canceled = true) ⟨h, canceled⟩
    (fun _ _ a ih => ⟨ih.1.act (.inr ih.2), canceled_act ih.2 a⟩) late

/-- The driver asks nothing of generators, filters or handlers. -/
theorem Unborn.silent (h : Unborn d) (canceled : d.run.task.canceled = true) :
    (d.run.task.step registry).2 = .silent := by
  rcases h.stage with settled | ⟨root, stage⟩
  · obtain ⟨outcome, stage⟩ := Task.isSettled_iff.1 settled
    simp [Task.step, stage]
  · simp [Task.step, stage, canceled]

theorem Unborn.settles (registry : Registry S.Mw) (h : Unborn d)
    (canceled : d.run.task.canceled = true) :
    (d.act registry (.impulse .move)).run.task.isSettled = true := by
  rcases h.stage with settled | ⟨root, stage⟩
  · obtain ⟨outcome, stage⟩ := Task.isSettled_iff.1 settled
    rw [act_settled registry stage]
    exact settled
  · have settles : d.run.task.take registry .move = d.run.task.settle := by
      simp [Task.take, Task.step, stage, canceled]
    rw [act_move, Run.take, settles]
    rfl

theorem settled_after_move (registry : Registry S.Mw) (h : Unborn d)
    (canceled : d.run.task.canceled = true) {late : List (Act S.Gen S.Fn)}
    (move : .impulse .move ∈ late) : (d.after registry late).run.task.isSettled = true := by
  obtain ⟨before, later, rfl⟩ := List.append_of_mem move
  obtain ⟨waiting, marked⟩ := unborn_after_cancel registry h canceled before
  have settles := waiting.settles registry marked
  obtain ⟨outcome, stage⟩ := Task.isSettled_iff.1 settles
  have split : d.after registry (before ++ .impulse .move :: later) =
      ((d.after registry before).act registry (.impulse .move)).after registry later :=
    after_append ..
  rw [split, after_settled registry stage]
  exact settles

/-- Without a panic, all that happens to the task are impulses. -/
theorem exists_impulses (registry : Registry S.Mw) (id : TaskId) (root : S.Yielded)
    (acts : List (Act S.Gen S.Fn)) (h : ∀ message, .panic message ∉ acts) :
    ∃ impulses, ((start S id root).after registry acts).run =
      (Run.start id root).after registry impulses := by
  induction acts using List.reverseRecOn with
  | nil => exact ⟨[], rfl⟩
  | append_singleton acts a ih =>
    obtain ⟨impulses, run⟩ := ih fun message panic => h message (List.mem_append_left _ panic)
    rw [after_snoc]
    have more (i : Impulse S.Gen S.Fn) : ∃ impulses,
        ((start S id root).after registry acts).run.take registry i =
          (Run.start id root).after registry impulses := by
      refine ⟨impulses ++ [i], ?_⟩
      rw [Run.after_append, ← run]
      rfl
    cases a with
    | impulse i => cases i <;> exact more _
    | panic message => exact absurd (by simp) (h message)
    | cancel =>
      by_cases settled : ((start S id root).after registry acts).run.task.isSettled = true
      · refine ⟨impulses, ?_⟩
        rw [act_cancel_settled settled, ← run]
      · have call := act_cancel_unsettled registry (by simpa using settled)
        obtain ⟨impulses, requested⟩ := more .cancel
        exact ⟨impulses, (congrArg Dealings.run call).trans requested⟩

theorem true_mem_answers {acts : List (Act S.Gen S.Fn)} (h : Sound id acts d) :
    true ∈ d.answers ↔ d.run.task.canceled = true := by
  rw [← List.count_pos_iff, h.answers]
  split <;> simp [*]

/-- A call of `cancel` returns as soon as the task has settled, and fails only with the panic of the
driver. -/
theorem result_of_settled {acts : List (Act S.Gen S.Fn)} (h : Sound id acts d)
    {call : S.Code (Except Error Unit)} (hc : call ∈ d.calls) :
    (d.run.task.isSettled = true → (call.result? id d.run.task.outcome?).isSome = true) ∧
    ∀ result, call.result? id d.run.task.outcome? = some result → result = .ok () ∨
      ∃ message, .panic message ∈ acts ∧ result = .error (.cancelFailed (.panicked message)) := by
  rcases h.calls call hc with rfl | ⟨rfl, canceled⟩
  · exact ⟨fun _ => rfl, fun result returned => .inl (Option.some.inj returned).symm⟩
  · rcases settled : d.run.task.outcome? with _ | outcome
    · exact ⟨fun h => by simp [Task.isSettled, settled] at h, fun result returned => by
        simp [Code.result?, Run.awaiting] at returned⟩
    · have waited : (Run.awaiting S id).result? id (some outcome) =
          some (TaskId.cancelResult outcome) := by simp [Code.result?, Run.awaiting]
      rw [waited]
      refine ⟨fun _ => rfl, fun result returned => ?_⟩
      obtain rfl := Option.some.inj returned
      rcases h.settled outcome (Task.outcome?_eq_some.1 settled) with
        ⟨message, panic, rfl⟩ | agrees
      · exact .inr ⟨message, panic, rfl⟩
      · rw [agrees, canceled]
        exact .inl rfl

/-- Settlement and cancellation agree, whatever the driver, generators and other tasks do and in
whatever order. At most one request to cancel is granted. If one is, the task can only settle with
its cancellation, and otherwise only with its root outcome, which is what the bottom frame handed
down; and it does settle as soon as no frame is left. If the request came before the first step,
nothing ever became of any frame and the driver asks nothing of any generator, filter or handler.
Once the task has settled requests are refused, calls of `cancel` return, and nothing becomes of the
task any more. Calls that waited return too, and fail only with a panic of the driver. -/
theorem settlement_agrees (registry : Registry S.Mw) (id : TaskId) (root : S.Yielded)
    (acts : List (Act S.Gen S.Fn)) :
    let d := (start S id root).after registry acts
    let t := d.run.task
    let due : Outcome := if true ∈ d.answers then .error .cancelled else t.root
    d.answers.count true ≤ 1 ∧
    ((∀ message, .panic message ∉ acts) → ∀ outcome, t.stage = .settled outcome →
      outcome = due ∧
      ∀ last, (d.run.history.filter (!·.isCommon)).getLast? = some (.popped last) →
        t.root = last) ∧
    (t.stage = .ready → t.frames = [] →
      (d.act registry (.impulse .move)).run.task.stage = .settled due) ∧
    (∀ early late, acts = early ++ late → .impulse .move ∉ early →
      true ∈ ((start S id root).after registry early).answers →
      d.run.history = [.cancelled] ∧ (t.step registry).2 = .silent ∧
      (.impulse .move ∈ late → t.isSettled = true)) ∧
    (∀ early late, acts = early ++ late →
      ∀ outcome, ((start S id root).after registry early).run.task.stage = .settled outcome →
        let settled := (start S id root).after registry early
        d.run = settled.run ∧
        d.answers = settled.answers ++ List.replicate (late.countP Act.isRequest) false ∧
        d.calls = settled.calls ++ List.replicate (late.countP Act.isCall) (.done (.ok ()))) ∧
    ∀ call ∈ d.calls,
      (t.isSettled = true → (call.result? id t.outcome?).isSome = true) ∧
      ∀ result, call.result? id t.outcome? = some result → result = .ok () ∨
        ∃ message, .panic message ∈ acts ∧ result = .error (.cancelFailed (.panicked message)) := by
  intro d t due
  have sound : Sound id acts d := Sound.after registry id root acts
  have due_eq : due = if t.canceled then .error .cancelled else t.root :=
    if_congr (true_mem_answers sound) rfl rfl
  refine ⟨?_, ?_, ?_, ?_, ?_, fun call hc => result_of_settled sound hc⟩
  · rw [sound.answers]
    split <;> omega
  · intro calm outcome stage
    constructor
    · rcases sound.settled outcome stage with ⟨message, panic, -⟩ | agrees
      · exact absurd panic (calm message)
      · rw [agrees, due_eq]
    · intro last popped
      obtain ⟨impulses, run⟩ := exists_impulses registry id root acts calm
      have run : d.run = (Run.start id root).after registry impulses := run
      have coherent : d.run.task.Coherent := by
        rw [run]
        exact Run.coherent impulses
      have empty : d.run.task.frames = [] := coherent.settled outcome stage
      rw [run] at empty popped
      have root_eq := (Run.root_of_popped impulses empty popped).1
      rw [← run] at root_eq
      exact root_eq
  · intro ready empty
    have settles : d.run.task.take registry .move = t.settle := by
      simp [t, Task.take, Task.step, ready, empty]
    rw [act_move, Run.take, settles, due_eq]
    rfl
  · intro early late split unmoved granted
    have unborn := unborn_before_move registry id root unmoved
    have canceled := (true_mem_answers (Sound.after registry id root early)).1 granted
    have whole : d = ((start S id root).after registry early).after registry late := by
      simp only [d, split, after_append]
    obtain ⟨still, marked⟩ := unborn_after_cancel registry unborn canceled late
    rw [← whole] at still marked
    refine ⟨by simpa [marked] using still.history, still.silent marked, fun move => ?_⟩
    have settled := settled_after_move registry unborn canceled move
    rwa [← whole] at settled
  · intro early late split outcome stage settled
    have rest := after_settled registry stage late
    have whole : d = settled.after registry late := by
      simp only [d, settled, split, after_append]
    rw [whole, rest]
    exact ⟨rfl, rfl, rfl⟩

/-- A task is cancelled while its only frame runs, which then returns a value: the task settles with
its cancellation, and the call of `cancel` that waited for it returns. -/
theorem settlement_agrees_returning :
    let main : Stub := ⟨"main"⟩
    let run : List (Impulse Stub Unit) :=
      [.resumed (.complete (.ok (.bool true))) main, .move, .move]
    let acts : List (Act Stub Unit) :=
      List.replicate 4 (.impulse .move) ++ .cancel :: run.map .impulse ++ [.impulse .cancel]
    let d := (start .ofStubs default (.generator main)).after default acts
    let outcome : Outcome := .error .cancelled
    d.answers = [true, false] ∧ d.calls.map (·.result? default (some outcome)) = [some (.ok ())] ∧
    (∀ message, .panic message ∉ acts) ∧ d.run.task.stage = .settled outcome ∧
    outcome = if true ∈ d.answers then .error .cancelled else d.run.task.root := by
  intro main run acts d outcome
  have calm : ∀ message, .panic message ∉ acts := by simp [acts, run]
  have stage : d.run.task.stage = .settled outcome := rfl
  refine ⟨rfl, rfl, calm, stage, ?_⟩
  exact ((settlement_agrees (S := .ofStubs) default default (.generator main) acts).2.1 calm outcome
    stage).1

end Dealings

end EffectEngine
