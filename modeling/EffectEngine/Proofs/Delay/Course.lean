import EffectEngine.Client
import EffectEngine.Proofs.World.Driving
import EffectEngine.Proofs.World.Lines
import EffectEngine.Proofs.World.StationMoves

/-!
# The course of a delayed task

A `Timer` is a task on a thread of its own that is to perform an operation after some time.
`Phase` lists where it can stand, from its birth until its sleep is over or, if it has been
cancelled by then, until it settles. When its thread moves, it goes on to the next phase
(`InPhase.goes`), and it settles as cancelled after the last one (`InPhase.settles`).
-/

namespace EffectEngine

/-- What a task has begun to dispatch. -/
def Task.dispatching? {G F M : Type} (t : Task G F M) : Option (Yielded G F) :=
  match t.stage with
  | .dispatching y _ _ => some y
  | .offering op _ _ _ | .handling op _ _ => some (.operation op)
  | _ => none

theorem Registry.handlers_eq_nil {M : Type} {registry : Registry M} {kind : String}
    (without : registry.contains kind = false) : registry.handlers kind = [] := by
  simpa [Registry.handlers, Registry.contains] using without

namespace Delay

structure Timer (T : ClientSig) where
  id : TaskId
  thread : ThreadId
  ms : Nat
  op : T.sig.Operation

/-- Where a delayed task stands. -/
inductive Phase where
  | unborn (canceled : Bool)
  | dispatching
  | offering
  | pushed
  | ready
  | starting
  | asleep (canceled : Bool)
  /-- The sleep is over, and the thread has not come to move yet. -/
  | woken (canceled : Bool)
  /-- What the coroutine yielded after it had been cancelled is dropped. -/
  | dropped
  | returning
  | unwinding
  | emptied

namespace Phase

/-- The next phase of a task whose thread moves, if there is one. -/
def next? (ms : Nat) : Phase → Option Phase
  | unborn false => some dispatching
  | dispatching => some offering
  | offering => some pushed
  | pushed => some ready
  | ready => some starting
  | starting => some (if ms = 0 then woken false else asleep false)
  | woken true => some dropped
  | dropped => some returning
  | returning => some unwinding
  | unwinding => some emptied
  | unborn true | asleep _ | woken false | emptied => none

/-- Whether the thread of the task only has to move for the task to settle. -/
def last : Phase → Bool
  | unborn canceled => canceled
  | emptied => true
  | _ => false

/-- Other threads may move while a task is in one of these phases. -/
def rests : Phase → Bool
  | unborn _ | asleep _ | woken _ => true
  | _ => false

def sleeps : Phase → Bool
  | asleep _ => true
  | _ => false

def canceled : Phase → Bool
  | unborn canceled | asleep canceled | woken canceled => canceled
  | dropped | returning | unwinding | emptied => true
  | _ => false

end Phase

/-- The frame of a delay. -/
def frame {T : ClientSig} (c : Coroutine (Opening T.sig.Gen T.Fn) Midway) (mark : Mark)
    (completed : Bool) : Frame T.sig.Gen T.sig.Fn T.sig.Mw :=
  ⟨.library "delay" c, "delay", mark, .ok .null, [], completed, none⟩

namespace Timer

variable {T : ClientSig} (d : Timer T)

def root : T.sig.Operation := delay d.ms d.op

theorem op_ne_root : d.op ≠ d.root := by
  intro same
  have size := congrArg sizeOf same
  simp [root, delay, Gen.ofOpening] at size
  omega

/-- What is left of the code of a delay when its sleep is over. -/
def wakes : T.sig.Code (T.sig.Signal × T.sig.Gen) :=
  .done (.yielded (.operation d.op), .library "delay" (.suspended .delay))

def task (p : Phase) : T.sig.Task :=
  let created := frame (T := T) (.created (.delay d.ms d.op))
  let suspended := frame (T := T) (.suspended .delay)
  let sleeping (canceled : Bool) : T.sig.Task :=
    ⟨d.id, canceled, [created (if canceled then .pending else .clear) false], .ok .null, .resuming⟩
  let slot : HandlerSlot T.sig.Mw := ⟨executeKind, [], 0⟩
  match p with
  | .unborn canceled => ⟨d.id, canceled, [], .ok .null, .fresh (.operation d.root)⟩
  | .dispatching =>
    ⟨d.id, false, [], .ok .null, .dispatching (.operation d.root) none .yielded⟩
  | .offering => ⟨d.id, false, [], .ok .null, .offering d.root slot none .yielded⟩
  | .pushed => ⟨d.id, false, [created .clear false], .ok .null, .dispatched (.ok ()) .yielded⟩
  | .ready => ⟨d.id, false, [created .clear false], .ok .null, .ready⟩
  | .starting => sleeping false
  | .asleep canceled | .woken canceled => sleeping canceled
  | .dropped => ⟨d.id, true, [suspended .pending false], .ok .null, .ready⟩
  | .returning => ⟨d.id, true, [suspended .forced false], .ok .null, .resuming⟩
  | .unwinding => ⟨d.id, true, [frame .finished .forced true], .ok .null, .unwinding⟩
  | .emptied => ⟨d.id, true, [], .ok .null, .ready⟩

/-- The task when all is over. -/
def settled : T.sig.Task := ⟨d.id, true, [], .ok .null, .settled (.error .cancelled)⟩

def flow (p : Phase) : Option (Flow T.sig (T.sig.Signal × T.sig.Gen)) :=
  match p with
  | .starting => some (.going (.perform (.wait (.sleep d.ms)) fun _ => d.wakes))
  | .asleep _ => some (.waiting fun _ => d.wakes)
  | .woken _ => some (.going d.wakes)
  | .returning =>
    some (.going (.done (.complete (.error .interrupted), .library "delay" .finished)))
  | _ => none

/-- A timer is in a phase. -/
structure InPhase (p : Phase) (w : World T.sig) : Prop where
  task : w.taskAt d.id.index = some (d.task p)
  levels : w.levelsAt d.thread.index = [.task d.id (d.flow p)]
  runs : p.rests = false → w.ready.head? = some d.thread
  sleeps : p.sleeps = true → ∃ time, (d.thread, .deadline time) ∈ w.waiting

/-- A timer has settled as cancelled, and no thread has to do with it any more. -/
structure Over (w : World T.sig) : Prop where
  task : w.taskAt d.id.index = some d.settled
  vacant : ∀ j, w.postsAt d.id.index j = []

variable {d} {p p' : Phase} {w w' : World T.sig} {c : Client T} {registry : Registry T.sig.Mw}
  {listeners : List T.Listener}

namespace InPhase

theorem drives (h : d.InPhase p w) (head : w.ready.head? = some d.thread) :
    ∃ ctx, w.Drives d.thread d.id ctx ∧
      w = w.driving d.thread [] d.id (d.flow p) (d.task p) w.state := by
  obtain ⟨⟨t, ctx⟩, known, rfl⟩ := Option.map_eq_some_iff.1 h.task
  have there := World.known_of_levelsAt h.levels
  obtain ⟨thread, found⟩ : ∃ thread, w.threads[d.thread.index]? = some thread :=
    ⟨_, Array.getElem?_eq_getElem there⟩
  have holds : w.levels? d.thread = some [.task d.id (d.flow p)] := by
    have levels := h.levels
    simp only [World.levelsAt, found, Option.map_some, Option.getD_some] at levels
    simp only [World.levels?, found, Option.map_some, levels]
  exact ⟨ctx, .of_levels head holds known, (World.driving_self holds known).symm⟩

theorem of_driving {ctx : T.sig.Ctx} (drives : w.Drives d.thread d.id ctx)
    (awake : p.sleeps = false) :
    d.InPhase p (w.driving d.thread [] d.id (d.flow p) (d.task p) w.state) := by
  refine ⟨?_, ?_, fun _ => drives.head, fun asleep => nomatch awake.symm.trans asleep⟩
  · exact congrArg (Option.map Prod.fst) (World.task_driving drives)
  · exact congrArg (Option.getD · []) (World.levels?_driving drives)

/-- The thread of a timer moves. -/
theorem goes (h : d.InPhase p w) (plain : registry.contains executeKind = false)
    (head : w.ready.head? = some d.thread) (next : p.next? d.ms = some p') :
    d.InPhase p' (w.step (c.host registry listeners)) := by
  obtain ⟨ctx, drives, self⟩ := h.drives head
  have reach {p' : Phase} (awake : p'.sleeps = false)
      (moves : (w.driving d.thread [] d.id (d.flow p) (d.task p) w.state).step
        (c.host registry listeners) =
        w.driving d.thread [] d.id (d.flow p') (d.task p') w.state) :
      d.InPhase p' (w.step (c.host registry listeners)) := by
    rw [self, moves]
    exact of_driving drives awake
  have chain := Registry.handlers_eq_nil plain
  cases p with
  | unborn canceled =>
    cases canceled <;> cases next
    exact reach rfl (World.step_silent drives rfl rfl)
  | dispatching =>
    cases next
    refine reach rfl (World.step_silent drives ?_ rfl)
    show (d.task .dispatching).step registry = _
    simp only [Timer.task, root, delay, Task.step, Task.dispatch, Operation.kind, chain]
    rfl
  | offering | pushed | unwinding =>
    cases next
    exact reach rfl (World.step_silent drives rfl rfl)
  | ready =>
    cases next
    have resumes : (d.task .ready).step registry =
        (d.task .starting, .resume (.library "delay" (.created (.delay d.ms d.op)))
          (.next .null)) := rfl
    refine reach rfl ((World.step_resume drives resumes rfl).trans ?_)
    rfl
  | starting =>
    cases next
    by_cases short : d.ms = 0
    · rw [if_pos short]
      refine reach rfl ?_
      simp only [flow, short]
      exact World.step_sleep_zero drives
    · rw [if_neg short, self]
      have slept : (w.driving d.thread [] d.id (d.flow .starting) (d.task .starting) w.state).step
          (c.host registry listeners) = _ := World.step_sleep drives short
      rw [slept]
      refine ⟨?_, ?_, fun moves => Bool.noConfusion moves, fun _ => ?_⟩
      · exact congrArg (Option.map Prod.fst) (World.task_driving drives (s := w.state))
      · exact congrArg (Option.getD · []) (World.levels?_driving drives (s := w.state))
      · exact ⟨_, List.mem_append_right _ (List.mem_singleton_self _)⟩
  | asleep => cases next
  | woken canceled =>
    cases canceled <;> cases next
    exact reach rfl (World.step_done drives)
  | dropped =>
    cases next
    have forces : (d.task .dropped).step registry =
        (d.task .returning, .resume (.library "delay" (.suspended .delay)) .forcedReturn) := rfl
    refine reach rfl ((World.step_resume drives forces rfl).trans ?_)
    rfl
  | returning =>
    cases next
    exact reach rfl (World.step_done drives)
  | emptied => cases next

/-- The thread of a timer moves for the last time. -/
theorem settles (h : d.InPhase p w) (head : w.ready.head? = some d.thread) (last : p.last = true)
    (up : w.Upright) {s : Station T.sig} (stands : s.In d.id.index w) :
    d.Over (w.step (c.host registry listeners)) := by
  obtain ⟨ctx, drives, self⟩ := h.drives head
  have ends : (d.task p).step registry = (d.settled, .silent) ∧ d.flow p = none := by
    cases p with
    | unborn canceled =>
      obtain rfl : canceled = true := last
      exact ⟨rfl, rfl⟩
    | emptied => exact ⟨rfl, rfl⟩
    | _ => cases last
  obtain ⟨steps, flow⟩ := ends
  rw [flow] at self
  have settles : w.settlement? (c.host registry listeners) d.id.index =
      some (.error .cancelled) := by
    obtain ⟨rest, ready⟩ := List.head?_eq_some_iff.1 head
    simp only [World.settlement?, ready, h.levels, flow, h.task, if_true, Option.bind_some]
    exact congrArg (fun r => r.1.outcome?) steps
  refine ⟨?_, (World.posts_of_settlement up stands settles).2⟩
  rw [self, World.step_settled drives steps rfl,
    World.taskAt_of_eq ((World.tasks_finishLevel _ _ _ _).trans (World.tasks_wake _ _ _))]
  exact congrArg (Option.map Prod.fst) (World.task_driving drives)

end InPhase

end Timer

end Delay

end EffectEngine
