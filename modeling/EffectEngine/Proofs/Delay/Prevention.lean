import EffectEngine.Proofs.Delay.Course
import EffectEngine.Proofs.Task.Observers

/-!
# Delays that are cancelled

A delayed task that is cancelled before its sleep is over, or afterwards but before its thread comes
to move, never performs its operation: what its coroutine yields then is dropped, and the coroutine
is forced to return. `cancelled_delay_performs_nothing` says this of every run, whatever the other
threads do. They can only wake the thread of the timer and cancel its task (`InPhase.bides`).
-/

namespace EffectEngine

variable {S : Sig}

/-- Only a level that waits notices that something is delivered. -/
theorem lulled_task {id : TaskId} {f : Option (Flow S (S.Signal × S.Gen))} {ls : List (Level S)}
    (h : Lulled [.task id f] ls) :
    ls = [.task id f] ∨
      ∃ k outcome, f = some (.waiting k) ∧ ls = [.task id (some (.going (k outcome)))] := by
  induction h with
  | refl => exact .inl rfl
  | tail _ delivered ih =>
    obtain ⟨outcome, rfl⟩ := delivered
    rcases ih with rfl | ⟨k, first, rfl, rfl⟩
    · rcases f with _ | code | k
      · exact .inl rfl
      · exact .inl rfl
      · exact .inr ⟨k, outcome, rfl, rfl⟩
    · exact .inr ⟨k, first, rfl, rfl⟩

namespace World

variable {i : Nat} {w : World S} {host : Host S}

/-- What is known of every world of a run, and of a task of its. -/
structure Steady (i : Nat) (w : World S) : Prop where
  upright : w.Upright
  lined : w.Lined
  station : ∃ s : Station S, s.In i w

theorem Steady.step (h : w.Steady i) (host : Host S) : (w.step host).Steady i := by
  obtain ⟨up, lined, s, stands⟩ := h
  obtain ⟨j, turns⟩ := step_passes host up
  obtain ⟨⟨s', stands', -⟩, -, -⟩ := step_station host up stands
  exact ⟨turns.upright, step_lined host lined, s', stands'⟩

theorem steady_start (tag : UInt64) (state : S.State) (recording : Bool) (body : S.Code Outcome)
    (i : Nat) : ((World.start tag state recording).addMain body).Steady i := by
  obtain ⟨up, stands⟩ := start_station tag state recording body i
  exact ⟨up, start_lined tag state recording body, _, stands⟩

theorem Steady.run (h : w.Steady i) (host : Host S) (n : Nat) :
    ((World.step host)^[n] w).Steady i := by
  induction n generalizing w with
  | zero => exact h
  | succ n ih => exact ih (h.step host)

/-- In the next move, somebody asks the task of a number to cancel and is answered with `true`. -/
def Cancels (host : Host S) (w : World S) (i : Nat) : Prop :=
  ∃ t t', w.taskAt i = some t ∧ t.requestCancel.1 = true ∧
    (w.step host).taskAt i = some t' ∧ t'.canceled = true

theorem canMove_of_deadline {o : ThreadId} {time : Nat} (waits : (o, .deadline time) ∈ w.waiting) :
    w.canMove = true := by
  have listed (l : List (ThreadId × Pending)) (known : Option Nat)
      (h : known.isSome = true ∨ (o, .deadline time) ∈ l) :
      (l.foldl earliest known).isSome = true := by
    induction l generalizing known with
    | nil => exact h.resolve_right List.not_mem_nil
    | cons e l ih =>
      refine ih _ ?_
      rcases h with h | h
      · left
        obtain ⟨thread, _ | _ | _ | _⟩ := e <;> first | exact h | rfl
      · rcases List.mem_cons.1 h with rfl | h
        · exact .inl rfl
        · exact .inr h
  rw [canMove, nextDeadline?_eq, listed _ none (.inr waits), Bool.or_true]

end World

theorem Task.canceled_of_requestCancel {G F M : Type} {t : Task G F M}
    (answered : t.requestCancel.1 = true) : t.canceled = false := by
  unfold Task.requestCancel at answered
  split at answered
  · cases answered
  · rename_i fresh
    simpa using (not_or.1 (mt Bool.or_eq_true_iff.2 fresh)).2

namespace Delay

variable {T : ClientSig}

namespace Phase

def cancel : Phase → Phase
  | unborn _ => unborn true
  | asleep _ => asleep true
  | woken _ => woken true
  | p => p

def wake : Phase → Phase
  | asleep canceled => woken canceled
  | p => p

/-- How many moves of its thread are left for a task that has been cancelled and is awake. -/
def left : Phase → Nat
  | unborn _ | emptied => 1
  | unwinding => 2
  | returning => 3
  | dropped => 4
  | _ => 5

theorem left_le (p : Phase) : p.left ≤ 5 := by
  cases p <;> simp [left]

variable {p : Phase}

theorem next_of_canceled (ms : Nat) (canceled : p.canceled = true) (awake : p.sleeps = false) :
    p.last = true ∨ ∃ p', p.next? ms = some p' ∧ p'.canceled = true ∧ p'.rests = false ∧
      p'.sleeps = false ∧ p.left = p'.left + 1 := by
  cases p with
  | unborn | emptied => exact .inl canceled
  | woken c =>
    obtain rfl : c = true := canceled
    exact .inr ⟨dropped, rfl, rfl, rfl, rfl, rfl⟩
  | dropped | returning | unwinding => exact .inr ⟨_, rfl, rfl, rfl, rfl, rfl⟩
  | asleep => cases awake
  | _ => cases canceled

theorem next_of_uncanceled (ms : Nat) (uncanceled : p.canceled = false) (awake : p.sleeps = false) :
    p = woken false ∨ ∃ p', p.next? ms = some p' ∧ p'.canceled = false := by
  cases p with
  | unborn c =>
    obtain rfl : c = false := uncanceled
    exact .inr ⟨dispatching, rfl, rfl⟩
  | woken c =>
    obtain rfl : c = false := uncanceled
    exact .inl rfl
  | starting =>
    refine .inr ⟨_, rfl, ?_⟩
    split <;> rfl
  | dispatching | offering | pushed | ready => exact .inr ⟨_, rfl, rfl⟩
  | asleep => cases awake
  | _ => cases uncanceled

end Phase

namespace Timer

variable {d : Timer T} {p p' : Phase} {w w' : World T.sig} {c : Client T}
  {registry : Registry T.sig.Mw} {listeners : List T.Listener}

theorem outcome?_task (p : Phase) : (d.task p).outcome? = none := by
  cases p <;> rfl

theorem canceled_task (p : Phase) : (d.task p).canceled = p.canceled := by
  cases p <;> rfl

theorem dormant_flow (p : Phase) : dormant [.task d.id (d.flow p)] = p.sleeps := by
  cases p <;> rfl

/-- Other threads may cancel the task while its phase rests. -/
theorem task_cancel (rests : p.rests = true) : (d.task p).requestCancel.2 = d.task p.cancel := by
  cases p with
  | unborn canceled | asleep canceled | woken canceled => cases canceled <;> rfl
  | _ => cases rests

namespace InPhase

theorem post (h : d.InPhase p w) :
    w.postsAt d.id.index d.thread.index = [.driven (d.flow p)] := by
  rw [World.postsAt, h.levels, postsOf_cons]
  simp [Level.post?, postsOf]

/-- The thread of a resting timer has been passed over. -/
theorem of_lulled (task : w'.taskAt d.id.index = some (d.task p)) (rests : p.rests = true)
    (lulled : Lulled [.task d.id (d.flow p)] (w'.levelsAt d.thread.index)) (lined : w'.Lined)
    (sleeps : p.sleeps = true →
      (∃ time, (d.thread, .deadline time) ∈ w'.waiting) ∨ d.thread ∈ w'.ready) :
    d.InPhase p w' ∨ d.InPhase p.wake w' := by
  have busy : p.rests = false → w'.ready.head? = some d.thread :=
    fun runs => nomatch runs.symm.trans rests
  cases p with
  | unborn | woken =>
    rcases lulled_task lulled with same | ⟨k, outcome, waits, -⟩
    · exact .inl ⟨task, same, busy, nofun⟩
    · cases waits
  | asleep canceled =>
    -- The level tells whether the thread has been woken, and so does its place in the line.
    rcases lulled_task lulled with same | ⟨k, outcome, waits, gone⟩
    · rcases sleeps rfl with waits | awake
      · exact .inl ⟨task, same, busy, fun _ => waits⟩
      · have alert := lined.awake _ awake
        rw [same] at alert
        cases alert
    · obtain rfl : (fun _ => d.wakes) = k := Flow.waiting.inj (Option.some.inj waits)
      exact .inr ⟨task, gone, nofun, nofun⟩
  | _ => cases rests

/-- Another thread moves, or the clock. -/
theorem bides {host : Host T.sig} {s : Station T.sig} {es : List Event} (h : d.InPhase p w)
    (away : w.ready.head? ≠ some d.thread) (stands : s.In d.id.index w)
    (goes : Station.Goes host d.id.index s es w w') (lined : w'.Lined) :
    d.InPhase p w' ∨ d.InPhase p.cancel w' ∨ d.InPhase p.wake w' ∨ d.InPhase p.cancel.wake w' := by
  have rests : p.rests = true := by
    by_contra runs
    exact away (h.runs (Bool.eq_false_iff.2 runs))
  obtain ⟨-, elsewhere⟩ := stands.post_of h.post
  have alive : s.task = some (d.task p) := stands.task.symm.trans h.task
  have heeds : World.Heeds (some (d.task p)) (w'.taskAt d.id.index) := by
    rw [← h.task]
    refine goes.heeds (by simp [alive]) fun id head => elsewhere id.index fun same => away ?_
    exact head.trans (congrArg some (congrArg ThreadId.mk same))
  have bypassed := goes.others d.thread away
  have lulled := bypassed.levels (World.known_of_levelsAt h.levels)
  rw [h.levels] at lulled
  have sleeps (asleep : p.sleeps = true) :
      (∃ time, (d.thread, .deadline time) ∈ w'.waiting) ∨ d.thread ∈ w'.ready := by
    obtain ⟨time, waits⟩ := h.sleeps asleep
    exact (bypassed.waiting _ waits).imp_left fun waits => ⟨time, waits⟩
  rcases heeds with same | cancelled
  · rcases of_lulled same rests lulled lined sleeps with stays | wakes
    · exact .inl stays
    · exact .inr (.inr (.inl wakes))
  · rw [Option.map_some, task_cancel rests] at cancelled
    have alike : p.cancel.rests = true ∧ d.flow p.cancel = d.flow p ∧
        p.cancel.sleeps = p.sleeps := by
      cases p with
      | unborn | asleep | woken => exact ⟨rfl, rfl, rfl⟩
      | _ => cases rests
    obtain ⟨rests', flow, sleeps'⟩ := alike
    rw [← flow] at lulled
    rw [← sleeps'] at sleeps
    rcases of_lulled cancelled rests' lulled lined sleeps with stays | wakes
    · exact .inr (.inl stays)
    · exact .inr (.inr (.inr wakes))

end InPhase

/-! ### Runs -/

section Outlook

variable (d)

/-- The task has been forked or spawned and has not begun. -/
structure Launched (w : World T.sig) : Prop where
  task : w.taskAt d.id.index = some (.fresh d.id (.operation d.root))
  levels : w.levelsAt d.thread.index = [.task d.id none]

/-- Whether the coroutine of the delay is resumed after its sleep in the next move: all that is left
of its code is what it suspends with. -/
def goesOn (w : World T.sig) : Bool :=
  match w.levelsAt d.thread.index with
  | .task _ (some (.going (.done _))) :: _ => w.ready.head? == some d.thread
  | _ => false

/-- The delay has neither been cancelled nor gone on after its sleep. -/
def Early (w : World T.sig) : Prop := ∃ p : Phase, p.canceled = false ∧ d.InPhase p w

/-- The delay has been cancelled before it went on after its sleep. -/
def Doomed (w : World T.sig) : Prop := d.Over w ∨ ∃ p : Phase, p.canceled = true ∧ d.InPhase p w

/-- The task has nothing to do with the operation that it delays: it dispatches nothing but the
delay itself, and all that it asks for is to resume the coroutine of the delay. -/
structure Untouched (host : Host T.sig) (w : World T.sig) : Prop where
  asks : ∀ task ctx request, w.asking? host = some (task, ctx, request) →
    task.index = d.id.index →
      request = .silent ∨ ∃ c input, request = .resume (.library "delay" c) input
  dispatches : ∀ t y, w.taskAt d.id.index = some t → t.dispatching? = some y →
    y = .operation d.root ∧ y ≠ .operation d.op
  frames : ∀ t, w.taskAt d.id.index = some t →
    t.frames.length ≤ 1 ∧ ∀ f ∈ t.frames, f.name = "delay" ∧ f.defers = []

/-- The task settles as cancelled: at the latest when the fifth move of its thread has been made
that is awake, and its thread is not forgotten until then. -/
structure Ends (host : Host T.sig) (w : World T.sig) : Prop where
  outcome : ∀ outcome, w.outcome? d.id = some outcome → outcome = .error .cancelled
  line : w.outcome? d.id = none →
    d.thread ∈ w.ready ∨ ∃ time, (d.thread, .deadline time) ∈ w.waiting
  prompt : w.ready.head? = some d.thread →
    ∃ k ≤ 5, ((World.step host)^[k] w).outcome? d.id = some (.error .cancelled)
  rest : w.canMove = false → w.outcome? d.id = some (.error .cancelled)

end Outlook

/-- A spawned delay is launched. -/
theorem launched_spawn (w : World T.sig) (ctx : T.sig.Ctx) (ms : Nat) (op : T.sig.Operation) :
    Launched ⟨⟨w.tag, w.tasks.size⟩, ⟨w.threads.size⟩, ms, op⟩
      (w.spawn ctx (.operation (delay ms op))).2 :=
  ⟨(World.taskAt_spawn w ctx _ _).trans (if_pos rfl),
    (World.levelsAt_spawn w ctx _ _).trans (if_pos rfl)⟩

theorem Launched.early (h : d.Launched w) : d.Early w :=
  ⟨.unborn false, rfl, h.task, h.levels, nofun, nofun⟩

theorem Over.outcome (h : d.Over w) : w.outcome? d.id = some (.error .cancelled) := by
  show (w.taskAt d.id.index).bind (·.outcome?) = _
  rw [h.task]
  rfl

theorem InPhase.outcome (h : d.InPhase p w) : w.outcome? d.id = none := by
  show (w.taskAt d.id.index).bind (·.outcome?) = _
  rw [h.task]
  exact outcome?_task p

theorem Early.uncanceled (h : d.Early w) {t : T.sig.Task} (known : w.taskAt d.id.index = some t) :
    t.canceled = false := by
  obtain ⟨p, uncanceled, stands⟩ := h
  obtain rfl := Option.some.inj (stands.task.symm.trans known)
  exact (canceled_task p).trans uncanceled

theorem Doomed.canceled (h : d.Doomed w) {t : T.sig.Task} (known : w.taskAt d.id.index = some t) :
    t.canceled = true := by
  rcases h with finished | ⟨p, canceled, stands⟩
  · obtain rfl := Option.some.inj (finished.task.symm.trans known)
    rfl
  · obtain rfl := Option.some.inj (stands.task.symm.trans known)
    exact (canceled_task p).trans canceled

section Steady

variable (steady : w.Steady d.id.index)
include steady

/-- A thread that moves is awake. -/
theorem InPhase.awake (h : d.InPhase p w) (head : w.ready.head? = some d.thread) :
    p.sleeps = false := by
  have alert := steady.lined.awake _ (List.mem_of_head? head)
  rwa [h.levels, dormant_flow] at alert

theorem Over.step (h : d.Over w) (host : Host T.sig) : d.Over (w.step host) := by
  obtain ⟨up, lined, s, stands⟩ := steady
  obtain ⟨⟨s', stands', step⟩, heeds, -⟩ := World.step_station host up stands
  have alive : s.task = some d.settled := stands.task.symm.trans h.task
  have vacant := stands.vacant_iff.2 h.vacant
  refine ⟨?_, stands'.vacant_iff.1 (step.vacant (by simp [alive]) vacant)⟩
  rcases heeds (by simp [alive]) fun id _ => h.vacant id.index with same | cancelled
  · exact same.trans h.task
  · rw [cancelled, h.task]
    rfl

variable (plain : registry.contains executeKind = false)
include plain

theorem Doomed.step (h : d.Doomed w) : d.Doomed (w.step (c.host registry listeners)) := by
  rcases h with finished | ⟨p, canceled, stands⟩
  · exact .inl (finished.step steady _)
  · by_cases head : w.ready.head? = some d.thread
    · rcases Phase.next_of_canceled d.ms canceled (stands.awake steady head) with
        last | ⟨p', next, canceled', -⟩
      · obtain ⟨s, there⟩ := steady.station
        exact .inl (stands.settles head last steady.upright there)
      · exact .inr ⟨p', canceled', stands.goes plain head next⟩
    · obtain ⟨s, there⟩ := steady.station
      have goes := World.step_station (c.host registry listeners) steady.upright there
      have lined := World.step_lined (c.host registry listeners) steady.lined
      have kept : p.cancel.canceled = true ∧ p.wake.canceled = true ∧
          p.cancel.wake.canceled = true := by
        cases p <;> simp_all [Phase.cancel, Phase.wake, Phase.canceled]
      obtain ⟨cancelled, woken, both⟩ := kept
      rcases stands.bides head there goes lined with h | h | h | h
      · exact .inr ⟨_, canceled, h⟩
      · exact .inr ⟨_, cancelled, h⟩
      · exact .inr ⟨_, woken, h⟩
      · exact .inr ⟨_, both, h⟩

theorem Early.step (h : d.Early w) (sleeps : d.goesOn w = false) :
    d.Early (w.step (c.host registry listeners)) ∨
      d.Doomed (w.step (c.host registry listeners)) := by
  obtain ⟨p, uncanceled, stands⟩ := h
  have sorted {p : Phase} {w' : World T.sig} (stands : d.InPhase p w') :
      d.Early w' ∨ d.Doomed w' := by
    cases canceled : p.canceled with
    | false => exact .inl ⟨p, canceled, stands⟩
    | true => exact .inr (.inr ⟨p, canceled, stands⟩)
  by_cases head : w.ready.head? = some d.thread
  · rcases Phase.next_of_uncanceled d.ms uncanceled (stands.awake steady head) with
      rfl | ⟨p', next, -⟩
    · simp [goesOn, stands.levels, flow, wakes, head] at sleeps
    · exact sorted (stands.goes plain head next)
  · obtain ⟨s, there⟩ := steady.station
    have goes := World.step_station (c.host registry listeners) steady.upright there
    have lined := World.step_lined (c.host registry listeners) steady.lined
    rcases stands.bides head there goes lined with h | h | h | h <;> exact sorted h

/-- Once its thread moves, a task that has been cancelled settles soon. -/
theorem InPhase.soon (h : d.InPhase p w) (canceled : p.canceled = true)
    (head : w.ready.head? = some d.thread) :
    ∃ k ≤ p.left, d.Over ((World.step (c.host registry listeners))^[k] w) := by
  induction moves : p.left generalizing p w with
  | zero => cases p <;> cases moves
  | succ n ih =>
    rcases Phase.next_of_canceled d.ms canceled (h.awake steady head) with
      last | ⟨p', next, canceled', runs, -, fewer⟩
    · obtain ⟨s, there⟩ := steady.station
      exact ⟨1, Nat.succ_le_succ (Nat.zero_le n), h.settles head last steady.upright there⟩
    · have goes : d.InPhase p' (w.step (c.host registry listeners)) := h.goes plain head next
      obtain ⟨k, bound, ends⟩ := ih (steady.step _) goes canceled' (goes.runs runs) (by omega)
      exact ⟨k + 1, Nat.succ_le_succ bound, ends⟩

theorem Doomed.ends (h : d.Doomed w) : d.Ends (c.host registry listeners) w := by
  rcases h with finished | ⟨p, canceled, stands⟩
  · refine ⟨fun outcome ended => ?_, fun none => ?_, fun _ => ⟨0, Nat.zero_le 5, finished.outcome⟩,
      fun _ => finished.outcome⟩
    · exact Option.some.inj (ended.symm.trans finished.outcome)
    · cases none.symm.trans finished.outcome
  · have placed : d.thread ∈ w.ready ∨ ∃ time, (d.thread, .deadline time) ∈ w.waiting := by
      have there := steady.lined.all d.thread.index (by simp [stands.levels])
      cases asleep : p.sleeps with
      | true => exact .inr (stands.sleeps asleep)
      | false =>
        refine .inl ((List.mem_append.1 there).resolve_right fun waits => ?_)
        obtain ⟨e, he, own⟩ := List.mem_map.1 waits
        have dormant := steady.lined.asleep e he
        rw [own, stands.levels, dormant_flow, asleep] at dormant
        cases dormant
    refine ⟨fun outcome ended => ?_, fun _ => placed, fun head => ?_, fun rests => ?_⟩
    · cases ended.symm.trans stands.outcome
    · obtain ⟨k, bound, finished⟩ : ∃ k ≤ p.left,
          d.Over ((World.step (c.host registry listeners))^[k] w) :=
        stands.soon steady plain canceled head
      exact ⟨k, bound.trans p.left_le, finished.outcome⟩
    · rcases placed with ready | ⟨time, waits⟩
      · simp [World.canMove, List.ne_nil_of_mem ready] at rests
      · exact absurd (World.canMove_of_deadline waits) (by simp [rests])

end Steady

theorem untouched_of {t : T.sig.Task} (task : w.taskAt d.id.index = some t)
    (asks : (t.step registry).2 = .silent ∨
      ∃ c input, (t.step registry).2 = .resume (.library "delay" c) input)
    (dispatches : ∀ y, t.dispatching? = some y → y = .operation d.root)
    (frames : t.frames.length ≤ 1 ∧ ∀ f ∈ t.frames, f.name = "delay" ∧ f.defers = []) :
    d.Untouched (c.host registry listeners) w := by
  refine ⟨fun asker ctx request asked own => ?_, fun t' y known begun => ?_, fun t' known => ?_⟩
  · unfold World.asking? at asked
    split at asked
    · obtain ⟨⟨t', ctx'⟩, known, same⟩ := Option.map_eq_some_iff.1 asked
      obtain ⟨rfl, -, rfl⟩ := by simpa only [Prod.mk.injEq] using same
      rw [own] at known
      obtain rfl : t' = t :=
        Option.some.inj ((congrArg (Option.map Prod.fst) known).symm.trans task)
      exact asks
    · cases asked
  · obtain rfl := Option.some.inj (known.symm.trans task)
    obtain rfl := dispatches y begun
    exact ⟨rfl, fun same => d.op_ne_root (Yielded.operation.inj same).symm⟩
  · obtain rfl := Option.some.inj (known.symm.trans task)
    exact frames

theorem InPhase.untouched (h : d.InPhase p w) : d.Untouched (c.host registry listeners) w := by
  refine untouched_of h.task ?_ ?_ ?_
  · cases p with
    | unborn canceled => cases canceled <;> exact .inl rfl
    | ready | dropped => exact .inr ⟨_, _, rfl⟩
    | _ => exact .inl rfl
  · intro y begun
    cases p <;> cases begun <;> rfl
  · cases p <;> simp [Timer.task, frame]

theorem Over.untouched (h : d.Over w) : d.Untouched (c.host registry listeners) w :=
  untouched_of h.task (.inl rfl) nofun ⟨Nat.zero_le 1, nofun⟩

theorem Doomed.untouched (h : d.Doomed w) : d.Untouched (c.host registry listeners) w := by
  rcases h with finished | ⟨p, -, stands⟩
  · exact finished.untouched
  · exact stands.untouched

end Timer

/-- In an engine without middleware for `execute`, a delay that is cancelled before its coroutine
has been resumed after the sleep does not perform its operation, and its task settles as
cancelled. -/
theorem cancelled_delay_performs_nothing (c : Client T) {registry : Registry T.sig.Mw}
    (plain : registry.contains executeKind = false) (listeners : List T.Listener) (tag : UInt64)
    (state : T.sig.State) (recording : Bool) (body : T.sig.Code Outcome) (d : Timer T)
    (m n : Nat) :
    let host := c.host registry listeners
    let w (k : Nat) := (World.step host)^[k] ((World.start tag state recording).addMain body)
    d.Launched (w m) → m ≤ n → (∀ k ≤ n, d.goesOn (w k) = false) → (w n).Cancels host d.id.index →
      (∀ k ≥ m, d.Untouched host (w k)) ∧ ∀ k > n, d.Ends host (w k) := by
  intro host w launched later sleeps cancels
  have steady (k : Nat) : (w k).Steady d.id.index :=
    (World.steady_start tag state recording body d.id.index).run host k
  have next (k : Nat) : w (k + 1) = (w k).step host := Function.iterate_succ_apply' _ _ _
  have doomed {k : Nat} (h : d.Doomed (w k)) (j : Nat) : d.Doomed (w (k + j)) := by
    induction j with
    | zero => exact h
    | succ j ih => exact next (k + j) ▸ ih.step (steady _) plain
  obtain ⟨t, t', known, answered, known', canceled⟩ := cancels
  -- A task that is doomed has been cancelled, and can no more be.
  have early (j : Nat) (before : m + j ≤ n) : d.Early (w (m + j)) := by
    induction j with
    | zero => exact launched.early
    | succ j ih =>
      have stepped : d.Early ((w (m + j)).step host) ∨ d.Doomed ((w (m + j)).step host) :=
        (ih (by omega)).step (steady (m + j)) plain (sleeps (m + j) (by omega))
      rw [← next] at stepped
      refine stepped.resolve_right fun h => ?_
      have late := doomed h (n - (m + j + 1))
      rw [Nat.add_sub_cancel' (show m + j + 1 ≤ n from before)] at late
      cases (Task.canceled_of_requestCancel answered).symm.trans (late.canceled known)
  obtain ⟨span, rfl⟩ := Nat.exists_eq_add_of_le later
  have now : d.Doomed (w (m + span + 1)) := by
    have stepped : d.Early ((w (m + span)).step host) ∨ d.Doomed ((w (m + span)).step host) :=
      (early span (Nat.le_refl _)).step (steady _) plain (sleeps _ (Nat.le_refl _))
    rw [next]
    refine stepped.resolve_left fun h => ?_
    cases canceled.symm.trans (h.uncanceled known')
  refine ⟨fun k born => ?_, fun k after => ?_⟩
  · rcases Nat.lt_or_ge (m + span) k with after | before
    · obtain ⟨j, rfl⟩ := Nat.exists_eq_add_of_le after
      exact (doomed now j).untouched
    · obtain ⟨j, rfl⟩ := Nat.exists_eq_add_of_le born
      obtain ⟨p, -, stands⟩ := early j before
      exact stands.untouched
  · obtain ⟨j, rfl⟩ := Nat.exists_eq_add_of_le (Nat.succ_le_of_lt after)
    exact (doomed now j).ends (steady _) plain

/-- A delay of five milliseconds is spawned, and cancelled as soon as the time is up. -/
def cancelling : Watcher.scriptSig.sig.Code Outcome :=
  .perform (.spawn ⟨0⟩ (.operation (delay 5 (.custom "alarm" .null)))) fun _ =>
    .perform (.wait (.sleep 5)) fun _ => .ask (.requestCancel ⟨0, 0⟩) fun _ => .done (.ok .null)

def alarm : Timer Watcher.scriptSig := ⟨⟨0, 0⟩, ⟨1⟩, 5, .custom "alarm" .null⟩

def plainHost : Host Watcher.scriptSig.sig := Watcher.scripts.host ⟨[]⟩ []

/-- The world of `cancelling` after some moves. -/
def cancellingAfter (k : Nat) : World Watcher.scriptSig.sig :=
  (World.step plainHost)^[k] ((World.start 0 (Shared.start ()) false).addMain cancelling)

/-- The request comes when the time is up and before the alarm has moved, and the alarm performs
nothing. -/
theorem cancelled_delay_performs_nothing_woken :
    plainHost.registry.contains executeKind = false ∧ alarm.Launched (cancellingAfter 1) ∧
      (∀ k ≤ 9, alarm.goesOn (cancellingAfter k) = false) ∧
      (cancellingAfter 9).Cancels plainHost alarm.id.index ∧
      (∀ k ≥ 1, alarm.Untouched plainHost (cancellingAfter k)) ∧
      (∀ k > 9, alarm.Ends plainHost (cancellingAfter k)) ∧
      (cancellingAfter 16).outcome? alarm.id = some (.error .cancelled) := by
  have plain : plainHost.registry.contains executeKind = false := rfl
  have launched : alarm.Launched (cancellingAfter 1) := ⟨rfl, rfl⟩
  have sleeps : ∀ k ≤ 9, alarm.goesOn (cancellingAfter k) = false := by decide +kernel
  have cancels : (cancellingAfter 9).Cancels plainHost alarm.id.index :=
    ⟨alarm.task (.woken false), alarm.task (.woken true), rfl, rfl, rfl, rfl⟩
  have settles : (∀ k ≥ 1, alarm.Untouched plainHost (cancellingAfter k)) ∧
      ∀ k > 9, alarm.Ends plainHost (cancellingAfter k) :=
    cancelled_delay_performs_nothing Watcher.scripts plain [] 0 (Shared.start ()) false cancelling
      alarm 1 9 launched (by decide) sleeps cancels
  exact ⟨plain, launched, sleeps, cancels, settles.1, settles.2, rfl⟩

end Delay

end EffectEngine
