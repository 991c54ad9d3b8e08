import EffectEngine.Machine
import EffectEngine.Proofs.Task.Permits
import EffectEngine.Proofs.World.Tasks

/-!
# Code that minds its own business

A `Conduct` says what code may do: `Code.Discreet` code leaves a part of the state alone, and starts
only permitted tasks. `World.Kept` is about a move of one thread: all other threads hold discreet
code, all tasks are orderly, and what is set apart in a `Reserve` of tasks and threads is as it was
before, but for requests to cancel. There is one lemma for each operation of the world.
-/

namespace EffectEngine

namespace Code

variable {E σ N α β : Type} {spares : σ → σ → Prop} {fits : E → Prop} {ends : α → Prop}
  {ends' : β → Prop} {s : σ}

/-- Code that, begun in the given state, changes the state only as it is spared and has only fitting
effects. -/
def Discreet (spares : σ → σ → Prop) (fits : E → Prop) (ends : α → Prop) : Code E σ N α → σ → Prop
  | .done a, _ => ends a
  | .panic _, _ => True
  | .ask .get k, s => (k s).Discreet spares fits ends s
  | .ask (.put s') k, s => spares s s' ∧ (k ()).Discreet spares fits ends s'
  | .ask (.requestCancel _) k, s => ∀ a, (k a).Discreet spares fits ends s
  | .ask .now k, s => ∀ a, (k a).Discreet spares fits ends s
  | .ask (.isSettled _) k, s => ∀ a, (k a).Discreet spares fits ends s
  | .ask .newPromise k, s => ∀ a, (k a).Discreet spares fits ends s
  | .ask (.fulfil ..) k, s => (k ()).Discreet spares fits ends s
  | .ask (.note _) k, s => (k ()).Discreet spares fits ends s
  | .ask (.log _) k, s => (k ()).Discreet spares fits ends s
  | .ask .recorded k, s => ∀ a, (k a).Discreet spares fits ends s
  | .ask .clearRecorded k, s => (k ()).Discreet spares fits ends s
  | .perform e k, _ => fits e ∧ ∀ r s', (k r).Discreet spares fits ends s'

namespace Discreet

theorem bind {code : Code E σ N α} (h : code.Discreet spares fits ends s) {f : α → Code E σ N β}
    (hf : ∀ a s, ends a → (f a).Discreet spares fits ends' s) :
    (code.bind f).Discreet spares fits ends' s := by
  induction code generalizing s with
  | done a => exact hf a s h
  | panic => trivial
  | ask q k ih =>
    cases q with
    | get => exact ih s h
    | put s' => exact ⟨h.1, ih () h.2⟩
    | requestCancel | now | isSettled | newPromise | recorded => exact fun a => ih a (h a)
    | fulfil | note | log | clearRecorded => exact ih () h
  | perform e k ih => exact ⟨h.1, fun r s' => ih r (h.2 r s')⟩

theorem lift {code : Sync σ N α} (h : code.Discreet spares (fun _ => True) ends s) :
    (Code.lift code : Code E σ N α).Discreet spares fits ends s := by
  induction code generalizing s with
  | done a => exact h
  | panic => trivial
  | ask q k ih =>
    cases q with
    | get => exact ih s h
    | put s' => exact ⟨h.1, ih () h.2⟩
    | requestCancel | now | isSettled | newPromise | recorded => exact fun a => ih a (h a)
    | fulfil | note | log | clearRecorded => exact ih () h
  | perform e => exact nomatch e

end Discreet

end Code

/-- What code may do: what it may hand to the engine, the contexts that tasks may run in, and how it
may change the state. -/
structure Conduct (S : Sig) where
  permits : Permits S.Gen S.Fn S.Mw
  context : S.Ctx → Prop
  spares : S.State → S.State → Prop
  spares_refl : ∀ s, spares s s
  spares_trans : ∀ {s s' s''}, spares s s' → spares s' s'' → spares s s''

namespace Conduct

variable {S : Sig} (p : Conduct S) {α : Type}

def effect : Effect S.Ctx S.Gen S.Fn S.Seed → Prop
  | .spawn ctx root | .run ctx root => p.context ctx ∧ p.permits.yields root
  | .wait _ | .go _ => True

def code (ends : α → Prop) : S.Code α → S.State → Prop := Code.Discreet p.spares p.effect ends

def sync (ends : α → Prop) : S.Sync α → S.State → Prop :=
  Code.Discreet p.spares (fun _ => True) ends

/-- What the resumption of a generator may come to. -/
def resumption (r : S.Signal × S.Gen) : Prop := p.permits.signal r.1 ∧ p.permits.generator r.2

/-- What making a generator may come to. -/
def making (result : Except Error S.Gen) : Prop := ∀ g, result = .ok g → p.permits.generator g

/-- All that a host does is discreet, apart from what its middleware does with operations. -/
structure Obeyed (host : Host S) : Prop where
  registers : p.permits.Registers host.registry
  resume : ∀ g, p.permits.generator g → ∀ input s, p.code p.resumption (host.resume g input) s
  release : ∀ g s, p.sync (fun _ => True) (host.release g) s
  filter : ∀ m op, p.permits.middleware m → ∀ ctx s,
    p.sync (fun _ => True) (host.filter m op ctx) s
  invoke : ∀ func args s, p.sync p.making (host.invoke func args) s
  hook : ∀ listener hook ctx s, p.context ctx →
    p.code (fun _ => True) (host.hook listener hook ctx) s
  start : ∀ seed s, p.code (fun _ => True) (host.start seed) s

end Conduct

/-- Tasks and threads that are set apart, by number. -/
structure Reserve where
  tasks : Nat → Prop
  threads : Nat → Prop

namespace Conduct

variable {S : Sig} (p : Conduct S) (r : Reserve) {α : Type}

def flow (ends : α → Prop) (s : S.State) : Flow S α → Prop
  | .going c => p.code ends c s
  | .waiting k => ∀ outcome s', p.code ends (k outcome) s'

/-- A level of a thread is discreet in a state, and drives one of the first `n` tasks if any, none
of the reserve. -/
def level (n : Nat) (s : S.State) : Level S → Prop
  | .body flow => p.flow (fun _ => True) s flow
  | .task id flow => id.index < n ∧ ¬ r.tasks id.index ∧ ∀ f ∈ flow, p.flow p.resumption s f
  | .root id ctx _ flow =>
    id.index < n ∧ ¬ r.tasks id.index ∧ p.context ctx ∧ ∀ f ∈ flow, p.flow (fun _ => True) s f

/-- The levels of a thread that does not run are discreet in all states. -/
def stacked (n : Nat) (levels : List (Level S)) : Prop := ∀ l ∈ levels, ∀ s, p.level r n s l

/-- The innermost level of the running thread is discreet in the state as it is. -/
def levels (n : Nat) (s : S.State) : List (Level S) → Prop
  | [] => True
  | l :: below => p.level r n s l ∧ p.stacked r n below

variable {p r} {n n' : Nat} {s : S.State} {l : Level S} {below : List (Level S)}

theorem level_mono (h : p.level r n s l) (grown : n ≤ n') : p.level r n' s l := by
  cases l with
  | body => exact h
  | task => exact ⟨Nat.lt_of_lt_of_le h.1 grown, h.2⟩
  | root => exact ⟨Nat.lt_of_lt_of_le h.1 grown, h.2⟩

theorem stacked_mono (h : p.stacked r n below) (grown : n ≤ n') : p.stacked r n' below :=
  fun l hl s => level_mono (h l hl s) grown

theorem levels_of_stacked (h : p.stacked r n below) (s : S.State) : p.levels r n s below := by
  cases below with
  | nil => trivial
  | cons l below => exact ⟨h l List.mem_cons_self s, fun l hl => h l (List.mem_cons_of_mem _ hl)⟩

theorem flow_deliver {ends : α → Prop} {f : Flow S α} (h : p.flow ends s f) (outcome : Outcome) :
    p.flow ends s (f.deliver outcome) := by
  cases f with
  | going => exact h
  | waiting k => exact h outcome s

theorem level_deliver (h : p.level r n s l) (outcome : Outcome) :
    p.level r n s (l.deliver outcome) := by
  cases l with
  | body flow => exact flow_deliver h outcome
  | task id flow =>
    refine ⟨h.1, h.2.1, fun f hf => ?_⟩
    obtain ⟨f, held, rfl⟩ := Option.map_eq_some_iff.1 hf
    exact flow_deliver (h.2.2 f held) outcome
  | root id ctx life flow =>
    refine ⟨h.1, h.2.1, h.2.2.1, fun f hf => ?_⟩
    obtain ⟨f, held, rfl⟩ := Option.map_eq_some_iff.1 hf
    exact flow_deliver (h.2.2.2 f held) outcome

theorem stacked_deliver (h : p.stacked r n below) (outcome : Outcome) :
    p.stacked r n (below.modifyHead (Level.deliver outcome)) := by
  cases below with
  | nil => exact nofun
  | cons l below =>
    refine List.forall_mem_cons.2 ⟨fun s => ?_, fun l hl => h l (List.mem_cons_of_mem _ hl)⟩
    exact level_deliver (h l List.mem_cons_self s) outcome

end Conduct

theorem Task.Orderly.requestCancel {G F M : Type} {p : Permits G F M} {t : Task G F M}
    (h : t.Orderly p) : t.requestCancel.2.Orderly p := by
  rcases h with settled | h
  · rw [Task.requestCancel_of_refused (by rw [settled, Bool.true_or])]
    exact .inl settled
  · exact .inr h.requestCancel

theorem Task.Orderly.take {G F M : Type} [Named G] {p : Permits G F M} {registry : Registry M}
    {t : Task G F M} (h : t.Orderly p) (registers : p.Registers registry) {i : Impulse G F}
    (permitted : p.impulse i) : (t.take registry i).Orderly p := by
  rcases h with settled | h
  · obtain ⟨outcome, settled⟩ := Task.isSettled_iff.1 settled
    refine .inl ?_
    simp [Task.isSettled, Task.outcome?, take_settled settled i]
  · refine .inr ?_
    cases i with
    | move => exact (h.step registers).1
    | resumed signal g =>
      simp only [Task.take]
      split
      · exact h.retired signal
      · exact h.resumed permitted.1 permitted.2
    | filtered accepts => exact h.filtered accepts
    | handled result => exact h.handled permitted
    | invoked result => exact h.invoked permitted
    | forked child => exact h.forked child
    | cancel => exact h.requestCancel

namespace World

variable {S : Sig} {p : Conduct S} {r : Reserve} {id : ThreadId} {busy : Option ThreadId}
  {w₀ w : World S} {α : Type}

theorem state_wake (w : World S) (event : Pending) (outcome : Outcome) :
    (w.wake event outcome).state = w.state := by
  have deliver (ids : List ThreadId) (w : World S) :
      (ids.foldl (fun w id => w.deliver id outcome) w).state = w.state := by
    induction ids generalizing w with
    | nil => rfl
    | cons id ids ih => exact ih _
  exact deliver _ _

/-- The tasks of a world, and what waits in it. -/
structure Settled (p : Conduct S) (r : Reserve) (w : World S) : Prop where
  tasks : ∀ i t ctx, w.tasks[i]? = some (t, ctx) →
    p.context ctx ∧ (¬ r.tasks i → t.Orderly p.permits)
  tasksBound : ∀ i, r.tasks i → i < w.tasks.size
  threadsBound : ∀ i, r.threads i → i < w.threads.size
  waits : ∀ e ∈ w.waiting, e.1.index < w.threads.size
  deadlines : ∀ e ∈ w.waiting, ∀ t, e.2 = .deadline t → w.clock ≤ t
  /-- Threads of the reserve wait for nothing but the clock. -/
  sleepers : ∀ e ∈ w.waiting, r.threads e.1.index → ∃ t, e.2 = .deadline t

/-- What is set apart is as it was. -/
structure Spared (p : Conduct S) (r : Reserve) (w₀ w : World S) : Prop where
  state : p.spares w₀.state w.state
  clock : w.clock = w₀.clock
  tag : w.tag = w₀.tag
  size : w₀.tasks.size ≤ w.tasks.size
  tasks : ∀ i, r.tasks i → Heeded w₀.tasks[i]? w.tasks[i]?
  threads : ∀ i, r.threads i → w.threads[i]? = w₀.threads[i]?
  waits : ∀ e ∈ w.waiting, r.threads e.1.index → e ∈ w₀.waiting

theorem Spared.refl (w : World S) : Spared p r w w :=
  ⟨p.spares_refl _, rfl, rfl, Nat.le_refl _, fun _ _ => .inl rfl, fun _ _ => rfl,
    fun _ he _ => he⟩

/-- A thread moves, if any is busy: what has become of the world in the middle of it. -/
structure Kept (p : Conduct S) (r : Reserve) (busy : Option ThreadId) (w₀ w : World S) : Prop where
  settled : Settled p r w
  spared : Spared p r w₀ w
  runs : ∀ id ∈ busy, w.ready.head? = some id
  threads : ∀ i th, w.threads[i]? = some th → ¬ r.threads i → busy ≠ some ⟨i⟩ →
    p.stacked r w.tasks.size th.levels

namespace Kept

theorem of_eq {w' : World S} (h : Kept p r busy w₀ w) (tasks : w'.tasks = w.tasks)
    (threads : w'.threads = w.threads) (waiting : w'.waiting = w.waiting)
    (ready : w'.ready = w.ready) (clock : w'.clock = w.clock) (tag : w'.tag = w.tag)
    (spares : p.spares w.state w'.state) : Kept p r busy w₀ w' := by
  obtain ⟨⟨orderly, tasksBound, threadsBound, waits, deadlines, sleepers⟩, spared, runs, stacked⟩ := h
  refine ⟨⟨?_, ?_, ?_, ?_, ?_, ?_⟩, ⟨p.spares_trans spared.state spares, clock.trans spared.clock,
    tag.trans spared.tag, ?_, ?_, ?_, ?_⟩, ?_, ?_⟩
  all_goals simp only [tasks, threads, waiting, clock, ready]
  exacts [orderly, tasksBound, threadsBound, waits, deadlines, sleepers, spared.size, spared.tasks,
    spared.threads, spared.waits, runs, stacked]

theorem restart (h : Kept p r busy w₀ w) : Kept p r busy w w :=
  ⟨h.settled, .refl w, h.runs, h.threads⟩

/-! ### Tasks -/

theorem modifyTask (h : Kept p r busy w₀ w) {task : TaskId} (free : ¬ r.tasks task.index)
    {change : S.Task → S.Task}
    (orderly : ∀ t, t.Orderly p.permits → (change t).Orderly p.permits) :
    Kept p r busy w₀ (w.modifyTask task change) := by
  obtain ⟨settled, spared, runs, stacked⟩ := h
  have elsewhere (i : Nat) (other : task.index ≠ i) :
      (w.modifyTask task change).tasks[i]? = w.tasks[i]? := by
    simp only [World.modifyTask, Array.getElem?_modify, if_neg other]
  have size : (w.modifyTask task change).tasks.size = w.tasks.size := Array.size_modify
  exact
    { settled :=
        { settled with
          tasks := fun i t ctx known => by
            by_cases same : task.index = i
            · simp only [World.modifyTask, Array.getElem?_modify, if_pos same] at known
              obtain ⟨⟨old, ctx'⟩, found, changed⟩ := Option.map_eq_some_iff.1 known
              obtain ⟨rfl, rfl⟩ := Prod.mk.inj changed
              obtain ⟨fits, held⟩ := settled.tasks i old ctx' found
              exact ⟨fits, fun free => orderly old (held free)⟩
            · exact settled.tasks i t ctx (elsewhere i same ▸ known)
          tasksBound := size ▸ settled.tasksBound }
      spared :=
        { spared with
          size := size ▸ spared.size
          tasks := fun i reserved => by
            rw [elsewhere i (by rintro rfl; exact free reserved)]
            exact spared.tasks i reserved }
      runs
      threads := size ▸ stacked }

theorem addTask (h : Kept p r busy w₀ w) {ctx : S.Ctx} (fits : p.context ctx) {root : S.Yielded}
    (yields : p.permits.yields root) : Kept p r busy w₀ (w.addTask ctx root).2 := by
  obtain ⟨settled, spared, runs, stacked⟩ := h
  have grown : w.tasks.size ≤ (w.addTask ctx root).2.tasks.size := by simp [World.addTask]
  exact
    { settled :=
        { settled with
          tasks := fun i t ctx' known => by
            simp only [World.addTask, Array.getElem?_push] at known
            split at known
            · obtain ⟨rfl, rfl⟩ := Prod.mk.inj (Option.some.inj known)
              exact ⟨fits, fun _ => .inr (Task.permitted_fresh _ yields)⟩
            · exact settled.tasks i t ctx' known
          tasksBound := fun i hi => Nat.lt_of_lt_of_le (settled.tasksBound i hi) grown }
      spared :=
        { spared with
          size := Nat.le_trans spared.size grown
          tasks := fun i reserved => by
            have old := Nat.ne_of_lt (settled.tasksBound i reserved)
            simp only [World.addTask, Array.getElem?_push, if_neg old]
            exact spared.tasks i reserved }
      runs
      threads := fun i th known free other =>
        Conduct.stacked_mono (stacked i th known free other) grown }

/-- Any task may be asked to cancel. -/
theorem requestCancel (h : Kept p r busy w₀ w) (task : TaskId) :
    Kept p r busy w₀ (w.requestCancel task).2 := by
  obtain ⟨settled, spared, runs, stacked⟩ := h
  have heeded := heeded_requestCancel w task
  obtain ⟨tasks, size, eq, -⟩ := requestCancel_spec w task
  rw [eq] at heeded ⊢
  exact
    { settled :=
        { settled with
          tasks := fun i t ctx known => by
            rcases heeded i with same | asked
            · exact settled.tasks i t ctx (same ▸ known)
            · obtain ⟨⟨old, ctx'⟩, found, changed⟩ :=
                Option.map_eq_some_iff.1 (asked.symm.trans known)
              obtain ⟨rfl, rfl⟩ := Prod.mk.inj changed
              obtain ⟨fits, held⟩ := settled.tasks i old ctx' found
              exact ⟨fits, fun free => (held free).requestCancel⟩
          tasksBound := size ▸ settled.tasksBound }
      spared :=
        { spared with
          size := size ▸ spared.size
          tasks := fun i reserved => (spared.tasks i reserved).trans (heeded i) }
      runs
      threads := size ▸ stacked }

/-! ### Threads -/

theorem modifyLevels (h : Kept p r busy w₀ w) {thread : ThreadId} (free : ¬ r.threads thread.index)
    {change : List (Level S) → List (Level S)}
    (keeps : busy ≠ some thread → ∀ levels, p.stacked r w.tasks.size levels →
      p.stacked r w.tasks.size (change levels)) :
    Kept p r busy w₀ (w.modifyLevels thread change) := by
  obtain ⟨settled, spared, runs, stacked⟩ := h
  have elsewhere (i : Nat) (other : thread.index ≠ i) :
      (w.modifyLevels thread change).threads[i]? = w.threads[i]? := by
    simp only [World.modifyLevels, Array.getElem?_modify, if_neg other]
  have size : (w.modifyLevels thread change).threads.size = w.threads.size := Array.size_modify
  exact
    { settled :=
        { settled with
          threadsBound := size ▸ settled.threadsBound
          waits := size ▸ settled.waits }
      spared :=
        { spared with
          threads := fun i reserved => by
            rw [elsewhere i (by rintro rfl; exact free reserved)]
            exact spared.threads i reserved }
      runs
      threads := fun i th known free other => by
        by_cases same : thread.index = i
        · simp only [World.modifyLevels, Array.getElem?_modify, if_pos same] at known
          obtain ⟨th, found, rfl⟩ := Option.map_eq_some_iff.1 known
          exact keeps (by subst same; exact other) _ (stacked i th found free other)
        · exact stacked i th (elsewhere i same ▸ known) free other }

theorem setLevels (h : Kept p r (some id) w₀ w) (free : ¬ r.threads id.index)
    (levels : List (Level S)) : Kept p r (some id) w₀ (w.setLevels id levels) :=
  h.modifyLevels free fun other => absurd rfl other

theorem deliver (h : Kept p r busy w₀ w) {thread : ThreadId} (free : ¬ r.threads thread.index)
    (outcome : Outcome) : Kept p r busy w₀ (w.deliver thread outcome) :=
  h.modifyLevels free fun _ _ stacked => Conduct.stacked_deliver stacked outcome

theorem addThread (h : Kept p r busy w₀ w) {levels : List (Level S)}
    (fits : p.stacked r w.tasks.size levels) : Kept p r busy w₀ (w.addThread levels).2 := by
  obtain ⟨settled, spared, runs, stacked⟩ := h
  have grown : w.threads.size ≤ (w.addThread levels).2.threads.size := by simp [World.addThread]
  exact
    { settled :=
        { settled with
          threadsBound := fun i hi => Nat.lt_of_lt_of_le (settled.threadsBound i hi) grown
          waits := fun e he => Nat.lt_of_lt_of_le (settled.waits e he) grown }
      spared :=
        { spared with
          threads := fun i reserved => by
            have old := Nat.ne_of_lt (settled.threadsBound i reserved)
            simp only [World.addThread, Array.getElem?_push, if_neg old]
            exact spared.threads i reserved }
      runs := fun id hid => by
        rw [World.addThread, List.head?_append, runs id hid]
        rfl
      threads := fun i th known free other => by
        simp only [World.addThread, Array.getElem?_push] at known
        split at known
        · rw [← Option.some.inj known]
          exact fits
        · exact stacked i th known free other }

theorem spawn (h : Kept p r busy w₀ w) {ctx : S.Ctx} (fits : p.context ctx) {root : S.Yielded}
    (yields : p.permits.yields root) : Kept p r busy w₀ (w.spawn ctx root).2 := by
  refine (h.addTask fits yields).addThread (List.forall_mem_singleton.2 fun s => ⟨?_, ?_, nofun⟩)
  · simp [World.addTask]
  · exact fun reserved => Nat.lt_irrefl _ (h.settled.tasksBound _ reserved)

/-- Waking the threads that wait for something else than the clock. -/
theorem wake (h : Kept p r busy w₀ w) {event : Pending} (timeless : ∀ t, event ≠ .deadline t)
    (outcome : Outcome) : Kept p r busy w₀ (w.wake event outcome) := by
  have settled := h.settled
  have sub : ∀ e ∈ w.waiting.filter (·.2 != event), e ∈ w.waiting :=
    fun e he => (List.mem_filter.1 he).1
  have quiet : Kept p r busy w₀ { w with
      waiting := w.waiting.filter (·.2 != event)
      ready := w.ready ++ (w.waiting.filter (·.2 == event)).map (·.1) } :=
    { settled :=
        { settled with
          waits := fun e he => settled.waits e (sub e he)
          deadlines := fun e he => settled.deadlines e (sub e he)
          sleepers := fun e he => settled.sleepers e (sub e he) }
      spared := { h.spared with waits := fun e he => h.spared.waits e (sub e he) }
      runs := fun id hid => by
        rw [List.head?_append, h.runs id hid]
        rfl
      threads := h.threads }
  have free : ∀ thread ∈ (w.waiting.filter (·.2 == event)).map (·.1),
      ¬ r.threads thread.index := by
    intro thread hthread reserved
    obtain ⟨e, he, rfl⟩ := List.mem_map.1 hthread
    obtain ⟨waits, now⟩ := List.mem_filter.1 he
    obtain ⟨t, sleeps⟩ := settled.sleepers e waits reserved
    exact timeless t ((eq_of_beq now).symm.trans sleeps)
  have delivered (threads : List ThreadId) (free : ∀ thread ∈ threads, ¬ r.threads thread.index)
      {w : World S} (h : Kept p r busy w₀ w) :
      Kept p r busy w₀ (threads.foldl (fun w id => w.deliver id outcome) w) := by
    induction threads generalizing w with
    | nil => exact h
    | cons thread threads ih =>
      obtain ⟨first, rest⟩ := List.forall_mem_cons.1 free
      exact ih rest (h.deliver first outcome)
  exact delivered _ free quiet

theorem fulfil (h : Kept p r busy w₀ w) (promise : PromiseId) (outcome : Outcome) :
    Kept p r busy w₀ (w.fulfil promise outcome) := by
  unfold World.fulfil
  split
  · refine Kept.wake ?_ (fun t => Pending.noConfusion) outcome
    exact h.of_eq rfl rfl rfl rfl rfl rfl (p.spares_refl _)
  · exact h

/-! ### Code -/

theorem answer (h : Kept p r busy w₀ w) {E : Type} {fits : E → Prop} {ends : α → Prop}
    {q : Query S.State S.Note} {k : q.Answer → Code E S.State S.Note α}
    (discreet : (Code.ask q k).Discreet p.spares fits ends w.state) :
    Kept p r busy w₀ (w.answer q).2 ∧
      (k (w.answer q).1).Discreet p.spares fits ends (w.answer q).2.state := by
  cases q with
  | get => exact ⟨h, discreet⟩
  | put s => exact ⟨h.of_eq rfl rfl rfl rfl rfl rfl discreet.1, discreet.2⟩
  | requestCancel task =>
    refine ⟨h.requestCancel task, ?_⟩
    have same : (w.requestCancel task).2.state = w.state := by
      obtain ⟨tasks, -, eq, -⟩ := requestCancel_spec w task
      rw [eq]
    exact same ▸ discreet _
  | fulfil promise outcome =>
    refine ⟨h.fulfil promise outcome, ?_⟩
    have same : (w.fulfil promise outcome).state = w.state := by
      unfold World.fulfil
      split
      · exact state_wake ..
      · rfl
    exact same ▸ discreet
  | now | isSettled | recorded => exact ⟨h, discreet _⟩
  | newPromise => exact ⟨h.of_eq rfl rfl rfl rfl rfl rfl (p.spares_refl _), discreet _⟩
  | note | log | clearRecorded =>
    exact ⟨h.of_eq rfl rfl rfl rfl rfl rfl (p.spares_refl _), discreet⟩

theorem runSync (h : Kept p r busy w₀ w) {ends : α → Prop} {code : S.Sync α}
    (discreet : p.sync ends code w.state) :
    Kept p r busy w₀ (w.runSync code).2 ∧ ∀ a, (w.runSync code).1 = .ok a → ends a := by
  induction code generalizing w with
  | done a => exact ⟨h, fun a' same => Except.ok.inj same ▸ discreet⟩
  | panic => exact ⟨h, nofun⟩
  | ask q k ih =>
    obtain ⟨h, discreet⟩ := h.answer discreet
    exact ih _ h discreet
  | perform e => exact nomatch e

theorem release (h : Kept p r busy w₀ w) {host : Host S} (obeyed : p.Obeyed host)
    (generators : List S.Gen) : Kept p r busy w₀ (w.release host generators) := by
  induction generators generalizing w with
  | nil => exact h
  | cons g gs ih => exact ih (h.runSync (obeyed.release g w.state)).1

end Kept

end World

end EffectEngine
