import EffectEngine.Machine
import EffectEngine.Proofs.Root.Course
import Mathlib.Data.List.Chain
import Mathlib.Data.List.Forall2
import Mathlib.Logic.Relation

/-!
# Root tasks on threads

A root task is a level of a thread, and what happens on the thread is the course of that task.
`World.rootEvents` reads off the next move of the machine what it means to the root tasks of the
running thread. `Passage` lists all that a move can do to the root tasks, and `World.step_passes`
says that the machine makes only such moves, of one thread at a time.
-/

namespace EffectEngine

/-- What can be seen of a root task from outside: what happens in its course, and how it ends. -/
inductive RootEvent (L : Type) where
  | occasion (o : Occasion L)
  /-- The run returns its result. -/
  | returned (result : Outcome)
  /-- The run is given up in a panic. -/
  | unwound (message : String)

/-! ### Code in progress -/

namespace Flow

variable {S : Sig} {α : Type}

/-- A computation goes on with some answer, or begins to wait. -/
inductive Advances : Flow S α → Flow S α → Prop
  | asked (q : Query S.State S.Note) (k : q.Answer → S.Code α) (a : q.Answer) :
    Advances (.going (.ask q k)) (.going (k a))
  | waits (e : Effect S.Ctx S.Gen S.Fn S.Seed) (k : Outcome → S.Code α) :
    Advances (.going (.perform e k)) (.waiting k)
  | delivered (k : Outcome → S.Code α) (outcome : Outcome) :
    Advances (.waiting k) (.going (k outcome))

/-- A computation comes to be another one, with some answers. -/
def Continues : Flow S α → Flow S α → Prop := Relation.ReflTransGen Advances

theorem continues_deliver (f : Flow S α) (outcome : Outcome) :
    f.Continues (f.deliver outcome) := by
  cases f with
  | going => exact .refl
  | waiting k => exact .single (.delivered k outcome)

theorem continues_perform (e : Effect S.Ctx S.Gen S.Fn S.Seed) (k : Outcome → S.Code α)
    (outcome : Outcome) : Continues (.going (.perform e k)) (.going (k outcome)) :=
  (Relation.ReflTransGen.single (.waits e k)).tail (.delivered k outcome)

end Flow

/-! ### Root tasks -/

/-- A root task on a thread, as far as it has come; the flow is that of the hook being called. -/
structure Root (S : Sig) where
  id : TaskId
  ctx : S.Ctx
  life : Lifecycle S.Listener
  flow : Option (Flow S (Except Error Unit))

namespace Root

variable {S : Sig} {r r' r'' : Root S} {rs rs' rs'' : List (Root S)}

def begin (id : TaskId) (ctx : S.Ctx) (ls : List S.Listener) : Root S := ⟨id, ctx, .begin ls, none⟩

/-- The course from here on. -/
def course (r : Root S) : Course S.Listener := ⟨r.life, r.flow.isSome, []⟩

def Open (r : Root S) : Prop := r.course.Open

/-- A root task stays as it is, while the hook it calls may go on. -/
def Abides (r r' : Root S) : Prop :=
  ∃ flow, r' = { r with flow } ∧ Option.Rel Flow.Continues r.flow flow

theorem Abides.refl (r : Root S) : r.Abides r := by
  rcases r with ⟨id, ctx, life, _ | f⟩
  · exact ⟨_, rfl, .none⟩
  · exact ⟨_, rfl, .some .refl⟩

theorem Abides.trans (h : r.Abides r') (h' : r'.Abides r'') : r.Abides r'' := by
  rcases r with ⟨id, ctx, life, f⟩
  obtain ⟨flow, rfl, goes⟩ := h
  obtain ⟨flow', rfl, goes'⟩ := h'
  refine ⟨flow', rfl, ?_⟩
  cases goes with
  | none => exact goes'
  | some first =>
    cases goes' with
    | some second => exact .some (first.trans second)

theorem abides_refl_all (rs : List (Root S)) : List.Forall₂ Abides rs rs :=
  List.forall₂_same.2 fun r _ => .refl r

theorem abides_trans_all (h : List.Forall₂ Abides rs rs') (h' : List.Forall₂ Abides rs' rs'') :
    List.Forall₂ Abides rs rs'' := by
  induction h generalizing rs'' with
  | nil => exact h'
  | cons first _ ih =>
    cases h' with
    | cons first' rest' => exact .cons (first.trans first') (ih rest')

/-- What a root task itself can do in a move, and what happens to it. -/
inductive Goes (host : Host S) (r : Root S) : List (Occasion S.Listener) → Root S → Prop
  | moved {life : Lifecycle S.Listener} (idle : r.flow = none)
    (step : r.life.step = (life, .silent)) : Goes host r [] { r with life }
  /-- The hook of a listener is called: its code is what the root task goes on with. -/
  | called {life : Lifecycle S.Listener} {l : S.Listener} {hook : Hook} (idle : r.flow = none)
    (step : r.life.step = (life, .call l hook)) :
    Goes host r [.called l hook] { r with life, flow := some (.going (host.hook l hook r.ctx)) }
  /-- The code of the hook has ended. -/
  | answered {result : Except Error Unit} (ended : r.flow = some (.going (.done result))) :
    Goes host r [.answered result] { r with life := r.life.hookEnded result, flow := none }
  | started {life : Lifecycle S.Listener} (idle : r.flow = none)
    (step : r.life.step = (life, .runTask)) : Goes host r [.started] { r with life }
  | settled (outcome : Outcome) (idle : r.flow = none) (running : r.life.phase = .running) :
    Goes host r [.settled outcome] { r with life := r.life.taskEnded outcome }

theorem Goes.id_eq {host : Host S} {os : List (Occasion S.Listener)} (h : Goes host r os r') :
    r'.id = r.id := by
  cases h <;> rfl

/-- A root task keeps to its course. -/
theorem Goes.course {host : Host S} {os : List (Occasion S.Listener)} (h : Goes host r os r') :
    ∃ i, r.course.take i = ⟨r'.life, r'.flow.isSome, os⟩ := by
  cases h with
  | moved idle step | called idle step | started idle step =>
    exact ⟨.move, by simp [Root.course, Course.take, idle, step]⟩
  | @answered result ended => exact ⟨.answered result, by simp [Root.course, Course.take, ended]⟩
  | settled outcome idle running =>
    exact ⟨.settled outcome, by simp [Root.course, Course.take, idle, running]⟩

/-- What one move can do to the root tasks of a thread: a new one begins, the innermost one goes on
or returns, or all of them are given up in a panic of running code. -/
inductive Passage (host : Host S) (id : TaskId) (bound : Nat) :
    List (Root S) → List (TaskId × RootEvent S.Listener) → List (Root S) → Prop
  | same (rs : List (Root S)) : Passage host id bound rs [] rs
  | began (rs : List (Root S)) (ctx : S.Ctx) (counted : id.index < bound) :
    Passage host id bound rs [] (.begin id ctx host.listeners :: rs)
  | went {r r' : Root S} {os : List (Occasion S.Listener)} (goes : Goes host r os r')
    (rs : List (Root S)) :
    Passage host id bound (r :: rs) (os.map fun o => (r.id, .occasion o)) (r' :: rs)
  | returned (r : Root S) (rs : List (Root S)) {result : Outcome}
    (returns : r.course.result? = some result) :
    Passage host id bound (r :: rs) [(r.id, .returned result)] rs
  | unwound (rs : List (Root S)) (message : String) (running : ∀ r ∈ rs, r.Open) :
    Passage host id bound rs (rs.map fun r => (r.id, .unwound message)) []

theorem Passage.mono {host : Host S} {id : TaskId} {m n : Nat}
    {es : List (TaskId × RootEvent S.Listener)} (h : Passage host id m rs es rs') (grown : m ≤ n) :
    Passage host id n rs es rs' := by
  cases h with
  | same => exact .same _
  | began _ ctx counted => exact .began _ ctx (counted.trans_le grown)
  | went goes => exact .went goes _
  | returned r _ returns => exact .returned r _ returns
  | unwound _ message running => exact .unwound _ message running

end Root

/-- What a level of a thread is to the levels next to it. -/
inductive Shape (L : Type) where
  | code
  | task (id : TaskId)
  | root (id : TaskId) (life : Lifecycle L) (calling : Bool)

namespace Shape

variable {L : Type}

/-- On top of a root task that calls no hook there is only its task. -/
def Bears (upper lower : Shape L) : Prop :=
  ∀ id life, lower = root id life false → upper = task id ∧ life.phase = .running

/-- Below anything but a task, there is nothing that depends on what is above. -/
theorem isChain_replace {s s' : Shape L} {rest : List (Shape L)} (busy : ∀ id, s ≠ task id)
    (h : (s :: rest).IsChain Bears) : (s' :: rest).IsChain Bears := by
  obtain ⟨bears, chain⟩ := List.isChain_cons.1 h
  exact List.isChain_cons.2 ⟨fun y hy id life lower =>
    absurd (bears y hy id life lower).1 (busy id), chain⟩

end Shape

namespace Level

variable {S : Sig}

def shape : Level S → Shape S.Listener
  | .body _ => .code
  | .task id _ => .task id
  | .root id _ life flow => .root id life flow.isSome

def root? : Level S → Option (Root S)
  | .root id ctx life flow => some ⟨id, ctx, life, flow⟩
  | _ => none

theorem shape_deliver (outcome : Outcome) (l : Level S) : (l.deliver outcome).shape = l.shape := by
  cases l with
  | body | task => rfl
  | root id ctx life flow => cases flow <;> rfl

theorem map_shape_cons {l l' : Level S} (same : l'.shape = l.shape) (below : List (Level S)) :
    (l' :: below).map shape = (l :: below).map shape := congrArg (· :: below.map shape) same

theorem abides_deliver (outcome : Outcome) (l : Level S) :
    List.Forall₂ Root.Abides l.root?.toList (l.deliver outcome).root?.toList := by
  cases l with
  | body | task => exact .nil
  | root id ctx life flow =>
    refine .cons ⟨_, rfl, ?_⟩ .nil
    cases flow with
    | none => exact .none
    | some f => exact .some (f.continues_deliver outcome)

end Level

section Levels

variable {S : Sig} {l : Level S} {levels : List (Level S)}

/-- The root tasks of a stack of levels. -/
def rootsOf (levels : List (Level S)) : List (Root S) := levels.filterMap Level.root?

theorem rootsOf_cons (l : Level S) (levels : List (Level S)) :
    rootsOf (l :: levels) = l.root?.toList ++ rootsOf levels := by
  simp only [rootsOf, List.filterMap_cons]
  cases l.root? <;> rfl

theorem rootsOf_of_rootless (h : l.root? = none) (levels : List (Level S)) :
    rootsOf (l :: levels) = rootsOf levels := by
  rw [rootsOf_cons, h]
  rfl

theorem abides_rootsOf {l' : Level S}
    (h : List.Forall₂ Root.Abides l.root?.toList l'.root?.toList) (levels : List (Level S)) :
    List.Forall₂ Root.Abides (rootsOf (l :: levels)) (rootsOf (l' :: levels)) := by
  rw [rootsOf_cons, rootsOf_cons]
  exact List.rel_append h (Root.abides_refl_all _)

theorem abides_modifyHead (outcome : Outcome) (levels : List (Level S)) :
    List.Forall₂ Root.Abides (rootsOf levels)
      (rootsOf (levels.modifyHead (Level.deliver outcome))) := by
  cases levels with
  | nil => exact .nil
  | cons l rest => exact abides_rootsOf (l.abides_deliver outcome) rest

end Levels

namespace World

variable {S : Sig} {α : Type} {w w' w'' : World S} {host : Host S}

/-! ### Reading off the events -/

/-- What it means to a root task that the level above it ends. -/
def settling (below : List (Level S)) (outcome : Outcome) : List (TaskId × RootEvent S.Listener) :=
  match below with
  | .root id _ _ none :: _ => [(id, .occasion (.settled outcome))]
  | _ => []

def unwinding (levels : List (Level S)) (message : String) : List (TaskId × RootEvent S.Listener) :=
  (rootsOf levels).map fun r => (r.id, .unwound message)

/-- The message of the panic in code that never waits. -/
def syncPanic? (w : World S) (code : S.Sync α) : Option String :=
  match (w.runSync code).1 with
  | .ok _ => none
  | .error message => some message

/-- The message of the panic with which a request is answered. -/
def requestPanic? (host : Host S) (w : World S) (ctx : S.Ctx) :
    Request S.Gen S.Fn S.Mw → Option String
  | .filter middleware op => w.syncPanic? (host.filter middleware op ctx)
  | .handle middleware op => w.syncPanic? (host.handle middleware op ctx)
  | .invoke func args => w.syncPanic? (host.invoke func args)
  | _ => none

/-- What the next move of a thread with these levels means to the root tasks among them. -/
def rootEventsOf (host : Host S) (w : World S) (levels : List (Level S)) :
    List (TaskId × RootEvent S.Listener) :=
  match levels with
  | .body (.going (.panic m)) :: _ | .task _ (some (.going (.panic m))) :: _
  | .root _ _ _ (some (.going (.panic m))) :: _ => unwinding levels m
  | .root id _ _ (some (.going (.done result))) :: _ => [(id, .occasion (.answered result))]
  | .root id _ life none :: _ =>
    match life.step.2 with
    | .silent => []
    | .call listener hook => [(id, .occasion (.called listener hook))]
    | .runTask => [(id, .occasion .started)]
    | .finish result => [(id, .returned result)]
  | .task task none :: below =>
    match w.task? task, w.ctx? task with
    | some t, some ctx =>
      let (t, request) := t.step host.registry
      match t.outcome? with
      | some outcome => settling below outcome
      | none =>
        match requestPanic? host (w.modifyTask task fun _ => t) ctx request with
        | some message => unwinding levels message
        | none => []
    | _, _ => settling below (.ok .null)
  | _ => []

/-- The levels of a thread by its number. -/
def levelsAt (w : World S) (i : Nat) : List (Level S) := ((w.threads[i]?).map (·.levels)).getD []

def roots (w : World S) (i : Nat) : List (Root S) := rootsOf (w.levelsAt i)

/-- What the next move means to the root tasks. -/
def rootEvents (host : Host S) (w : World S) : List (TaskId × RootEvent S.Listener) :=
  match w.ready with
  | id :: _ => rootEventsOf host w (w.levelsAt id.index)
  | [] => []

/-! ### Worlds without surprises -/

/-- Every level is one that the level above it can stand on. -/
def Upright (w : World S) : Prop := ∀ i, ((w.levelsAt i).map Level.shape).IsChain Shape.Bears

/-- All root tasks stay as they are, but for what is delivered to the hooks they call. -/
structure Uneventful (w w' : World S) : Prop where
  roots : ∀ i, List.Forall₂ Root.Abides (w.roots i) (w'.roots i)
  upright : w.Upright → w'.Upright
  tag : w'.tag = w.tag
  tasks : w.tasks.size ≤ w'.tasks.size
  threads : w.threads.size ≤ w'.threads.size

theorem Uneventful.refl (w : World S) : Uneventful w w :=
  ⟨fun _ => Root.abides_refl_all _, id, rfl, Nat.le_refl _, Nat.le_refl _⟩

theorem Uneventful.trans (h : Uneventful w w') (h' : Uneventful w' w'') : Uneventful w w'' :=
  ⟨fun i => Root.abides_trans_all (h.roots i) (h'.roots i), fun up => h'.upright (h.upright up),
    h'.tag.trans h.tag, h.tasks.trans h'.tasks, h.threads.trans h'.threads⟩

theorem Uneventful.of_threads (threads : w'.threads = w.threads) (tag : w'.tag = w.tag)
    (tasks : w.tasks.size ≤ w'.tasks.size) : Uneventful w w' := by
  have levels (i : Nat) : w'.levelsAt i = w.levelsAt i := by simp only [levelsAt, threads]
  refine ⟨fun i => ?_, fun up i => ?_, tag, tasks, threads ▸ Nat.le_refl _⟩
  · rw [World.roots, World.roots, levels]
    exact Root.abides_refl_all _
  · rw [levels]
    exact up i

theorem levelsAt_modifyLevels (id : ThreadId) {change : List (Level S) → List (Level S)}
    (known : id.index < w.threads.size) (i : Nat) : (w.modifyLevels id change).levelsAt i =
      if id.index = i then change (w.levelsAt i) else w.levelsAt i := by
  simp only [levelsAt, modifyLevels, Array.getElem?_modify]
  split
  · rename_i same
    subst same
    rw [Array.getElem?_eq_getElem known]
    rfl
  · rfl

theorem levelsAt_deliver (w : World S) (id : ThreadId) (outcome : Outcome) (j : Nat) :
    (w.deliver id outcome).levelsAt j =
      if id.index = j then (w.levelsAt j).modifyHead (Level.deliver outcome)
      else w.levelsAt j := by
  simp only [levelsAt, World.deliver, modifyLevels, Array.getElem?_modify]
  split
  · cases w.threads[j]? <;> rfl
  · rfl

theorem map_shape_modifyHead (outcome : Outcome) (levels : List (Level S)) :
    (levels.modifyHead (Level.deliver outcome)).map Level.shape = levels.map Level.shape := by
  cases levels with
  | nil => rfl
  | cons l rest => exact Level.map_shape_cons (l.shape_deliver outcome) rest

theorem calm_deliver (w : World S) (id : ThreadId) (outcome : Outcome) :
    Uneventful w (w.deliver id outcome) := by
  refine ⟨fun i => ?_, fun up i => ?_, rfl, Nat.le_refl _, Array.size_modify ▸ Nat.le_refl _⟩
  · rw [roots, roots, levelsAt_deliver]
    split
    · exact abides_modifyHead outcome _
    · exact Root.abides_refl_all _
  · rw [levelsAt_deliver]
    split
    · rw [map_shape_modifyHead]
      exact up i
    · exact up i

theorem calm_wake (w : World S) (event : Pending) (outcome : Outcome) :
    Uneventful w (w.wake event outcome) := by
  have deliver (ids : List ThreadId) (w : World S) :
      Uneventful w (ids.foldl (fun w id => w.deliver id outcome) w) := by
    induction ids generalizing w with
    | nil => exact .refl w
    | cons id ids ih => exact (calm_deliver w id outcome).trans (ih _)
  have queued : Uneventful w { w with
      waiting := w.waiting.filter (·.2 != event)
      ready := w.ready ++ (w.waiting.filter (·.2 == event)).map (·.1) } :=
    .of_threads rfl rfl (Nat.le_refl _)
  exact queued.trans (deliver _ _)

theorem calm_fulfil (w : World S) (id : PromiseId) (outcome : Outcome) :
    Uneventful w (w.fulfil id outcome) := by
  unfold fulfil
  split
  · have fulfilled : Uneventful w { w with
        promises := w.promises.modify id.index fun _ => some outcome } :=
      .of_threads rfl rfl (Nat.le_refl _)
    exact fulfilled.trans (calm_wake _ _ _)
  · exact .refl w

theorem calm_write (w : World S) (entry : Entry S.Note) : Uneventful w (w.write entry) :=
  .of_threads rfl rfl (Nat.le_refl _)

theorem calm_report (w : World S) (d : Diagnostic) : Uneventful w (w.report d) :=
  .of_threads rfl rfl (Nat.le_refl _)

theorem calm_modifyTask (w : World S) (id : TaskId) (change : S.Task → S.Task) :
    Uneventful w (w.modifyTask id change) :=
  .of_threads rfl rfl (Array.size_modify ▸ Nat.le_refl _)

theorem calm_requestCancel (w : World S) (id : TaskId) : Uneventful w (w.requestCancel id).2 := by
  unfold requestCancel
  split
  · exact calm_modifyTask w id fun t => t.requestCancel.2
  · exact .refl w

theorem calm_answer (w : World S) (q : Query S.State S.Note) : Uneventful w (w.answer q).2 := by
  cases q with
  | requestCancel id => exact calm_requestCancel w id
  | fulfil id outcome => exact calm_fulfil w id outcome
  | _ => exact .of_threads rfl rfl (Nat.le_refl _)

theorem calm_runSync (w : World S) (code : S.Sync α) : Uneventful w (w.runSync code).2 := by
  induction code generalizing w with
  | done | panic => exact .refl w
  | ask q k ih => exact (calm_answer w q).trans (ih _ _)
  | perform e => exact nomatch e

theorem calm_release (host : Host S) (w : World S) (generators : List S.Gen) :
    Uneventful w (w.release host generators) := by
  induction generators generalizing w with
  | nil => exact .refl w
  | cons g gs ih => exact (calm_runSync w (host.release g)).trans (ih _)

theorem calm_addTask (w : World S) (ctx : S.Ctx) (root : S.Yielded) :
    Uneventful w (w.addTask ctx root).2 :=
  .of_threads rfl rfl (Array.size_push .. ▸ Nat.le_succ _)

/-- A thread is added that has one level, which is no root task. -/
theorem calm_addThread (w : World S) {l : Level S} (rootless : l.root? = none) :
    Uneventful w (w.addThread [l]).2 := by
  have levels (i : Nat) : (w.addThread [l]).2.levelsAt i =
      if i = w.threads.size then [l] else w.levelsAt i := by
    simp only [levelsAt, addThread, Array.getElem?_push]
    split <;> rfl
  refine ⟨fun i => ?_, fun up i => ?_, rfl, Nat.le_refl _, Array.size_push .. ▸ Nat.le_succ _⟩
  · rw [roots, roots, levels]
    split
    · rename_i new
      have outside : w.levelsAt i = [] := by simp [levelsAt, new]
      rw [outside, rootsOf_of_rootless rootless]
      exact .nil
    · exact Root.abides_refl_all _
  · rw [levels]
    split
    · exact .singleton _
    · exact up i

theorem calm_spawn (w : World S) (ctx : S.Ctx) (root : S.Yielded) :
    Uneventful w (w.spawn ctx root).2 :=
  (calm_addTask w ctx root).trans (calm_addThread _ rfl)

/-! ### Moves of one thread -/

/-- A move changes the root tasks of one thread only, and only as a passage of theirs. -/
structure Passes (host : Host S) (i : Nat) (w : World S)
    (es : List (TaskId × RootEvent S.Listener)) (w' : World S) : Prop where
  own : ∃ rs, Root.Passage host ⟨w.tag, w.tasks.size⟩ w'.tasks.size (w.roots i) es rs ∧
    List.Forall₂ Root.Abides rs (w'.roots i)
  others : ∀ j, j ≠ i → List.Forall₂ Root.Abides (w.roots j) (w'.roots j)
  upright : w'.Upright
  tag : w'.tag = w.tag
  tasks : w.tasks.size ≤ w'.tasks.size

section Thread

variable {w₁ : World S} {id : ThreadId} {es : List (TaskId × RootEvent S.Listener)}
  {l : Level S} {levels below : List (Level S)} {rs : List (Root S)} {outcome : Outcome}

theorem Uneventful.passes (calm : Uneventful w w') (up : w.Upright) (i : Nat) :
    Passes host i w [] w' :=
  ⟨⟨_, .same _, calm.roots i⟩, fun j _ => calm.roots j, calm.upright up, calm.tag, calm.tasks⟩

theorem Passes.calm {i : Nat} (h : Passes host i w es w') (calm : Uneventful w' w'') :
    Passes host i w es w'' := by
  obtain ⟨rs, passage, abide⟩ := h.own
  exact ⟨⟨rs, passage.mono calm.tasks, Root.abides_trans_all abide (calm.roots i)⟩,
    fun j other => Root.abides_trans_all (h.others j other) (calm.roots j),
    calm.upright h.upright, calm.tag.trans h.tag, h.tasks.trans calm.tasks⟩

variable (up : w.Upright) (calm : Uneventful w w₁)
include up calm

theorem Passes.setLevels (known : id.index < w.threads.size)
    (chain : (levels.map Level.shape).IsChain Shape.Bears)
    (own : Root.Passage host ⟨w.tag, w.tasks.size⟩ w₁.tasks.size (w.roots id.index) es rs)
    (abide : List.Forall₂ Root.Abides rs (rootsOf levels)) :
    Passes host id.index w es (w₁.setLevels id levels) := by
  have at_ (i : Nat) : (w₁.setLevels id levels).levelsAt i =
      if id.index = i then levels else w₁.levelsAt i :=
    levelsAt_modifyLevels id (known.trans_le calm.threads) i
  refine ⟨⟨rs, own, ?_⟩, fun j other => ?_, fun i => ?_, calm.tag, calm.tasks⟩
  · rwa [roots, at_, if_pos rfl]
  · rw [roots, roots, at_, if_neg other.symm]
    exact calm.roots j
  · rw [at_]
    split
    · exact chain
    · exact calm.upright up i

theorem Passes.endThread (fate : Fate)
    (own : Root.Passage host ⟨w.tag, w.tasks.size⟩ w₁.tasks.size (w.roots id.index) es []) :
    Passes host id.index w es (w₁.endThread id fate) := by
  let ended : World S := { w₁ with
    threads := w₁.threads.modify id.index fun _ => ⟨[], some fate⟩, ready := w₁.ready.tail }
  have at_ (i : Nat) : ended.levelsAt i = if id.index = i then [] else w₁.levelsAt i := by
    simp only [levelsAt, ended, Array.getElem?_modify]
    split
    · cases w₁.threads[i]? <;> rfl
    · rfl
  have woken : Uneventful ended (w₁.endThread id fate) := calm_wake _ _ _
  have left : Passes host id.index w es ended := by
    refine ⟨⟨[], own, ?_⟩, fun j other => ?_, fun i => ?_, calm.tag, calm.tasks⟩
    · rw [roots, at_, if_pos rfl]
      exact .nil
    · rw [roots, roots, at_, if_neg other.symm]
      exact calm.roots j
    · rw [at_]
      split
      · exact .nil
      · exact calm.upright up i
  exact left.calm woken

/-- The running level ends, and is on top of none that waits for the end of its task. -/
theorem Passes.finishLevel (known : id.index < w.threads.size)
    (chain : (below.map Level.shape).IsChain Shape.Bears) (quiet : settling below outcome = [])
    (own : Root.Passage host ⟨w.tag, w.tasks.size⟩ w₁.tasks.size (w.roots id.index) es
      (rootsOf below)) : Passes host id.index w es (w₁.finishLevel id below outcome) := by
  unfold World.finishLevel
  split
  · exact .endThread up calm _ own
  · cases quiet
  · rename_i l rest _
    refine .setLevels up calm known ?_ own (abides_rootsOf (l.abides_deliver outcome) rest)
    rwa [Level.map_shape_cons (l.shape_deliver outcome) rest]

omit up calm in
/-- The level below the code of a thread or a root task is not waiting for the end of a task. -/
theorem settling_eq_nil (chain : ((l :: below).map Level.shape).IsChain Shape.Bears)
    (busy : ∀ task, l.shape ≠ .task task) (outcome : Outcome) : settling below outcome = [] := by
  unfold settling
  split
  · have bears := (List.isChain_cons_cons.1 chain).1
    exact absurd (bears _ _ rfl).1 (busy _)
  · rfl

/-- A task ends, with code or a root task that waits for it below. -/
theorem Passes.settles (known : id.index < w.threads.size) {task : TaskId}
    (chain : (Shape.task task :: below.map Level.shape).IsChain Shape.Bears)
    (own : w.roots id.index = rootsOf below) (outcome : Outcome) :
    Passes host id.index w (settling below outcome) (w₁.finishLevel id below outcome) := by
  have chain' : (below.map Level.shape).IsChain Shape.Bears := chain.tail
  by_cases quiet : settling below outcome = []
  · rw [quiet]
    exact .finishLevel up calm known chain' quiet (own ▸ .same _)
  · unfold settling at quiet
    split at quiet
    · rename_i root ctx life rest
      obtain ⟨-, running⟩ := (List.isChain_cons_cons.1 chain).1 _ _ rfl
      refine .setLevels up calm known ?_ ?_ (Root.abides_refl_all _)
      · exact Shape.isChain_replace (s := .root root life false) nofun chain'
      · rw [own]
        exact .went (.settled outcome rfl running) (rootsOf rest)
    · exact absurd rfl quiet

/-- A root task returns its result to the level below. -/
theorem Passes.returns (known : id.index < w.threads.size) {r : Root S}
    (chain : ((l :: below).map Level.shape).IsChain Shape.Bears) (root : l.root? = some r)
    (own : w.roots id.index = r :: rootsOf below) (returns : r.course.result? = some outcome) :
    Passes host id.index w [(r.id, .returned outcome)] (w₁.finishLevel id below outcome) := by
  have busy (task : TaskId) : l.shape ≠ .task task := by
    cases l with
    | root => nofun
    | body | task => cases root
  refine .finishLevel up calm known chain.tail (settling_eq_nil chain busy outcome) ?_
  rw [own]
  exact .returned r _ returns

omit up calm in
/-- While code runs on top, code of all root tasks is running. -/
theorem open_of_isChain (chain : ((l :: below).map Level.shape).IsChain Shape.Bears)
    (busy : ∀ r, l.root? = some r → r.Open) : ∀ r ∈ rootsOf (l :: below), r.Open := by
  induction below generalizing l with
  | nil =>
    intro r mem
    obtain ⟨x, hx, root⟩ := List.mem_filterMap.1 mem
    exact busy r (List.mem_singleton.1 hx ▸ root)
  | cons l' rest ih =>
    intro r mem
    rw [rootsOf_cons] at mem
    rcases List.mem_append.1 mem with top | below
    · exact busy r (Option.mem_toList.1 top)
    · obtain ⟨bears, chain⟩ := List.isChain_cons_cons.1 chain
      refine ih chain (fun r root => ?_) r below
      obtain ⟨id, ctx, life, flow, rfl⟩ : ∃ id ctx life flow, l' = .root id ctx life flow := by
        cases l' with
        | root id ctx life flow => exact ⟨id, ctx, life, flow, rfl⟩
        | body | task => cases root
      obtain rfl := Option.some.inj root
      cases flow with
      | some => exact .inl rfl
      | none => exact .inr (bears _ _ rfl).2

/-- A panic of the running code. -/
theorem Passes.crash (own : w.roots id.index = rootsOf levels)
    (running : ∀ r ∈ rootsOf levels, r.Open) (message : String) :
    Passes host id.index w (unwinding levels message) (w₁.crash host id levels message) := by
  have released := calm.trans (calm_release host w₁ (w₁.unwound levels))
  have gone (n : Nat) : Root.Passage host ⟨w.tag, w.tasks.size⟩ n (w.roots id.index)
      (unwinding levels message) [] := by
    rw [own]
    exact .unwound _ message running
  unfold World.crash
  dsimp only
  split
  · rename_i task _
    have settled := released.trans (calm_modifyTask _ task (·.panicked message))
    exact .endThread up (settled.trans (calm_wake _ _ _)) _ (gone _)
  · split
    · exact .endThread up released _ (gone _)
    · exact .endThread up (released.trans (calm_write _ _)) _ (gone _)

end Thread

/-! ### The machine -/

/-- The levels that code of one kind is run on. -/
structure CarriesCode (level : Flow S α → Level S) (s : Shape S.Listener) : Prop where
  shape : ∀ f, (level f).shape = s
  busy : ∀ f r, (level f).root? = some r → r.Open
  held : ∀ id life, s ≠ .root id life false
  abides : ∀ f f', f.Continues f' →
    List.Forall₂ Root.Abides (level f).root?.toList (level f').root?.toList

theorem carries_body : CarriesCode (S := S) .body .code := ⟨fun _ => rfl, nofun, nofun, fun _ _ _ => .nil⟩

theorem carries_task (task : TaskId) :
    CarriesCode (S := S) (fun f => .task task (some f)) (.task task) :=
  ⟨fun _ => rfl, nofun, nofun, fun _ _ _ => .nil⟩

theorem carries_root (id : TaskId) (ctx : S.Ctx) (life : Lifecycle S.Listener) :
    CarriesCode (fun f => .root id ctx life (some f)) (.root id life true) where
  shape _ := rfl
  busy _ _ root := Option.some.inj root ▸ .inl rfl
  held := nofun
  abides _ _ goes := .cons ⟨_, rfl, .some goes⟩ .nil

section Machine

variable {id : ThreadId} {es : List (TaskId × RootEvent S.Listener)} {l : Level S}
  {levels below : List (Level S)} {s : Shape S.Listener} {level : Flow S α → Level S}

theorem known_of_levelsAt {i : Nat} (holds : w.levelsAt i = l :: below) : i < w.threads.size := by
  by_contra outside
  simp [levelsAt, Array.getElem?_eq_none (Nat.le_of_not_lt outside)] at holds

theorem roots_of_levelsAt {i : Nat} (holds : w.levelsAt i = levels) : w.roots i = rootsOf levels :=
  congrArg rootsOf holds

variable (up : w.Upright) (holds : w.levelsAt id.index = l :: below)
include up holds

theorem chain_of_levelsAt : ((l :: below).map Level.shape).IsChain Shape.Bears :=
  holds ▸ up id.index

/-- The level on top is replaced by one of the same shape. -/
theorem Passes.replace (calm : Uneventful w w') {l' : Level S} (same : l'.shape = l.shape)
    (abides : List.Forall₂ Root.Abides l.root?.toList l'.root?.toList) :
    Passes host id.index w [] (w'.setLevels id (l' :: below)) := by
  have shapes := Level.map_shape_cons same below
  refine .setLevels up calm (known_of_levelsAt holds) (shapes ▸ chain_of_levelsAt up holds)
    (.same _) ?_
  rw [World.roots, holds]
  exact abides_rootsOf abides below

theorem Passes.perform (carries : CarriesCode level s) {e : Effect S.Ctx S.Gen S.Fn S.Seed}
    {k : Outcome → S.Code α} (top : l = level (.going (.perform e k))) :
    Passes host id.index w [] (w.perform host id below level e k) := by
  subst top
  have goesOn (outcome : Outcome) {w' : World S} (calm : Uneventful w w') :
      Passes host id.index w [] (w'.setLevels id (level (.going (k outcome)) :: below)) :=
    .replace up holds calm ((carries.shape _).trans (carries.shape _).symm)
      (carries.abides _ _ (Flow.continues_perform e k outcome))
  have waits : List.Forall₂ Root.Abides (level (.going (.perform e k))).root?.toList
      (level (.waiting k)).root?.toList := carries.abides _ _ (.single (.waits e k))
  have same : (level (.waiting k)).shape = (level (.going (.perform e k))).shape :=
    (carries.shape _).trans (carries.shape _).symm
  cases e with
  | wait wait =>
    simp only [World.perform]
    split
    · exact goesOn _ (.refl w)
    · exact (Passes.replace up holds (.refl w) same waits).calm (.of_threads rfl rfl (Nat.le_refl _))
  | spawn ctx root => exact goesOn _ (calm_spawn w ctx root)
  | go seed => exact goesOn _ (calm_addThread w rfl)
  | run ctx root =>
    have shapes := Level.map_shape_cons same below
    have chain : ((level (.waiting k) :: below).map Level.shape).IsChain Shape.Bears :=
      shapes ▸ chain_of_levelsAt up holds
    refine .setLevels up (calm_addTask w ctx root) (known_of_levelsAt holds) ?_
      (.began _ ctx (Array.size_push .. ▸ Nat.lt_succ_self _)) ?_
    · refine List.isChain_cons_cons.2 ⟨fun id life lower => ?_, chain⟩
      rw [carries.shape] at lower
      exact absurd lower (carries.held id life)
    · rw [World.roots, holds]
      exact .cons (.refl _) (abides_rootsOf waits below)

/-- The code of the level on top makes a move, and `es` is what is read off it. -/
theorem Passes.stepCode (carries : CarriesCode level s) {code : S.Code α}
    (top : l = level (.going code)) {finish : World S → α → World S}
    (done : ∀ a, code = .done a → Passes host id.index w es (finish w a))
    (panics : ∀ m, code = .panic m → es = unwinding (l :: below) m)
    (asks : ∀ q k, code = .ask q k → es = []) (performs : ∀ e k, code = .perform e k → es = []) :
    Passes host id.index w es (w.stepCode host id below level finish code) := by
  cases code with
  | done a => exact done a rfl
  | panic m =>
    rw [panics m rfl, World.stepCode]
    subst top
    exact .crash up (.refl w) (roots_of_levelsAt holds)
      (open_of_isChain (chain_of_levelsAt up holds) fun r root => carries.busy _ r root) m
  | ask q k =>
    rw [asks q k rfl]
    subst top
    exact .replace up holds (calm_answer w q) ((carries.shape _).trans (carries.shape _).symm)
      (carries.abides _ _ (.single (.asked q k _)))
  | perform e k =>
    rw [performs e k rfl]
    exact .perform up holds carries top

/-- Code that never waits is run for the task on top. -/
theorem Passes.stepSync (calm : Uneventful w w') (rootless : l.root? = none)
    {finish : World S → α → World S} (done : ∀ w a, Uneventful w (finish w a)) (code : S.Sync α) :
    Passes host id.index w
      (match w'.syncPanic? code with
      | some message => unwinding (l :: below) message
      | none => [])
      (w'.stepSync host id (l :: below) finish code) := by
  have ran := calm.trans (calm_runSync w' code)
  unfold syncPanic? World.stepSync
  rcases result : w'.runSync code with ⟨message | a, after⟩
  · rw [result] at ran
    refine .crash up ran (roots_of_levelsAt holds) ?_ message
    exact open_of_isChain (chain_of_levelsAt up holds) fun r root => nomatch rootless.symm.trans root
  · rw [result] at ran
    exact (ran.trans (done after a)).passes up _

theorem Passes.grant (calm : Uneventful w w') {task : TaskId} (top : l = .task task none)
    (ctx : S.Ctx)
    (request : Request S.Gen S.Fn S.Mw) :
    Passes host id.index w
      (match requestPanic? host w' ctx request with
      | some message => unwinding (l :: below) message
      | none => [])
      (w'.grant host id (l :: below) below task ctx request) := by
  have shape : l.shape = .task task := top ▸ rfl
  have rootless : l.root? = none := top ▸ rfl
  cases request with
  | silent => exact calm.passes up _
  | resume | retire => exact .replace up holds calm shape.symm (rootless ▸ .nil)
  | filter | handle | invoke =>
    exact .stepSync up holds calm rootless (fun w _ => calm_modifyTask w _ _) _
  | fork root =>
    have spawned := calm.trans (calm_spawn w' ctx (.operation root))
    exact (spawned.trans (calm_modifyTask _ task (·.forked _))).passes up _
  | report d => exact (calm.trans (calm_report w' d)).passes up _

/-- A move of the task on top. -/
theorem Passes.stepTask {task : TaskId} (top : l = .task task none) :
    Passes host id.index w (rootEventsOf host w (l :: below)) (w.stepTask host id below task) := by
  have known := known_of_levelsAt holds
  have chain := chain_of_levelsAt up holds
  have own : w.roots id.index = rootsOf below := by
    rw [roots_of_levelsAt holds, rootsOf_of_rootless (top ▸ rfl)]
  subst top
  have unknown : Passes host id.index w (settling below (.ok .null))
      (w.finishLevel id below (.ok .null)) :=
    .settles up (.refl w) known chain own (.ok .null)
  cases found : w.task? task with
  | none =>
    simp only [World.stepTask, rootEventsOf, found]
    exact unknown
  | some t =>
    cases context : w.ctx? task with
    | none =>
      simp only [World.stepTask, rootEventsOf, found, context]
      exact unknown
    | some ctx =>
      have moved := calm_modifyTask w task fun _ => (t.step host.registry).1
      simp only [World.stepTask, rootEventsOf, found, context]
      cases settled : (t.step host.registry).1.outcome? with
      | some outcome =>
        exact .settles up (moved.trans (calm_wake _ _ _)) known chain own outcome
      | none => exact .grant up holds moved rfl ctx _

section Root

variable {task : TaskId} {ctx : S.Ctx} {life life' : Lifecycle S.Listener}
  {flow flow' : Option (Flow S (Except Error Unit))}

/-- The root task on top goes on. -/
theorem Passes.goesOn (calm : Uneventful w w') (top : l = .root task ctx life flow)
    {os : List (Occasion S.Listener)}
    (goes : Root.Goes host ⟨task, ctx, life, flow⟩ os ⟨task, ctx, life', flow'⟩) :
    Passes host id.index w (os.map fun o => (task, .occasion o))
      (w'.setLevels id (.root task ctx life' flow' :: below)) := by
  subst top
  refine .setLevels up calm (known_of_levelsAt holds) ?_ ?_ (Root.abides_refl_all _)
  · exact Shape.isChain_replace (s := .root task life flow.isSome) nofun
      (chain_of_levelsAt up holds)
  · rw [World.roots, holds]
    exact .went goes _

theorem Passes.stepRoot (top : l = .root task ctx life none) :
    Passes host id.index w (rootEventsOf host w (l :: below))
      (w.stepRoot host id below task ctx life) := by
  have chain := chain_of_levelsAt up holds
  have own := roots_of_levelsAt holds
  subst top
  rcases step : life.step with ⟨life', _ | ⟨listener, hook⟩ | _ | result⟩ <;>
    simp only [World.stepRoot, rootEventsOf, step]
  · exact .goesOn up holds (.refl w) rfl (.moved rfl step)
  · exact .goesOn up holds (.refl w) rfl (.called rfl step)
  · refine .setLevels up (.refl w) (known_of_levelsAt holds) ?_ ?_ (Root.abides_refl_all _)
    · refine List.isChain_cons_cons.2 ⟨fun id life lower => ?_, ?_⟩
      · obtain ⟨rfl, rfl, -⟩ := Shape.root.inj lower
        exact ⟨rfl, by rw [Course.step_runTask step]⟩
      · exact Shape.isChain_replace (s := .root task life false) nofun chain
    · rw [own]
      exact .went (.started rfl step) (rootsOf below)
  · refine .returns up (.refl w) (known_of_levelsAt holds) chain rfl own ?_
    simp only [Root.course, Course.result?, step]
    rfl

theorem Passes.rootHookEnded {result : Except Error Unit}
    (top : l = .root task ctx life (some (.going (.done result)))) :
    Passes host id.index w [(task, .occasion (.answered result))]
      (w.rootHookEnded id below task ctx life result) := by
  have ended (w' : World S) (calm : Uneventful w w') :
      Passes host id.index w [(task, .occasion (.answered result))]
        (w'.setLevels id (.root task ctx (life.hookEnded result) none :: below)) :=
    .goesOn up holds calm top (.answered rfl)
  cases result with
  | ok => exact ended w (.refl w)
  | error e =>
    simp only [World.rootHookEnded]
    split
    · exact ended _ (calm_write w _)
    · exact ended w (.refl w)

end Root

theorem Passes.stepThread : Passes host id.index w (rootEventsOf host w (l :: below))
    (w.stepThread host id (l :: below)) := by
  have known := known_of_levelsAt holds
  have chain := chain_of_levelsAt up holds
  cases l with
  | body flow =>
    cases flow with
    | waiting => exact (Uneventful.refl w).passes up _
    | going c =>
      simp only [World.stepThread]
      refine .stepCode up holds carries_body rfl (fun outcome ended => ?_) ?_ ?_ ?_
      · subst ended
        have own : w.roots id.index = rootsOf below := (roots_of_levelsAt holds).trans rfl
        exact .finishLevel up (.refl w) known chain.tail (settling_eq_nil chain nofun outcome)
          (own ▸ .same _)
      · rintro m rfl; rfl
      · rintro q k rfl; rfl
      · rintro e k rfl; rfl
  | task task flow =>
    rcases flow with _ | c | k
    · exact .stepTask up holds rfl
    · simp only [World.stepThread]
      refine .stepCode up holds (carries_task task) rfl (fun resumed ended => ?_) ?_ ?_ ?_
      · subst ended
        exact .replace up holds (calm_modifyTask w task _) rfl .nil
      · rintro m rfl; rfl
      · rintro q k rfl; rfl
      · rintro e k rfl; rfl
    · exact (Uneventful.refl w).passes up _
  | root task ctx life flow =>
    rcases flow with _ | c | k
    · exact .stepRoot up holds rfl
    · simp only [World.stepThread]
      refine .stepCode up holds (carries_root task ctx life) rfl (fun result ended => ?_) ?_ ?_ ?_
      · subst ended
        exact .rootHookEnded up holds rfl
      · rintro m rfl; rfl
      · rintro q k rfl; rfl
      · rintro e k rfl; rfl
    · exact (Uneventful.refl w).passes up _

end Machine

theorem step_of_levelsAt {id : ThreadId} {l : Level S} {below : List (Level S)}
    (head : w.ready.head? = some id) (holds : w.levelsAt id.index = l :: below) :
    w.step host = w.stepThread host id (l :: below) := by
  obtain ⟨rest, ready⟩ := List.head?_eq_some_iff.1 head
  obtain ⟨thread, found⟩ : ∃ thread, w.threads[id.index]? = some thread :=
    ⟨_, Array.getElem?_eq_getElem (known_of_levelsAt holds)⟩
  simp only [levelsAt, found, Option.map_some, Option.getD_some] at holds
  simp only [World.step, ready, found, holds]

/-- What is read off a move is what it does to the root tasks of one thread, and it does nothing to
all others. -/
theorem step_passes (host : Host S) (up : w.Upright) :
    ∃ i, Passes host i w (rootEvents host w) (w.step host) := by
  unfold World.step rootEvents
  cases ready : w.ready with
  | nil =>
    refine ⟨0, ?_⟩
    dsimp only
    split
    · rename_i time _
      have later : Uneventful w { w with clock := time, ready := [] } :=
        .of_threads rfl rfl (Nat.le_refl _)
      exact (later.trans (calm_wake _ _ _)).passes up 0
    · exact (Uneventful.refl w).passes up 0
  | cons id ids =>
    refine ⟨id.index, ?_⟩
    dsimp only
    cases found : w.threads[id.index]? with
    | none =>
      have nothing : w.levelsAt id.index = [] := by simp only [levelsAt, found]; rfl
      have dequeued : Uneventful w { w with ready := ids } := .of_threads rfl rfl (Nat.le_refl _)
      rw [nothing]
      exact dequeued.passes up id.index
    | some thread =>
      have holds : w.levelsAt id.index = thread.levels := by simp only [levelsAt, found]; rfl
      rw [holds]
      dsimp only
      cases levels : thread.levels with
      | nil =>
        refine .endThread up (.refl w) _ ?_
        rw [World.roots, holds, levels]
        exact .same _
      | cons l below => exact .stepThread up (holds.trans levels)

end World

end EffectEngine
