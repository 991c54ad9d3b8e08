import EffectEngine.Proofs.Root.Moves
import EffectEngine.Proofs.World.Tasks
import EffectEngine.Proofs.Coroutine.Protocol
import Mathlib.Data.List.Forall2
import Mathlib.Logic.Relation

/-!
# Where a task stands

A task has at most one `Post` in a world: the level of a thread that drives it, or that of a root
task which is still to start it. `World.Unmoved` says that a piece of the machine leaves a task
where it is, and `World.Shifts` that a move of one thread leaves it where it is on all others.
-/

namespace EffectEngine

variable {S : Sig} {i : Nat}

/-- What a thread holds for a task. -/
inductive Post (S : Sig) where
  /-- A root task that has not been started. -/
  | reserved
  | driven (flow : Option (Flow S (S.Signal × S.Gen)))

/-- What becomes of a post when something is delivered to its thread, or nothing. -/
inductive Post.Heard : Post S → Post S → Prop
  | nothing (p : Post S) : Heard p p
  | delivered (k : Outcome → S.Code (S.Signal × S.Gen)) (outcome : Outcome) :
    Heard (.driven (some (.waiting k))) (.driven (some (.going (k outcome))))

namespace Post.Heard

variable {p q r : Post S} {ps qs rs : List (Post S)}

theorem trans (h : Heard p q) (h' : Heard q r) : Heard p r := by
  cases h with
  | nothing => exact h'
  | delivered k outcome =>
    cases h'
    exact .delivered k outcome

theorem refl_all (ps : List (Post S)) : List.Forall₂ Heard ps ps :=
  List.forall₂_same.2 fun p _ => nothing p

theorem trans_all (h : List.Forall₂ Heard ps qs) (h' : List.Forall₂ Heard qs rs) :
    List.Forall₂ Heard ps rs := by
  induction h generalizing rs with
  | nil => exact h'
  | cons first _ ih =>
    cases h' with
    | cons first' rest' => exact .cons (first.trans first') (ih rest')

end Post.Heard

/-- What a level holds for the task of a number. -/
def Level.post? (i : Nat) : Level S → Option (Post S)
  | .body _ => none
  | .task id flow => if id.index = i then some (.driven flow) else none
  | .root id _ life _ =>
    match life.phase with
    | .settingUp _ => if id.index = i then some .reserved else none
    | _ => none

theorem Level.post?_task {task : TaskId} (own : task.index = i)
    (flow : Option (Flow S (S.Signal × S.Gen))) :
    (Level.task task flow : Level S).post? i = some (.driven flow) :=
  if_pos own

theorem Level.post?_other {task : TaskId} (other : task.index ≠ i)
    (flow : Option (Flow S (S.Signal × S.Gen))) : (Level.task task flow : Level S).post? i = none :=
  if_neg other

def postsOf (i : Nat) (levels : List (Level S)) : List (Post S) := levels.filterMap (Level.post? i)

theorem postsOf_cons (l : Level S) (levels : List (Level S)) :
    postsOf i (l :: levels) = (l.post? i).toList ++ postsOf i levels := by
  simp only [postsOf, List.filterMap_cons]
  cases l.post? i <;> rfl

theorem postsOf_task {task : TaskId} (own : task.index = i) {below : List (Level S)}
    (nothing : postsOf i below = []) (flow : Option (Flow S (S.Signal × S.Gen))) :
    postsOf i (.task task flow :: below) = [.driven flow] := by
  rw [postsOf_cons, Level.post?_task own, nothing]
  rfl

theorem postsOf_other {task : TaskId} (other : task.index ≠ i) (below : List (Level S))
    (flow : Option (Flow S (S.Signal × S.Gen))) :
    postsOf i (.task task flow :: below) = postsOf i below := by
  rw [postsOf_cons, Level.post?_other other]
  rfl

/-- Levels to whose top something may have been delivered. -/
def Lulled : List (Level S) → List (Level S) → Prop :=
  Relation.ReflTransGen fun ls ls' => ∃ outcome, ls' = ls.modifyHead (Level.deliver outcome)

theorem heard_deliver (i : Nat) (outcome : Outcome) (levels : List (Level S)) :
    List.Forall₂ Post.Heard (postsOf i levels)
      (postsOf i (levels.modifyHead (Level.deliver outcome))) := by
  cases levels with
  | nil => exact .nil
  | cons l rest =>
    rw [List.modifyHead_cons, postsOf_cons, postsOf_cons]
    refine List.rel_append ?_ (Post.Heard.refl_all _)
    rcases l with flow | ⟨id, flow⟩ | ⟨id, ctx, life, flow⟩
    · exact .nil
    · simp only [Level.deliver, Level.post?]
      split
      · rcases flow with _ | c | k
        · exact Post.Heard.refl_all _
        · exact Post.Heard.refl_all _
        · exact .cons (.delivered k outcome) .nil
      · exact .nil
    · exact Post.Heard.refl_all _

theorem Lulled.heard {levels levels' : List (Level S)} (h : Lulled levels levels') (i : Nat) :
    List.Forall₂ Post.Heard (postsOf i levels) (postsOf i levels') := by
  induction h with
  | refl => exact Post.Heard.refl_all _
  | tail _ step ih =>
    obtain ⟨outcome, rfl⟩ := step
    exact Post.Heard.trans_all ih (heard_deliver i outcome _)

namespace World

variable {α : Type} {w w' w'' w₁ : World S} {host : Host S}

/-- The task of a number. -/
def taskAt (w : World S) (i : Nat) : Option S.Task := w.tasks[i]?.map (·.1)

def postsAt (w : World S) (i j : Nat) : List (Post S) := postsOf i (w.levelsAt j)

/-- The task may have been asked to cancel. -/
def Heeds (t t' : Option S.Task) : Prop := t' = t ∨ t' = t.map (·.requestCancel.2)

theorem Heeds.trans {t t' t'' : Option S.Task} (h : Heeds t t') (h' : Heeds t' t'') :
    Heeds t t'' := changed_trans Task.requestCancel_again h h'

theorem levelsAt_of_size {j : Nat} (outside : w.threads.size ≤ j) : w.levelsAt j = [] := by
  simp [levelsAt, Array.getElem?_eq_none outside]

theorem postsAt_of_size {j : Nat} (outside : w.threads.size ≤ j) : w.postsAt i j = [] := by
  rw [postsAt, levelsAt_of_size outside]
  rfl

theorem taskAt_modifyTask (w : World S) (id : TaskId) (change : S.Task → S.Task) (i : Nat) :
    (w.modifyTask id change).taskAt i =
      if id.index = i then (w.taskAt i).map change else w.taskAt i := by
  simp only [taskAt, World.modifyTask, Array.getElem?_modify]
  split
  · cases w.tasks[i]? <;> rfl
  · rfl

theorem taskAt_addTask (w : World S) (ctx : S.Ctx) (root : S.Yielded) (i : Nat) :
    (w.addTask ctx root).2.taskAt i =
      if i = w.tasks.size then some (.fresh ⟨w.tag, w.tasks.size⟩ root) else w.taskAt i := by
  simp only [taskAt, World.addTask, Array.getElem?_push]
  split <;> rfl

theorem levelsAt_addThread (w : World S) (levels : List (Level S)) (j : Nat) :
    (w.addThread levels).2.levelsAt j =
      if j = w.threads.size then levels else w.levelsAt j := by
  simp only [levelsAt, World.addThread, Array.getElem?_push]
  split <;> rfl

theorem levelsAt_setLevels (id : ThreadId) (levels : List (Level S))
    (known : id.index < w.threads.size) (j : Nat) :
    (w.setLevels id levels).levelsAt j = if id.index = j then levels else w.levelsAt j :=
  levelsAt_modifyLevels id known j

theorem Heeds.eq_none {t t' : Option S.Task} (h : Heeds t t') (unborn : t' = none) : t = none := by
  rcases h with rfl | rfl
  · exact unborn
  · exact Option.map_eq_none_iff.1 unborn

theorem Heeds.alive {t : S.Task} {t' : Option S.Task} (h : Heeds (some t) t') :
    ∃ u, t' = some u := by
  rcases h with rfl | rfl
  · exact ⟨t, rfl⟩
  · exact ⟨t.requestCancel.2, rfl⟩

/-! ### What leaves a task where it is -/

/-- What threads hold for the task of a number stays. Threads may be woken and others may begin. -/
structure Quiet (i : Nat) (w w' : World S) : Prop where
  levels : ∀ j < w.threads.size, Lulled (w.levelsAt j) (w'.levelsAt j)
  new : ∀ j, w.threads.size ≤ j → w'.postsAt i j = []
  ready : ∃ woken, w'.ready = w.ready ++ woken
  waiting : ∀ x ∈ w.waiting, x ∈ w'.waiting ∨ x.1 ∈ w'.ready
  threads : w.threads.size ≤ w'.threads.size

/-- The task of a number stays where it is, and is asked to cancel at most. -/
structure Unmoved (i : Nat) (w w' : World S) : Prop extends Quiet i w w' where
  task : Heeds (w.taskAt i) (w'.taskAt i)

namespace Quiet

theorem posts (h : Quiet i w w') (j : Nat) :
    List.Forall₂ Post.Heard (w.postsAt i j) (w'.postsAt i j) := by
  rcases Nat.lt_or_ge j w.threads.size with known | outside
  · exact (h.levels j known).heard i
  · rw [postsAt_of_size outside, h.new j outside]
    exact .nil

theorem still (threads : w'.threads = w.threads) (ready : w'.ready = w.ready)
    (waiting : w'.waiting = w.waiting) : Quiet i w w' := by
  refine ⟨fun j _ => ?_, fun j outside => postsAt_of_size (threads ▸ outside),
    ⟨[], ready.trans (List.append_nil _).symm⟩, fun x hx => .inl (waiting ▸ hx),
    threads ▸ Nat.le_refl _⟩
  simp only [levelsAt, threads]
  exact .refl

theorem trans (h : Quiet i w w') (h' : Quiet i w' w'') : Quiet i w w'' := by
  refine ⟨fun j known => (h.levels j known).trans (h'.levels j (known.trans_le h.threads)),
    fun j outside => ?_, ?_, fun x hx => ?_, h.threads.trans h'.threads⟩
  · have heard := h'.posts j
    rw [h.new j outside, List.forall₂_nil_left_iff] at heard
    exact heard
  · obtain ⟨woken, ready⟩ := h.ready
    obtain ⟨woken', ready'⟩ := h'.ready
    exact ⟨woken ++ woken', by rw [ready', ready, List.append_assoc]⟩
  · obtain ⟨woken, ready⟩ := h'.ready
    rcases h.waiting x hx with waits | awake
    · exact h'.waiting x waits
    · exact .inr (ready ▸ List.mem_append_left _ awake)

end Quiet

namespace Unmoved

theorem still (threads : w'.threads = w.threads) (ready : w'.ready = w.ready)
    (waiting : w'.waiting = w.waiting) (task : Heeds (w.taskAt i) (w'.taskAt i)) :
    Unmoved i w w' :=
  ⟨.still threads ready waiting, task⟩

theorem refl (i : Nat) (w : World S) : Unmoved i w w := still rfl rfl rfl (.inl rfl)

theorem trans (h : Unmoved i w w') (h' : Unmoved i w' w'') : Unmoved i w w'' :=
  ⟨h.toQuiet.trans h'.toQuiet, h.task.trans h'.task⟩

theorem deliver (i : Nat) (w : World S) (id : ThreadId) (outcome : Outcome) :
    Unmoved i w (w.deliver id outcome) := by
  have size : (w.deliver id outcome).threads.size = w.threads.size := Array.size_modify
  refine ⟨⟨fun j _ => ?_, fun j outside => postsAt_of_size (size ▸ outside),
    ⟨[], (List.append_nil _).symm⟩, fun x hx => .inl hx, size ▸ Nat.le_refl _⟩, .inl rfl⟩
  rw [levelsAt_deliver]
  split
  · exact .single ⟨outcome, rfl⟩
  · exact .refl

theorem wake (i : Nat) (w : World S) (event : Pending) (outcome : Outcome) :
    Unmoved i w (w.wake event outcome) := by
  have delivered (ids : List ThreadId) (w : World S) :
      Unmoved i w (ids.foldl (fun w id => w.deliver id outcome) w) := by
    induction ids generalizing w with
    | nil => exact refl i w
    | cons id ids ih => exact (deliver i w id outcome).trans (ih _)
  have queued : Unmoved i w { w with
      waiting := w.waiting.filter (·.2 != event)
      ready := w.ready ++ (w.waiting.filter (·.2 == event)).map (·.1) } := by
    refine ⟨⟨fun j _ => .refl, fun j outside => postsAt_of_size outside, ⟨_, rfl⟩,
      fun x hx => ?_, Nat.le_refl _⟩, .inl rfl⟩
    by_cases now : x.2 = event
    · refine .inr (List.mem_append_right _ (List.mem_map.2 ⟨x, List.mem_filter.2 ⟨hx, ?_⟩, rfl⟩))
      exact beq_iff_eq.2 now
    · exact .inl (List.mem_filter.2 ⟨hx, bne_iff_ne.2 now⟩)
  exact queued.trans (delivered _ _)

theorem fulfil (i : Nat) (w : World S) (id : PromiseId) (outcome : Outcome) :
    Unmoved i w (w.fulfil id outcome) := by
  unfold World.fulfil
  split
  · have fulfilled : Unmoved i w { w with
        promises := w.promises.modify id.index fun _ => some outcome } :=
      still rfl rfl rfl (.inl rfl)
    exact fulfilled.trans (wake i _ _ _)
  · exact refl i w

/-- Another task changes. -/
theorem modifyTask (w : World S) {id : TaskId} (other : id.index ≠ i)
    (change : S.Task → S.Task) : Unmoved i w (w.modifyTask id change) := by
  refine still rfl rfl rfl (.inl ?_)
  rw [taskAt_modifyTask, if_neg other]

theorem requestCancel (i : Nat) (w : World S) (id : TaskId) :
    Unmoved i w (w.requestCancel id).2 := by
  unfold World.requestCancel
  split
  · refine still rfl rfl rfl ?_
    rw [taskAt_modifyTask]
    split
    · exact .inr rfl
    · exact .inl rfl
  · exact refl i w

theorem answer (i : Nat) (w : World S) (q : Query S.State S.Note) : Unmoved i w (w.answer q).2 := by
  cases q with
  | requestCancel id => exact requestCancel i w id
  | fulfil id outcome => exact fulfil i w id outcome
  | _ => exact still rfl rfl rfl (.inl rfl)

theorem runSync (i : Nat) (w : World S) (code : S.Sync α) : Unmoved i w (w.runSync code).2 := by
  induction code generalizing w with
  | done | panic => exact refl i w
  | ask q k ih => exact (answer i w q).trans (ih _ _)
  | perform e => exact nomatch e

theorem release (i : Nat) (host : Host S) (w : World S) (generators : List S.Gen) :
    Unmoved i w (w.release host generators) := by
  induction generators generalizing w with
  | nil => exact refl i w
  | cons g gs ih => exact (runSync i w (host.release g)).trans (ih _)

theorem write (i : Nat) (w : World S) (entry : Entry S.Note) : Unmoved i w (w.write entry) :=
  still rfl rfl rfl (.inl rfl)

theorem report (i : Nat) (w : World S) (d : Diagnostic) : Unmoved i w (w.report d) :=
  still rfl rfl rfl (.inl rfl)

theorem addTask (w : World S) (ctx : S.Ctx) (root : S.Yielded) (other : i ≠ w.tasks.size) :
    Unmoved i w (w.addTask ctx root).2 := by
  refine still rfl rfl rfl (.inl ?_)
  rw [taskAt_addTask, if_neg other]

theorem addThread (w : World S) {levels : List (Level S)} (other : postsOf i levels = []) :
    Unmoved i w (w.addThread levels).2 := by
  refine ⟨⟨fun j known => ?_, fun j outside => ?_, ⟨_, rfl⟩, fun x hx => .inl hx,
    Array.size_push .. ▸ Nat.le_succ _⟩, .inl rfl⟩
  · rw [levelsAt_addThread, if_neg (Nat.ne_of_lt known)]
    exact .refl
  · rw [postsAt, levelsAt_addThread]
    split
    · exact other
    · exact postsAt_of_size outside

theorem spawn (w : World S) (ctx : S.Ctx) (root : S.Yielded) (other : i ≠ w.tasks.size) :
    Unmoved i w (w.spawn ctx root).2 := by
  refine (addTask w ctx root other).trans (addThread _ ?_)
  rw [postsOf_cons]
  simp [Level.post?, other.symm, postsOf]

end Unmoved

/-! ### Moves of one thread -/

/-- A thread moves and then holds `ps` for the task of a number. All others leave the task where it
is. -/
structure Shifts (i : Nat) (id : ThreadId) (ps : List (Post S)) (w w' : World S) : Prop where
  own : List.Forall₂ Post.Heard ps (w'.postsAt i id.index)
  levels : ∀ j < w.threads.size, j ≠ id.index → Lulled (w.levelsAt j) (w'.levelsAt j)
  new : ∀ j, w.threads.size ≤ j → w'.postsAt i j = []
  ready : ∀ o ∈ w.ready, o ≠ id → o ∈ w'.ready
  waiting : ∀ x ∈ w.waiting, x.1 ≠ id → x ∈ w'.waiting ∨ x.1 ∈ w'.ready
  threads : w.threads.size ≤ w'.threads.size

section Threads

variable {id : ThreadId} {ps : List (Post S)} {l : Level S} {below levels : List (Level S)}

theorem Shifts.others (h : Shifts i id ps w w') {j : Nat} (other : j ≠ id.index) :
    List.Forall₂ Post.Heard (w.postsAt i j) (w'.postsAt i j) := by
  rcases Nat.lt_or_ge j w.threads.size with known | outside
  · exact (h.levels j known other).heard i
  · rw [postsAt_of_size outside, h.new j outside]
    exact .nil

/-- A thread waits or stays in line while others move, or nothing does but the clock. -/
structure Bypassed (o : ThreadId) (w w' : World S) : Prop where
  levels : o.index < w.threads.size → Lulled (w.levelsAt o.index) (w'.levelsAt o.index)
  ready : o ∈ w.ready → o ∈ w'.ready
  waiting : ∀ e, (o, e) ∈ w.waiting → (o, e) ∈ w'.waiting ∨ o ∈ w'.ready

theorem Quiet.bypassed (h : Quiet i w w') (o : ThreadId) : Bypassed o w w' := by
  obtain ⟨woken, ready⟩ := h.ready
  exact ⟨h.levels o.index, fun ho => ready ▸ List.mem_append_left _ ho,
    fun e he => h.waiting (o, e) he⟩

theorem Shifts.bypassed (h : Shifts i id ps w w') {o : ThreadId} (other : o ≠ id) :
    Bypassed o w w' :=
  ⟨fun known => h.levels o.index known fun same => other (congrArg ThreadId.mk same),
    fun ho => h.ready o ho other, fun e he => h.waiting (o, e) he other⟩

theorem Shifts.quiet (h : Shifts i id ps w w') (q : Quiet i w' w'') : Shifts i id ps w w'' := by
  obtain ⟨woken, ready⟩ := q.ready
  have awake {o : ThreadId} (ho : o ∈ w'.ready) : o ∈ w''.ready :=
    ready ▸ List.mem_append_left _ ho
  refine ⟨Post.Heard.trans_all h.own (q.posts _), fun j known other => ?_, fun j outside => ?_,
    fun o ho other => awake (h.ready o ho other), fun x hx other => ?_, h.threads.trans q.threads⟩
  · exact (h.levels j known other).trans (q.levels j (known.trans_le h.threads))
  · have heard := q.posts j
    rw [h.new j outside, List.forall₂_nil_left_iff] at heard
    exact heard
  · rcases h.waiting x hx other with waits | woken
    · exact q.waiting x waits
    · exact .inr (awake woken)

/-- The thread has to wait. -/
theorem Shifts.block (h : Shifts i id ps w w') (head : w'.ready.head? = some id)
    (event : Pending) : Shifts i id ps w (w'.block id event) := by
  obtain ⟨rest, ready⟩ := List.head?_eq_some_iff.1 head
  have tail {o : ThreadId} (ho : o ∈ w'.ready) (other : o ≠ id) : o ∈ w'.ready.tail := by
    rw [ready] at ho ⊢
    exact (List.mem_cons.1 ho).resolve_left other
  refine ⟨h.own, h.levels, h.new, fun o ho other => tail (h.ready o ho other) other,
    fun x hx other => ?_, h.threads⟩
  rcases h.waiting x hx other with waits | woken
  · exact .inl (List.mem_append_left _ waits)
  · exact .inr (tail woken other)

variable (q : Quiet i w w₁)
include q

theorem Quiet.shifts (id : ThreadId) : Shifts i id (w.postsAt i id.index) w w₁ := by
  obtain ⟨woken, ready⟩ := q.ready
  exact ⟨q.posts _, fun j known _ => q.levels j known, q.new,
    fun o ho _ => ready ▸ List.mem_append_left _ ho, fun x hx _ => q.waiting x hx, q.threads⟩

variable (known : id.index < w.threads.size)
include known

theorem Quiet.setLevels (levels : List (Level S)) :
    Shifts i id (postsOf i levels) w (w₁.setLevels id levels) := by
  have at_ := levelsAt_setLevels id levels (known.trans_le q.threads)
  have moved := q.shifts id
  refine ⟨?_, fun j there other => ?_, fun j outside => ?_, moved.ready, moved.waiting, ?_⟩
  · rw [postsAt, at_, if_pos rfl]
    exact Post.Heard.refl_all _
  · rw [at_, if_neg other.symm]
    exact q.levels j there
  · rw [postsAt, at_, if_neg (Nat.ne_of_lt (known.trans_le outside))]
    exact q.new j outside
  · exact q.threads.trans_eq Array.size_modify.symm

variable (head : w.ready.head? = some id)
include head

theorem Quiet.endThread (fate : Fate) : Shifts i id [] w (w₁.endThread id fate) := by
  let ended : World S := { w₁ with
    threads := w₁.threads.modify id.index fun _ => ⟨[], some fate⟩, ready := w₁.ready.tail }
  have at_ (j : Nat) : ended.levelsAt j = if id.index = j then [] else w₁.levelsAt j := by
    simp only [levelsAt, ended, Array.getElem?_modify]
    split
    · cases w₁.threads[j]? <;> rfl
    · rfl
  obtain ⟨woken, ready⟩ := q.ready
  obtain ⟨rest, running⟩ := List.head?_eq_some_iff.1 head
  have tail {o : ThreadId} (ho : o ∈ w₁.ready) (other : o ≠ id) : o ∈ ended.ready := by
    rw [ready, running, List.cons_append] at ho
    simp only [ended, ready, running, List.cons_append, List.tail_cons]
    exact (List.mem_cons.1 ho).resolve_left other
  have moved := q.shifts id
  have shifted : Shifts i id [] w ended := by
    exact
      { own := by
          rw [postsAt, at_, if_pos rfl]
          exact .nil
        levels := fun j there other => by
          rw [at_, if_neg other.symm]
          exact q.levels j there
        new := fun j outside => by
          rw [postsAt, at_, if_neg (Nat.ne_of_lt (known.trans_le outside))]
          exact q.new j outside
        ready := fun o ho other => tail (moved.ready o ho other) other
        waiting := fun x hx other =>
          (moved.waiting x hx other).imp_right fun woken => tail woken other
        threads := q.threads.trans_eq Array.size_modify.symm }
  exact shifted.quiet (Unmoved.wake i _ _ _).toQuiet

/-- The running level ends, and the one below goes on. -/
theorem Quiet.finishLevel (chain : ((l :: below).map Level.shape).IsChain Shape.Bears)
    (outcome : Outcome) : Shifts i id (postsOf i below) w (w₁.finishLevel id below outcome) := by
  unfold World.finishLevel
  split
  · exact q.endThread known head _
  · -- A root task whose task ends has been started.
    rename_i task ctx life rest
    have running : life.phase = .running := ((List.isChain_cons_cons.1 chain).1 _ _ rfl).2
    have shifted := q.setLevels known (.root task ctx (life.taskEnded outcome) none :: rest)
    have before : (Level.root task ctx life none : Level S).post? i = none := by
      simp only [Level.post?, running]
    have after : (Level.root task ctx (life.taskEnded outcome) none : Level S).post? i = none := by
      cases outcome <;> rfl
    rw [postsOf_cons, after] at shifted
    rw [postsOf_cons, before]
    exact shifted
  · rename_i l' rest _
    have shifted := q.setLevels known (l'.deliver outcome :: rest)
    exact { shifted with own := Post.Heard.trans_all (heard_deliver i outcome _) shifted.own }

end Threads

end World

end EffectEngine
