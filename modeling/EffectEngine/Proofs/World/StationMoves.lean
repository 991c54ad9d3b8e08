import EffectEngine.Proofs.World.Stations

/-!
# What a move does to one task

Each piece of the machine takes the station of a task to a station of the new world, by one of the
ways that `Station.Next` lists: `World.step_station` says so of the whole machine. Which way is
decided by the thread that runs and by the level on top of it: whether that level is the post of the
task, or holds nothing for it.
-/

namespace EffectEngine

variable {S : Sig} {i : Nat}

namespace World

open Station

variable {α : Type} {w w' w₁ : World S} {host : Host S} {id : ThreadId}
  {l : Level S} {levels below : List (Level S)} {s : Station S} {task : TaskId} {ctx : S.Ctx}

theorem levelsAt_spawn (w : World S) (ctx : S.Ctx) (root : S.Yielded) (j : Nat) :
    (w.spawn ctx root).2.levelsAt j =
      if j = w.threads.size then [.task ⟨w.tag, w.tasks.size⟩ none] else w.levelsAt j :=
  levelsAt_addThread _ _ j

theorem taskAt_spawn (w : World S) (ctx : S.Ctx) (root : S.Yielded) (i : Nat) :
    (w.spawn ctx root).2.taskAt i =
      if i = w.tasks.size then some (.fresh ⟨w.tag, w.tasks.size⟩ root) else w.taskAt i :=
  taskAt_addTask w ctx root i

section Moves

variable (h : s.In i w) (head : w.ready.head? = some id)
include h head

theorem goes_crash (known : id.index < w.threads.size) (q : Unmoved i w w₁)
    (same : postsOf i levels = w.postsAt i id.index) (message : String) :
    Station.Goes host i s [] w (w₁.crash host id levels message) := by
  obtain ⟨shifts, left, heeds⟩ := q.crash host known head levels message
  exact lets_go h head shifts (fun p _ => .leaves p left) fun nothing =>
    ⟨rfl, heeds (same.trans nothing)⟩

/-- The task is born on a thread of its own. -/
theorem goes_spawned (known : id.index < w.threads.size) (next : i = w.tasks.size)
    {root : S.Yielded} (born : w'.taskAt i = some (.fresh task root))
    (own : w'.postsAt i id.index = [])
    (apart : ∀ j, j ≠ id.index → w'.levelsAt j = (w.spawn ctx root).2.levelsAt j)
    (others : ∀ o, o ≠ id → Bypassed o w w') : Station.Goes host i s [] w w' := by
  refine birth h next (j := w.threads.size) born ?_ (fun k other => ?_) (.inr rfl)
    fun o idle => others o fun same => idle (same ▸ head)
  · rw [postsAt, apart _ (Nat.ne_of_gt known), levelsAt_spawn, if_pos rfl, postsOf_cons]
    simp [Level.post?, next, postsOf]
  · by_cases running : k = id.index
    · exact running ▸ own
    · rw [postsAt, apart k running, levelsAt_spawn, if_neg other]
      exact (h.of_size next).2 k

variable (holds : w.levelsAt id.index = l :: below)
include holds

/-! ### Code of others -/

section Others

variable (level : Flow S α → Level S) (same : ∀ f, (level f).post? i = l.post? i)
include same

theorem goes_perform (e : Effect S.Ctx S.Gen S.Fn S.Seed) (k : Outcome → S.Code α) :
    Station.Goes host i s [] w (w.perform host id below level e k) := by
  have known := known_of_levelsAt holds
  have posts (f : Flow S α) : postsOf i (level f :: below) = w.postsAt i id.index := by
    rw [postsAt, holds, postsOf_cons, postsOf_cons, same]
  have goesOn {w₁ : World S} (q : Quiet i w w₁) (f : Flow S α) :
      Shifts i id (w.postsAt i id.index) w (w₁.setLevels id (level f :: below)) :=
    posts f ▸ q.setLevels known _
  have idle := (Unmoved.refl i w).toQuiet
  -- A task that is born is another one for the number after it, which tells about other threads.
  have later (next : i = w.tasks.size) : i + 1 ≠ w.tasks.size := next ▸ Nat.succ_ne_self i
  cases e with
  | wait wait =>
    simp only [World.perform]
    split
    · exact stays h head (goesOn idle _) (.inl rfl)
    · exact stays h head ((goesOn idle _).block head _) (.inl rfl)
  | go seed => exact stays h head (goesOn (Unmoved.addThread w rfl).toQuiet _) (.inl rfl)
  | spawn ctx root =>
    by_cases next : i = w.tasks.size
    · have at_ := levelsAt_setLevels (w := (w.spawn ctx root).2) id
        (level (.going (k (.ok (.task ⟨w.tag, w.tasks.size⟩)))) :: below)
        (Array.size_push .. ▸ Nat.lt_succ_of_lt known)
      have shifts := (Unmoved.spawn w ctx root (later next)).toQuiet.setLevels known
      refine goes_spawned h head known next ((taskAt_spawn w ctx root i).trans (if_pos next)) ?_
        (fun j other => (at_ j).trans (if_neg other.symm)) fun o other => (shifts _).bypassed other
      refine (congrArg (postsOf i) ((at_ _).trans (if_pos rfl))).trans ?_
      exact (posts _).trans ((h.of_size next).2 _)
    · have spawned := Unmoved.spawn w ctx root next
      exact stays h head (goesOn spawned.toQuiet _) spawned.task
  | run ctx root =>
    have at_ := levelsAt_setLevels (w := (w.addTask ctx root).2) id
      (.root ⟨w.tag, w.tasks.size⟩ ctx (.begin host.listeners) none :: level (.waiting k) :: below)
      known
    by_cases next : i = w.tasks.size
    · have vacant := (h.of_size next).2
      have shifts := (Unmoved.addTask w ctx root (later next)).toQuiet.setLevels known
      refine birth h next (j := id.index) ((taskAt_addTask w ctx root i).trans (if_pos next)) ?_
        (fun j other => ?_) (.inl rfl) fun o idle =>
          (shifts _).bypassed fun same => idle (same ▸ head)
      · refine (congrArg (postsOf i) ((at_ _).trans (if_pos rfl))).trans ?_
        rw [postsOf_cons, posts, vacant, next]
        simp [Level.post?, Lifecycle.begin]
      · refine (congrArg (postsOf i) ((at_ _).trans (if_neg other.symm))).trans ?_
        exact vacant j
    · have added := Unmoved.addTask w ctx root next
      have shifts := added.toQuiet.setLevels known
        (.root ⟨w.tag, w.tasks.size⟩ ctx (.begin host.listeners) none ::
          level (.waiting k) :: below)
      have reserved : (Level.root ⟨w.tag, w.tasks.size⟩ ctx (.begin host.listeners) none :
          Level S).post? i = none := if_neg (Ne.symm next)
      rw [postsOf_cons, posts, reserved] at shifts
      exact stays h head shifts added.task

/-- The code on top is not that of the task, and `finish` takes its result. -/
theorem goes_stepCode {code : S.Code α} (top : l = level (.going code))
    (finish : World S → α → World S)
    (done : ∀ a, code = .done a → Station.Goes host i s [] w (finish w a)) :
    Station.Goes host i s [] w (w.stepCode host id below level finish code) := by
  have known := known_of_levelsAt holds
  have posts (f : Flow S α) : postsOf i (level f :: below) = w.postsAt i id.index := by
    rw [postsAt, holds, postsOf_cons, postsOf_cons, same]
  cases code with
  | done a => exact done a rfl
  | panic m => exact goes_crash h head known (.refl i w) (posts _) m
  | ask q k =>
    have asked := Unmoved.answer i w q
    refine stays h head ?_ asked.task
    exact posts (.going (k (w.answer q).1)) ▸ asked.toQuiet.setLevels known _
  | perform e k => exact goes_perform h head holds level same e k

end Others

/-! ### The code of the task -/

/-- The level of the task, with code on top that performs an effect. -/
theorem goes_own_perform (own : task.index = i) (e : Effect S.Ctx S.Gen S.Fn S.Seed)
    (k : Outcome → S.Code (S.Signal × S.Gen))
    (top : l = .task task (some (.going (.perform e k)))) :
    Station.Goes host i s [] w (w.perform host id below (fun f => .task task (some f)) e k) := by
  have known := known_of_levelsAt holds
  obtain ⟨there, nothing⟩ := h.of_top holds (top ▸ Level.post?_task own _)
  obtain ⟨t, alive⟩ := h.born_of_post there
  have other := h.ne_size there
  have posts (f : Flow S (S.Signal × S.Gen)) := postsOf_task own nothing (some f)
  have goesOn {w₁ : World S} (q : Unmoved i w w₁) (outcome : Outcome)
      (same : w₁.taskAt i = w.taskAt i) : Station.Goes host i s [] w
        (w₁.setLevels id (.task task (some (.going (k outcome))) :: below)) := by
    refine Station.goesOn h head there alive (posts _ ▸ q.toQuiet.setLevels known _)
      (same.trans alive) fun q' heard => ?_
    cases heard
    exact .performs _ e k outcome
  have waits {w' : World S} (shifts : Shifts i id [.driven (some (.waiting k))] w w')
      (same : w'.taskAt i = w.taskAt i) : Station.Goes host i s [] w w' := by
    refine Station.goesOn h head there alive shifts (same.trans alive) fun q' heard => ?_
    cases heard with
    | nothing => exact .waits _ e k
    | delivered k outcome => exact .performs _ e k outcome
  have idle := Unmoved.refl i w
  cases e with
  | wait wait =>
    simp only [World.perform]
    split
    · exact goesOn idle _ rfl
    · have shifts := idle.toQuiet.setLevels known (.task task (some (.waiting k)) :: below)
      rw [posts] at shifts
      exact waits (shifts.block head _) rfl
  | go seed => exact goesOn (Unmoved.addThread w rfl) _ rfl
  | spawn ctx root =>
    exact goesOn (Unmoved.spawn w ctx root other) _
      ((taskAt_spawn w ctx root i).trans (if_neg other))
  | run ctx root =>
    have added := Unmoved.addTask w ctx root other
    have shifts := added.toQuiet.setLevels known
      (.root ⟨w.tag, w.tasks.size⟩ ctx (.begin host.listeners) none ::
        .task task (some (.waiting k)) :: below)
    have reserved : (Level.root ⟨w.tag, w.tasks.size⟩ ctx (.begin host.listeners) none :
        Level S).post? i = none := if_neg (Ne.symm other)
    rw [postsOf_cons, posts, reserved] at shifts
    exact waits shifts ((taskAt_addTask w ctx root i).trans (if_neg other))

theorem goes_own_stepCode (own : task.index = i) {code : S.Code (S.Signal × S.Gen)}
    (top : l = .task task (some (.going code))) :
    Station.Goes host i s (emissionsOf i (l :: below)) w
      (w.stepCode host id below (fun f => .task task (some f))
        (fun w (signal, generator) =>
          (w.modifyTask task fun t => taskResumed t signal generator).setLevels id
            (.task task none :: below)) code) := by
  subst top
  have known := known_of_levelsAt holds
  obtain ⟨there, nothing⟩ := h.of_top holds (Level.post?_task own _)
  obtain ⟨t, alive⟩ := h.born_of_post there
  have posts := postsOf_task own nothing
  cases code with
  | done result =>
    obtain ⟨signal, g⟩ := result
    let w₁ := w.modifyTask task fun t => taskResumed t signal g
    have resumed : Quiet i w w₁ := .still rfl rfl rfl
    have after : (w₁.setLevels id (.task task none :: below)).taskAt i =
        some (t.take host.registry (.resumed signal g)) := by
      refine (taskAt_modifyTask w task (taskResumed · signal g) i).trans ?_
      rw [if_pos own, alive, Option.map_some, taskResumed_eq host.registry]
    have shifts := resumed.setLevels known (.task task none :: below)
    rw [posts] at shifts
    refine Station.goesOn h head there alive shifts after fun q' heard => ?_
    cases heard
    exact .ends t signal g
  | panic m => exact goes_crash h head known (.refl i w) ((posts _).trans there.symm) m
  | ask q k =>
    have emitted : emissionsOf i (.task task (some (.going (.ask q k))) :: below) = q.emitted :=
      if_pos own
    have asked := Unmoved.answer i w q
    have shifts := asked.toQuiet.setLevels known
      (.task task (some (.going (k (w.answer q).1))) :: below)
    rw [posts] at shifts
    rw [emitted]
    have heeds := asked.task
    rw [alive] at heeds
    obtain ⟨u, after⟩ := heeds.alive
    refine Station.goesOn h head there alive shifts after fun q' heard => ?_
    cases heard
    exact .asks (after ▸ heeds) q k _
  | perform e k => exact goes_own_perform h head holds own e k rfl

/-! ### Requests of tasks -/

omit h head holds in
theorem runSync_gives (w : World S) {code : S.Sync α} {a : α}
    (ran : (w.runSync code).1 = .ok a) : code.Gives a := by
  induction code generalizing w with
  | done b =>
    obtain rfl : b = a := Except.ok.inj ran
    exact .done
  | panic => cases ran
  | ask q k ih => exact .ask _ (ih _ _ ran)
  | perform e => exact nomatch e

/-- A request is granted to another task. -/
theorem goes_grant_other (other : task.index ≠ i) (top : l = .task task none)
    (change : S.Task → S.Task) (ctx : S.Ctx) (request : Request S.Gen S.Fn S.Mw) :
    Station.Goes host i s [] w
      ((w.modifyTask task change).grant host id (l :: below) below task ctx request) := by
  have q : Unmoved i w (w.modifyTask task change) := .modifyTask w other change
  generalize changed : w.modifyTask task change = w₁ at q
  have known := known_of_levelsAt holds
  have same : postsOf i (l :: below) = w.postsAt i id.index := (congrArg (postsOf i) holds).symm
  have resumes (flow : Option (Flow S (S.Signal × S.Gen))) :
      Station.Goes host i s [] w (w₁.setLevels id (.task task flow :: below)) := by
    have posts : postsOf i (.task task flow :: below) = w.postsAt i id.index := by
      rw [← same, top, postsOf_other other, postsOf_other other]
    exact stays h head (posts ▸ q.toQuiet.setLevels known _) q.task
  have asks {β : Type} (code : S.Sync β) (change : β → S.Task → S.Task) :
      Station.Goes host i s [] w (w₁.stepSync host id (l :: below)
        (fun w a => w.modifyTask task (change a)) code) := by
    have ran := q.trans (.runSync i w₁ code)
    unfold World.stepSync
    split
    · rename_i a w₂ result
      rw [result] at ran
      exact unmoved h (ran.trans (.modifyTask w₂ other _))
    · rename_i m w₂ result
      rw [result] at ran
      exact goes_crash h head known ran same m
  cases request with
  | silent => exact unmoved h q
  | resume g input => exact resumes _
  | retire g => exact resumes _
  | filter m op => exact asks _ fun accepts t => t.filtered accepts
  | handle m op => exact asks _ fun result t => t.handled result
  | invoke func args => exact asks _ fun result t => t.invoked result
  | report d => exact unmoved h (q.trans (.report i w₁ d))
  | fork root =>
    subst changed
    have size : (w.modifyTask task change).tasks.size = w.tasks.size := Array.size_modify
    let spawned := (w.modifyTask task change).spawn ctx (.operation root)
    have told (j : Nat) : Quiet j spawned.2 (spawned.2.modifyTask task (·.forked spawned.1)) :=
      .still rfl rfl rfl
    by_cases next : i = w.tasks.size
    · have vacant := (h.of_size next).2
      have moved : Quiet (i + 1) w (w.modifyTask task change) := .still rfl rfl rfl
      have later : i + 1 ≠ (w.modifyTask task change).tasks.size := by omega
      have others := (moved.trans (Unmoved.spawn _ ctx (.operation root) later).toQuiet).trans
        (told _)
      have born : (spawned.2.modifyTask task (·.forked spawned.1)).taskAt i =
          some (.fresh spawned.1 (.operation root)) := by
        rw [taskAt_modifyTask, if_neg other, taskAt_spawn, if_pos (next.trans size.symm)]
        rfl
      have at_ (j : Nat) : (spawned.2.modifyTask task (·.forked spawned.1)).levelsAt j =
          if j = w.threads.size then [.task spawned.1 none] else w.levelsAt j :=
        levelsAt_spawn _ ctx (.operation root) j
      have at' (j : Nat) : (w.spawn ctx (.operation root)).2.levelsAt j =
          if j = w.threads.size then [.task spawned.1 none] else w.levelsAt j := by
        rw [levelsAt_spawn, ← size]
        rfl
      refine goes_spawned h head known next born ?_ (fun j _ => (at_ j).trans (at' j).symm)
        fun o _ => others.bypassed o
      refine (congrArg (postsOf i) ((at_ _).trans (if_neg (Nat.ne_of_lt known)))).trans ?_
      exact vacant _
    · have moved := q.trans (.spawn _ ctx (.operation root) (size ▸ next))
      exact unmoved h (moved.trans (.modifyTask spawned.2 other (·.forked spawned.1)))

/-- A request is granted to the task. -/
theorem goes_grant_own (own : task.index = i) (top : l = .task task none) {t t' : S.Task}
    (alive : w.taskAt i = some t) {request : Request S.Gen S.Fn S.Mw}
    (steps : t.step host.registry = (t', request)) (unsettled : t'.outcome? = none) (ctx : S.Ctx) :
    Station.Goes host i s [] w
      ((w.modifyTask task fun _ => t').grant host id (l :: below) below task ctx request) := by
  have known := known_of_levelsAt holds
  obtain ⟨there, nothing⟩ := h.of_top holds (top ▸ Level.post?_task own _)
  have born := h.ne_size there
  have posts := postsOf_task own nothing
  have stepped : (w.modifyTask task fun _ => t').taskAt i = some t' := by
    rw [taskAt_modifyTask, if_pos own, alive]
    rfl
  have moved : Quiet i w (w.modifyTask task fun _ => t') := .still rfl rfl rfl
  have size : (w.modifyTask task fun _ => t').tasks.size = w.tasks.size := Array.size_modify
  have crashed {w₂ : World S} (ran : Unmoved i (w.modifyTask task fun _ => t') w₂) (m : String) :
      Station.Goes host i s [] w (w₂.crash host id (l :: below) m) := by
    obtain ⟨shifts, left, -⟩ := ran.crash host known head (l :: below) m
    have shifts : Shifts i id [] w (w₂.crash host id (l :: below) m) :=
      ⟨shifts.own, shifts.levels, shifts.new, shifts.ready, shifts.waiting, shifts.threads⟩
    exact gives_up h head there shifts (alive ▸ .fails steps (stepped ▸ left))
  generalize w.modifyTask task (fun _ => t') = w₁ at stepped moved size crashed
  have goesOn {w' : World S} (q : Quiet i w w') {u : S.Task} (same : w'.taskAt i = some u)
      (step : Next host ⟨some t, [.driven none]⟩ [] ⟨some u, [.driven none]⟩) :
      Station.Goes host i s [] w w' := by
    refine Station.goesOn h head there alive (there ▸ q.shifts id) same fun q' heard => ?_
    cases heard
    exact step
  have resumes (code : S.Code (S.Signal × S.Gen))
      (step : Next host ⟨some t, [.driven none]⟩ [] ⟨some t', [.driven (some (.going code))]⟩) :
      Station.Goes host i s [] w (w₁.setLevels id (.task task (some (.going code)) :: below)) := by
    have shifts := moved.setLevels known (.task task (some (.going code)) :: below)
    rw [posts] at shifts
    refine Station.goesOn h head there alive shifts stepped fun q' heard => ?_
    cases heard
    exact step
  have asks {β : Type} (code : S.Sync β) (take : β → Impulse S.Gen S.Fn)
      (answers : ∀ a, code.Gives a → Answers host request (take a)) :
      Station.Goes host i s [] w (w₁.stepSync host id (l :: below)
        (fun w a => w.modifyTask task (·.take host.registry (take a))) code) := by
    have ran := Unmoved.runSync i w₁ code
    unfold World.stepSync
    split
    · rename_i a w₂ result
      rw [result] at ran
      have answered : Quiet i w₂ (w₂.modifyTask task (·.take host.registry (take a))) :=
        .still rfl rfl rfl
      have after := taskAt_modifyTask w₂ task (·.take host.registry (take a)) i
      have heeds := ran.task
      rw [stepped] at heeds
      obtain ⟨u, heeded⟩ := heeds.alive
      rw [if_pos own, heeded, Option.map_some] at after
      have gives := runSync_gives w₁ (congrArg Prod.fst result)
      exact goesOn ((moved.trans ran.toQuiet).trans answered) after
        (.answered steps unsettled (heeded ▸ heeds) (answers a gives))
    · rename_i m w₂ result
      rw [result] at ran
      exact crashed ran m
  cases request with
  | silent => exact goesOn moved stepped (.moves steps unsettled (.inl rfl))
  | report d =>
    have reported : Unmoved i w₁ (w₁.report d) := .report i w₁ d
    exact goesOn (moved.trans reported.toQuiet) stepped (.moves steps unsettled (.inr ⟨d, rfl⟩))
  | resume g input => exact resumes _ (.resumes steps unsettled)
  | retire g => exact resumes _ (.retires steps unsettled)
  | filter m op => exact asks _ .filtered fun a gives => .filter m op ctx a gives
  | handle m op => exact asks _ .handled fun a gives => .handle m op ctx a gives
  | invoke func args => exact asks _ .invoked fun a gives => .invoke func args a gives
  | fork root =>
    let spawned := w₁.spawn ctx (.operation root)
    have forked : Unmoved i w₁ spawned.2 := .spawn w₁ ctx (.operation root) (size ▸ born)
    have told : Quiet i spawned.2 (spawned.2.modifyTask task (·.forked spawned.1)) :=
      .still rfl rfl rfl
    have after := taskAt_modifyTask spawned.2 task (·.forked spawned.1) i
    rw [if_pos own, taskAt_spawn, if_neg (size ▸ born), stepped, Option.map_some] at after
    exact goesOn ((moved.trans forked.toQuiet).trans told) after
      (.answered steps unsettled (.inl rfl) (.fork root spawned.1))

variable (up : w.Upright)
include up

omit h head holds up in
/-- The running thread drives the task. -/
theorem stepTask_own (id : ThreadId) (below : List (Level S)) (own : task.index = i)
    {t t' : S.Task} (alive : w.taskAt i = some t) {request : Request S.Gen S.Fn S.Mw}
    (steps : t.step host.registry = (t', request)) :
    ∃ ctx, w.stepTask host id below task =
      match t'.outcome? with
      | some outcome =>
        ((w.modifyTask task fun _ => t').wake (.task task) outcome).finishLevel id below outcome
      | none =>
        (w.modifyTask task fun _ => t').grant host id (.task task none :: below) below task ctx
          request := by
  obtain ⟨⟨t₀, ctx⟩, found, rfl⟩ := Option.map_eq_some_iff.1 alive
  have task? : w.task? task = some t₀ := by simp only [World.task?, own, found, Option.map_some]
  have ctx? : w.ctx? task = some ctx := by simp only [World.ctx?, own, found, Option.map_some]
  refine ⟨ctx, ?_⟩
  cases outcome : t'.outcome? with
  | none => simp only [World.stepTask, task?, ctx?, steps, outcome]
  | some o => simp only [World.stepTask, task?, ctx?, steps, outcome]

/-- The task settles, and its post is given up. -/
theorem shifts_settled (own : task.index = i) (top : l = .task task none) {t : S.Task}
    (alive : w.taskAt i = some t) (t' : S.Task) (outcome : Outcome) :
    let w' := ((w.modifyTask task fun _ => t').wake (.task task) outcome).finishLevel id below
      outcome
    Shifts i id [] w w' ∧ w'.taskAt i = some t' := by
  obtain ⟨-, nothing⟩ := h.of_top holds (top ▸ Level.post?_task own _)
  have moved : Quiet i w (w.modifyTask task fun _ => t') := .still rfl rfl rfl
  have woken := moved.trans (Unmoved.wake i _ (.task task) outcome).toQuiet
  have chain := chain_of_levelsAt up holds
  have shifts := woken.finishLevel (known_of_levelsAt holds) head chain outcome
  refine ⟨nothing ▸ shifts, ?_⟩
  rw [taskAt_of_eq ((tasks_finishLevel _ _ _ _).trans (tasks_wake _ _ _)), taskAt_modifyTask,
    if_pos own, alive]
  rfl

theorem goes_stepTask (top : l = .task task none) :
    Station.Goes host i s [] w (w.stepTask host id below task) := by
  by_cases own : task.index = i
  · obtain ⟨there, -⟩ := h.of_top holds (top ▸ Level.post?_task own _)
    obtain ⟨t, alive⟩ := h.born_of_post there
    rcases steps : t.step host.registry with ⟨t', request⟩
    obtain ⟨ctx, moves⟩ := stepTask_own id below own alive steps
    rw [moves]
    split
    · rename_i outcome settled
      obtain ⟨shifts, after⟩ := shifts_settled h head holds up own top alive t' outcome
      exact gives_up h head there shifts (alive ▸ after ▸ .settles steps settled)
    · rename_i unsettled
      subst top
      exact goes_grant_own h head holds own rfl alive steps unsettled ctx
  · have posts : postsOf i below = w.postsAt i id.index := by
      rw [postsAt, holds, top, postsOf_other own]
    have ends {w₁ : World S} (q : Quiet i w w₁) (outcome : Outcome) :
        Shifts i id (w.postsAt i id.index) w (w₁.finishLevel id below outcome) :=
      posts ▸ q.finishLevel (known_of_levelsAt holds) head (chain_of_levelsAt up holds) outcome
    unfold World.stepTask
    split
    · rename_i t ctx found context
      rcases steps : t.step host.registry with ⟨u, request⟩
      dsimp only
      split
      · rename_i outcome settled
        have moved : Unmoved i w (w.modifyTask task fun _ => u) := .modifyTask w own _
        have woken := moved.trans (.wake i _ (.task task) outcome)
        refine stays h head (ends woken.toQuiet outcome) ?_
        rw [taskAt_of_eq (tasks_finishLevel _ _ _ _)]
        exact woken.task
      · subst top
        exact goes_grant_other h head holds own rfl _ ctx request
    · refine stays h head (ends (Unmoved.refl i w).toQuiet _) (.inl ?_)
      exact taskAt_of_eq (tasks_finishLevel _ _ _ _)

/-! ### Root tasks -/

section Root

variable {life : Lifecycle S.Listener} {flow : Option (Flow S (Except Error Unit))}

omit up in
/-- The root task on top goes on, and holds for the task what it held before. -/
theorem goes_root (q : Unmoved i w w₁) {l' : Level S} (same : l'.post? i = l.post? i) :
    Station.Goes host i s [] w (w₁.setLevels id (l' :: below)) := by
  have known := known_of_levelsAt holds
  have posts : postsOf i (l' :: below) = w.postsAt i id.index := by
    rw [postsAt, holds, postsOf_cons, postsOf_cons, same]
  exact stays h head (posts ▸ q.toQuiet.setLevels known _) q.task

theorem goes_stepRoot (top : l = .root task ctx life none) :
    Station.Goes host i s [] w (w.stepRoot host id below task ctx life) := by
  have known := known_of_levelsAt holds
  have idle := Unmoved.refl i w
  rcases life with ⟨ls, phase⟩
  have returns (result : Outcome) (nothing : l.post? i = none) :
      Station.Goes host i s [] w (w.finishLevel id below result) := by
    have posts : postsOf i below = w.postsAt i id.index := by
      rw [postsAt, holds, postsOf_cons, nothing]
      rfl
    have chain := chain_of_levelsAt up holds
    refine stays h head (posts ▸ idle.toQuiet.finishLevel known head chain result) (.inl ?_)
    exact taskAt_of_eq (tasks_finishLevel _ _ _ _)
  subst top
  cases phase with
  | settingUp todo =>
    cases todo with
    | cons listener todo => exact goes_root h head holds idle rfl
    | nil =>
      have shifts := idle.toQuiet.setLevels known
        (.task task none :: .root task ctx ⟨ls, .running⟩ none :: below)
      rw [postsOf_cons, postsOf_cons] at shifts
      by_cases own : task.index = i
      · obtain ⟨there, nothing⟩ := h.of_top (p := .reserved) holds (if_pos own)
        obtain ⟨t, alive⟩ := h.born_of_post there
        rw [nothing, Level.post?_task own] at shifts
        refine Station.goesOn h head there alive shifts alive fun q' heard => ?_
        cases heard
        exact .begins _
      · have posts : postsOf i below = w.postsAt i id.index := by
          rw [postsAt, holds, postsOf_cons]
          simp [Level.post?, own]
        rw [posts, Level.post?_other own] at shifts
        exact stays h head shifts (.inl rfl)
  | running => exact goes_root h head holds idle rfl
  | preCompleting v todo | completing v todo | failing e todo =>
    cases todo <;> exact goes_root h head holds idle rfl
  | finalizing r todo =>
    cases todo with
    | cons listener todo => exact goes_root h head holds idle rfl
    | nil => exact returns r rfl
  | _ =>
    rename_i r
    exact returns r rfl

omit up in
theorem goes_rootHookEnded {f : Flow S (Except Error Unit)}
    (top : l = .root task ctx life (some f)) (result : Except Error Unit) :
    Station.Goes host i s [] w (w.rootHookEnded id below task ctx life result) := by
  obtain ⟨w₁, q, ended⟩ : ∃ w₁, Unmoved i w w₁ ∧ w.rootHookEnded id below task ctx life result =
      w₁.setLevels id (.root task ctx (life.hookEnded result) none :: below) := by
    cases result with
    | ok => exact ⟨w, .refl i w, rfl⟩
    | error e =>
      simp only [World.rootHookEnded]
      split
      · exact ⟨_, .write i w _, rfl⟩
      · exact ⟨w, .refl i w, rfl⟩
  rw [ended]
  rcases life with ⟨ls, phase⟩
  subst top
  cases phase with
  | settingUp todo =>
    cases result with
    | ok => exact goes_root h head holds q rfl
    | error e =>
      -- The listeners refused: the task is given up before it starts.
      have known := known_of_levelsAt holds
      have shifts := q.toQuiet.setLevels known (.root task ctx ⟨ls, .failing e ls⟩ none :: below)
      by_cases own : task.index = i
      · obtain ⟨there, nothing⟩ := h.of_top (p := .reserved) holds (if_pos own)
        have posts : postsOf i (Level.root task ctx ⟨ls, .failing e ls⟩ none :: below) = [] :=
          nothing
        rw [posts] at shifts
        exact gives_up h head there shifts (.leaves _ ⟨_, q.task, .inl rfl⟩)
      · exact goes_root h head holds q (if_neg own).symm
  | _ =>
    cases result <;> exact goes_root h head holds q rfl

end Root

theorem goes_stepThread :
    Station.Goes host i s (emissionsOf i (l :: below)) w (w.stepThread host id (l :: below)) := by
  have known := known_of_levelsAt holds
  have chain := chain_of_levelsAt up holds
  cases l with
  | body flow =>
    cases flow with
    | waiting => exact unmoved h (.refl i w)
    | going c =>
      have posts : postsOf i below = w.postsAt i id.index := by
        rw [postsAt, holds, postsOf_cons]
        rfl
      have done (outcome : Outcome) :
          Station.Goes host i s [] w (w.finishLevel id below outcome) := by
        have shifts := (Unmoved.refl i w).toQuiet.finishLevel known head chain outcome
        exact stays h head (posts ▸ shifts) (.inl (taskAt_of_eq (tasks_finishLevel _ _ _ _)))
      exact goes_stepCode h head holds .body (fun _ => rfl) rfl
        (fun w outcome => w.finishLevel id below outcome) fun outcome _ => done outcome
  | task task flow =>
    rcases flow with _ | c | k
    · exact goes_stepTask h head holds up rfl
    · by_cases own : task.index = i
      · exact goes_own_stepCode h head holds own rfl
      · have unread : emissionsOf i (.task task (some (.going c)) :: below) = [] := by
          cases c <;> simp [emissionsOf, own]
        rw [unread]
        have posts (flow : Option (Flow S (S.Signal × S.Gen))) :
            (Level.task task flow : Level S).post? i = none := if_neg own
        have same (flow flow' : Option (Flow S (S.Signal × S.Gen))) :
            (Level.task task flow : Level S).post? i = (Level.task task flow' : Level S).post? i :=
          (posts flow).trans (posts flow').symm
        have done (signal : S.Signal) (g : S.Gen) : Station.Goes host i s [] w
            ((w.modifyTask task fun t => taskResumed t signal g).setLevels id
              (.task task none :: below)) :=
          goes_root h head holds (.modifyTask w own _) (same _ _)
        exact goes_stepCode h head holds (fun f => .task task (some f))
          (fun f => same _ _) rfl (fun w (signal, g) =>
            (w.modifyTask task fun t => taskResumed t signal g).setLevels id
              (.task task none :: below)) fun result _ => done result.1 result.2
    · exact unmoved h (.refl i w)
  | root task ctx life flow =>
    rcases flow with _ | c | k
    · exact goes_stepRoot h head holds up rfl
    · exact goes_stepCode h head holds (fun f => .root task ctx life (some f))
        (fun _ => rfl) rfl (fun w result => w.rootHookEnded id below task ctx life result)
        fun result _ => goes_rootHookEnded h head holds rfl result
    · exact unmoved h (.refl i w)

end Moves

/-- One move of the machine takes the station of a task to a station of the new world. -/
theorem step_station (host : Host S) (up : w.Upright) (h : s.In i w) :
    Station.Goes host i s (w.emissions i) w (w.step host) := by
  cases ready : w.ready with
  | nil =>
    simp only [World.step, emissions, ready]
    split
    · rename_i time _
      have later : Unmoved i w { w with clock := time, ready := [] } :=
        .still rfl ready.symm rfl (.inl rfl)
      exact unmoved h (later.trans (.wake i _ _ _))
    · exact unmoved h (.refl i w)
  | cons id ids =>
    have head : w.ready.head? = some id := by rw [ready]; rfl
    have emissions : w.emissions i = emissionsOf i (w.levelsAt id.index) := by
      simp only [World.emissions, ready]
    rw [emissions]
    cases holds : w.levelsAt id.index with
    | cons l below =>
      rw [step_of_levelsAt head holds]
      exact goes_stepThread h head holds up
    | nil =>
      have nothing : w.postsAt i id.index = [] := by rw [postsAt, holds]; rfl
      simp only [World.step, ready]
      split
      · rename_i thread found
        have empty : thread.levels = [] := by simpa [levelsAt, found] using holds
        have known : id.index < w.threads.size := (Array.getElem?_eq_some_iff.1 found).1
        have shifts := (Unmoved.refl i w).toQuiet.endThread known head (.ended (.ok .null))
        rw [empty]
        exact stays h head (nothing ▸ shifts) (.inl (taskAt_of_eq (tasks_endThread _ _ _)))
      · refine rests h (fun j => Post.Heard.refl_all _) (.inl rfl) fun o idle => ?_
        have other : o ≠ id := fun same => idle (head.trans (congrArg some same.symm))
        refine ⟨fun _ => .refl, fun ho => ?_, fun e he => .inl he⟩
        rw [ready] at ho
        exact (List.mem_cons.1 ho).resolve_left other

/-- At the start there is no task, and one thread with nothing but code. -/
theorem start_station (tag : UInt64) (state : S.State) (recording : Bool) (body : S.Code Outcome)
    (i : Nat) : let w := (World.start tag state recording).addMain body
    w.Upright ∧ (⟨none, []⟩ : Station S).In i w := by
  intro w
  have levels (j : Nat) : w.levelsAt j = [.body (.going body)] ∨ w.levelsAt j = [] := by
    refine (levelsAt_addThread (World.start tag state recording) _ j).symm ▸ ?_
    split
    · exact .inl rfl
    · exact .inr (levelsAt_of_size (Nat.zero_le j))
  refine ⟨fun j => ?_, rfl, .inl ⟨rfl, fun j => ?_⟩, fun _ => rfl⟩
  · rcases levels j with main | none
    · rw [main]
      exact .singleton _
    · rw [none]
      exact .nil
  · rw [postsAt]
    rcases levels j with main | none
    · rw [main]
      rfl
    · rw [none]
      rfl

/-! ### Settlement -/

/-- What the task of a number settles with in the next move, if it does. -/
def settlement? (host : Host S) (w : World S) (i : Nat) : Option Outcome :=
  match w.ready with
  | id :: _ =>
    match w.levelsAt id.index with
    | .task task none :: _ =>
      if task.index = i then
        (w.taskAt i).bind fun t => (t.step host.registry).1.outcome?
      else none
    | _ => none
  | [] => none

/-- A task that settles has been driven, and has no post any more. -/
theorem posts_of_settlement {outcome : Outcome} (up : w.Upright) (h : s.In i w)
    (settles : w.settlement? host i = some outcome) :
    (∃ t, s = ⟨some t, [.driven none]⟩ ∧ (t.step host.registry).1.outcome? = some outcome) ∧
      ∀ j, (w.step host).postsAt i j = [] := by
  unfold settlement? at settles
  split at settles
  · rename_i id ids ready
    split at settles
    · rename_i task below holds
      split at settles
      · rename_i own
        have head : w.ready.head? = some id := by rw [ready]; rfl
        obtain ⟨t, alive, settled⟩ := Option.bind_eq_some_iff.1 settles
        obtain ⟨there, -⟩ := h.of_top holds (Level.post?_task own none)
        obtain ⟨posts, others⟩ := h.post_of there
        rcases steps : t.step host.registry with ⟨t', request⟩
        rw [steps] at settled
        obtain ⟨ctx, moves⟩ := stepTask_own id below own alive steps
        obtain ⟨shifts, -⟩ := shifts_settled h head holds up own rfl alive t' outcome
        rw [settled] at moves
        have moved : w.step host = _ := (step_of_levelsAt head holds).trans moves
        refine ⟨⟨t, ?_, by rw [steps]; exact settled⟩, fun j => ?_⟩
        · obtain ⟨t₀, ps⟩ := s
          obtain rfl : w.taskAt i = t₀ := h.task
          obtain rfl : ps = _ := posts
          rw [alive]
        · rw [moved]
          by_cases same : j = id.index
          · exact same ▸ List.forall₂_nil_left_iff.1 shifts.own
          · exact List.forall₂_nil_left_iff.1 (others j same ▸ shifts.others same)
      · cases settles
    · cases settles
  · cases settles

end World

end EffectEngine
