import EffectEngine.Proofs.Batch.Coalescing
import EffectEngine.Proofs.World.Tasks

/-!
# The timers of batched calls

A `Rota` is a session together with the timers that its calls had forked and the requests to cancel
that they made when they armed them. Its `Step`s keep apart what a call does in three sections:
it joins a batch, its timer is forked, and it arms that timer; a timer may fire at any moment from
its fork on. `Rota.Ordered` says what installed, fired and cancelled timers have to do with the
pending batches and those that were taken.
-/

namespace EffectEngine

/-- The task that a query asks to cancel, if it does. -/
def Query.cancels {σ N : Type} : Query σ N → List TaskId
  | requestCancel id => [id]
  | _ => []

namespace World

variable {S : Sig} {α : Type}

/-- The tasks that code asks to cancel until it ends or has an effect. -/
def cancelRequests (w : World S) : S.Code α → List TaskId
  | .ask q k =>
    q.cancels ++ cancelRequests (w.answer q).2 (k (w.answer q).1)
  | _ => []

variable {w w' : World S}

theorem cancelRequests_bind {β : Type} (code : S.Code α) (f : α → S.Code β) {a : α}
    (h : w.runAsks code = (.done a, w')) :
    w.cancelRequests (code.bind f) = w.cancelRequests code ++ w'.cancelRequests (f a) := by
  induction code generalizing w with
  | done a' =>
    obtain ⟨rfl, rfl⟩ : a' = a ∧ w = w' := by simpa [runAsks] using h
    rfl
  | panic m => simp [runAsks] at h
  | ask q k ih =>
    have rest := ih (w.answer q).1 (w := (w.answer q).2) h
    rw [Code.bind, cancelRequests, rest, cancelRequests, List.append_assoc]
  | perform e => simp [runAsks] at h

theorem cancelRequests_bind_perform {β : Type} (code : S.Code α) (f : α → S.Code β)
    {e : Effect S.Ctx S.Gen S.Fn S.Seed} {k : Outcome → S.Code α}
    (h : w.runAsks code = (.perform e k, w')) :
    w.cancelRequests (code.bind f) = w.cancelRequests code := by
  induction code generalizing w with
  | done a' => simp [runAsks] at h
  | panic m => rfl
  | ask q k ih =>
    have rest := ih (w.answer q).1 (w := (w.answer q).2) h
    rw [Code.bind, cancelRequests, rest, cancelRequests]
  | perform e => rfl

/-- What becomes of the tasks when those with the given ids are asked to cancel. -/
def Asked (w w' : World S) (ids : List TaskId) : Prop :=
  ∀ id canceled, w.canceled? id = some canceled → ∃ canceled', w'.canceled? id = some canceled' ∧
    (canceled' = true → canceled = true ∨ id.index ∈ ids.map (·.index)) ∧
    (canceled = true → canceled' = true)

theorem asked_of_tasks (h : w'.tasks = w.tasks) : Asked w w' [] := by
  intro id canceled known
  refine ⟨canceled, ?_, .inl, fun h => h⟩
  rw [← known, canceled?, canceled?, task?, task?, h]

theorem asked_requestCancel (timer : TaskId) : Asked w (w.requestCancel timer).2 [timer] := by
  intro id canceled known
  unfold requestCancel
  cases task : w.task? timer with
  | none => exact ⟨canceled, known, .inl, fun h => h⟩
  | some t =>
    by_cases same : timer.index = id.index
    · obtain ⟨t', found, rfl⟩ := Option.map_eq_some_iff.1 known
      obtain ⟨⟨t', ctx⟩, entry, rfl⟩ := Option.map_eq_some_iff.1 found
      refine ⟨t'.requestCancel.2.canceled, ?_, fun _ => .inr (by simp [same]), fun h => ?_⟩
      · simp only [canceled?, task?, modifyTask, Array.getElem?_modify, if_pos same, entry,
          Option.map_some]
      · have h : t'.canceled = true := h
        simp [Task.requestCancel, h]
    · refine ⟨canceled, ?_, .inl, fun h => h⟩
      rw [← known]
      simp only [canceled?, task?, modifyTask, Array.getElem?_modify, if_neg same]

theorem canceled?_spawn {id : TaskId} {canceled : Bool} (ctx : S.Ctx) (root : S.Yielded)
    (known : w.canceled? id = some canceled) :
    (w.spawn ctx root).2.canceled? id = some canceled ∧
      id.index ≠ (w.spawn ctx root).1.index := by
  obtain ⟨t, found, rfl⟩ := Option.map_eq_some_iff.1 known
  obtain ⟨e, entry, rfl⟩ := Option.map_eq_some_iff.1 found
  have bound := (Array.getElem?_eq_some_iff.1 entry).1
  refine ⟨?_, Nat.ne_of_lt bound⟩
  simp only [spawn, addTask, addThread, canceled?, task?, Array.getElem?_push,
    if_neg (Nat.ne_of_lt bound), entry, Option.map_some]

theorem canceled?_spawned (ctx : S.Ctx) (root : S.Yielded) :
    (w.spawn ctx root).2.canceled? (w.spawn ctx root).1 = some false := by
  simp [spawn, addTask, addThread, canceled?, task?, Task.fresh]

end World

namespace Batch

/-- The task that was forked as the timer of a call. -/
structure Timer (T : ClientSig) where
  call : Joined T.Target T.Grouping
  task : TaskId
  root : T.sig.Operation
  isArmed : Bool
  /-- What it took, once it has fired. -/
  took : Option (Option (PendingBatch T.Fn))
  /-- Whether it had fired before its call armed it. -/
  isEarly : Bool

def Role.timer? {φ κ : Type} : Role φ κ → Option (Option (PendingBatch (GeneratorFn φ κ)))
  | call _ => none
  | timer batch => some batch

def Activity.isBusy {S : Sig} : Activity S → Bool
  | busy _ => true
  | _ => false

/-- What the timers of a session took, each when it fired. -/
def Session.fired {T : ClientSig} (s : Session T) : List (Option (PendingBatch T.Fn)) :=
  s.members.filterMap (·.role.timer?)

namespace Session

variable {T : ClientSig} {c : Client T} {ctx : ContextId} {s s' : Session T} {w : World T.sig}
  {before after : List (Member T)} {m m' : Member T} {j : Joined T.Target T.Grouping}

/-- The operation that flushes the batch of a call after a while. -/
def Flushes (j : Joined T.Target T.Grouping) (root : T.sig.Operation) : Prop :=
  ∃ ms id, root = Delay.delay ms (.custom executeKind (.sealed id (.batch j.batchKey)))

/-- What a step leaves of the table in which no timer fires or is armed: a pending batch keeps its
timer, and a new one has none. -/
structure Untimed (t t' : BatchTable T.Fn) : Prop where
  generation : t.generation ≤ t'.generation
  pending : ∀ e' ∈ t'.pending, (e'.2.timer = none ∧ t.generation < e'.2.generation) ∨
    ∃ b, (e'.1, b) ∈ t.pending ∧ b.generation = e'.2.generation ∧ b.timer = e'.2.timer

theorem Untimed.refl (t : BatchTable T.Fn) : Untimed t t :=
  ⟨Nat.le_refl _, fun e he => .inr ⟨e.2, he, rfl, rfl⟩⟩

theorem Untimed.of_eq {t t' : BatchTable T.Fn} (h : t' = t) : Untimed t t' := h ▸ .refl t

theorem untimed_enqueue {t : BatchTable T.Fn} (h : t.Apart) (key : BatchKey) (func : T.Fn)
    (args : List Value) (promise : PromiseId) :
    Untimed t (t.enqueue key func args promise).2 := by
  rcases BatchTable.enqueue_cases h key func args promise with
    ⟨before, k, b, after, split, -, joins⟩ | ⟨-, opens⟩
  · rw [joins]
    refine ⟨Nat.le_refl _, fun e he => .inr ?_⟩
    simp only [List.mem_append, List.mem_cons] at he
    rcases he with he | rfl | he
    · exact ⟨e.2, by simp [split, he], rfl, rfl⟩
    · exact ⟨b, by simp [split], rfl, rfl⟩
    · exact ⟨e.2, by simp [split, he], rfl, rfl⟩
  · rw [opens]
    refine ⟨Nat.le_succ _, fun e he => ?_⟩
    rcases List.mem_append.1 he with he | he
    · exact .inr ⟨e.2, he, rfl, rfl⟩
    · rw [List.mem_singleton.1 he]
      exact .inl ⟨rfl, Nat.lt_succ_self _⟩

/-- The fork that a call yields is that of a timer for its batch. -/
def Forks (m : Member T) : Prop :=
  ∀ j, m.role = .call j → ∀ root, .operation (.fork root) ∈ m.yields → Flushes j root

theorem getElem?_update (m' : Member T) (members : s.members = before ++ m :: after) :
    s.members[before.length]? = some m ∧
    (before ++ m' :: after)[before.length]? = some m' := by
  simp [members]

theorem forks_timer {batch : Option (PendingBatch T.Fn)} (role : m.role = .timer batch) :
    Forks m := fun j call => by rw [role] at call; cases call

namespace Sound

variable {code : T.sig.Code (T.sig.Signal × T.sig.Gen)} {g : T.sig.Gen} {input : Resume}

/-- A call that is resumed without arming its timer leaves the table alone, and forks nothing but
that timer. -/
theorem resumed_call (h : Sound ctx s) (members : s.members = before ++ m :: after)
    (role : m.role = .call j) (resting : m.activity = .resting g)
    (ran : s.world.runAsks (c.resumeGen g input) = (code, w))
    (idle : ({ m with inputs := m.inputs ++ [input] }.settle code).activity.isBusy = false) :
    tableOf ctx w = tableOf ctx s.world ∧
      (Forks m → Forks ({ m with inputs := m.inputs ++ [input] }.settle code)) := by
  have stage : CallAt ctx j m.activity := by
    have stands := h.stands members
    rwa [Abreast, role] at stands
  obtain ⟨_, _, inputs, yields⟩ := m
  subst role resting
  cases stage with
  | joined timeout =>
    cases input with
    | next v =>
      obtain ⟨rfl, rfl⟩ := Prod.mk.inj ran
      refine ⟨rfl, fun forks j' role root forked => ?_⟩
      obtain rfl := Role.call.inj role
      rcases List.mem_append.1 forked with old | new
      · exact forks j rfl root old
      · exact ⟨timeout, s.world.state.nextAllocation.1, by simpa using List.mem_singleton.1 new⟩
    | throw e | forcedReturn =>
      obtain ⟨rfl, rfl⟩ := Prod.mk.inj ran
      exact ⟨rfl, id⟩
  | arming timeout =>
    rcases runAsks_callGen_suspended ⟨ctx, j.batchKey, j.seat, timeout⟩ h.context input with
      ⟨outcome, ended⟩ | ⟨timer, w', k, waits, -⟩
    · obtain ⟨rfl, rfl⟩ := Prod.mk.inj (ran.symm.trans ended)
      exact ⟨rfl, id⟩
    · obtain ⟨rfl, rfl⟩ := Prod.mk.inj (ran.symm.trans waits)
      cases idle
  | finished =>
    obtain ⟨outcome, ended⟩ := runAsks_finished (w := s.world) (c := c) "batch" input
    obtain ⟨rfl, rfl⟩ := Prod.mk.inj (ran.symm.trans ended)
    exact ⟨rfl, id⟩

/-- A timer that is resumed leaves the table alone. -/
theorem resumed_timer (h : Sound ctx s) (members : s.members = before ++ m :: after)
    {batch : Option (PendingBatch T.Fn)} (role : m.role = .timer batch)
    (resting : m.activity = .resting g)
    (ran : s.world.runAsks (c.resumeGen g input) = (code, w)) :
    tableOf ctx w = tableOf ctx s.world := by
  have stands := h.stands members
  obtain ⟨_, _, inputs, yields⟩ := m
  subst role resting
  have spent (isOver : Over (.resting g : Activity T.sig)) :
      tableOf ctx w = tableOf ctx s.world := by
    rcases isOver with finished | gone
    · obtain rfl := Activity.resting.inj finished
      obtain ⟨outcome, ended⟩ := runAsks_finished (w := s.world) (c := c) "execute_batch" input
      rw [← (Prod.mk.inj (ran.symm.trans ended)).2]
    · cases gone
  cases batch with
  | none =>
    rcases stands with created | isOver
    · obtain rfl := Activity.resting.inj created
      obtain ⟨outcome, ended⟩ := runAsks_timerGen_none (w := s.world) (c := c) input
      rw [← (Prod.mk.inj (ran.symm.trans ended)).2]
    · exact spent isOver
  | some b =>
    obtain ⟨held, holds, stage⟩ := stands
    cases stage with
    | taken =>
      by_cases started : ∃ v, input = .next v
      · obtain ⟨v, rfl⟩ := started
        rw [← (Prod.mk.inj (ran.symm.trans (runAsks_timerGen_next b v))).2]
      · obtain ⟨outcome, ended⟩ := runAsks_timerGen_stopped (w := s.world) (c := c) b
          fun v next => started ⟨v, next⟩
        rw [(Prod.mk.inj (ran.symm.trans ended)).2]
        exact (leaves_fulfil holds _).table
    | called v =>
      rw [(Prod.mk.inj (ran.symm.trans (runAsks_timerGen_suspended b.promise input))).2]
      exact (leaves_fulfil holds _).table
    | ended first second later isOver => exact spent isOver
    | stopped _ isOver => exact spent isOver

/-- Dropping a generator leaves the table alone. -/
theorem table_drop (h : Sound ctx s) (members : s.members = before ++ m :: after)
    (resting : m.activity = .resting g) :
    tableOf ctx (s.world.runSync (c.releaseGen g)).2 = tableOf ctx s.world := by
  have stands := h.stands members
  obtain ⟨role, _, inputs, yields⟩ := m
  subst resting
  have spent (isOver : Over (.resting g : Activity T.sig)) :
      tableOf ctx (s.world.runSync (c.releaseGen g)).2 = tableOf ctx s.world := by
    rcases isOver with finished | gone
    · obtain rfl := Activity.resting.inj finished
      rfl
    · cases gone
  rcases role with j | _ | b
  · cases stands <;> rfl
  · rcases stands with created | isOver
    · obtain rfl := Activity.resting.inj created
      rfl
    · exact spent isOver
  · obtain ⟨held, holds, stage⟩ := stands
    cases stage with
    | taken | called => exact (leaves_fulfil holds _).table
    | ended _ _ _ isOver | stopped _ isOver => exact spent isOver

/-- A call that has waited for its batch ends. -/
theorem answered_eq (h : Sound ctx s) (members : s.members = before ++ m :: after) {wait : Wait}
    {k : Outcome → T.sig.Code (T.sig.Signal × T.sig.Gen)} {outcome : Outcome}
    (waiting : m.activity = .busy (.perform (.wait wait) k))
    (ran : s.world.runAsks (k outcome) = (code, w)) :
    w = s.world ∧ (m.settle code).yields = m.yields := by
  have stands := h.stands members
  obtain ⟨role, _, inputs, yields⟩ := m
  subst waiting
  rcases role with j | _ | b
  · cases stands with
    | waiting _ answers =>
      rw [answers outcome] at ran
      obtain ⟨rfl, rfl⟩ := Prod.mk.inj ran
      exact ⟨rfl, rfl⟩
  · rcases stands with created | finished | gone <;> contradiction
  · obtain ⟨held, -, stage⟩ := stands
    cases stage with
    | ended _ _ _ isOver | stopped _ isOver => rcases isOver with finished | gone <;> contradiction

end Sound

/-- What a step does in which no timer fires or is armed. -/
structure Untouched (ctx : ContextId) (s s' : Session T) : Prop where
  table : Untimed (tableOf ctx s.world) (tableOf ctx s'.world)
  forks : (∀ m ∈ s.members, Forks m) → ∀ m ∈ s'.members, Forks m
  roles : s.members.map (·.role) <+: s'.members.map (·.role)

theorem Untouched.joined (h : Untouched ctx s s') : s.joined ⊆ s'.joined := by
  have joined (s : Session T) : s.joined = (s.members.map (·.role)).filterMap Role.joined? := by
    rw [Session.joined, List.filterMap_map]
    rfl
  rw [joined, joined]
  exact h.roles.sublist.filterMap _ |>.subset

theorem Untouched.role_eq (h : Untouched ctx s s') {i : Nat} (old : s.members[i]? = some m)
    (new : s'.members[i]? = some m') : m'.role = m.role := by
  obtain ⟨bound, rfl⟩ := List.getElem?_eq_some_iff.1 old
  have same := List.prefix_iff_getElem?.1 h.roles i (by simpa using bound)
  simpa [new] using same

theorem forks_update (members : s.members = before ++ m :: after)
    (all : ∀ m ∈ s.members, Forks m) (h : Forks m → Forks m') :
    ∀ m₁ ∈ before ++ m' :: after, Forks m₁ := by
  rw [members] at all
  intro m₁ hm
  rcases mem_place.1 hm with rfl | hm
  · exact h (all m (by simp))
  · exact all m₁ (mem_of_rest hm)

theorem forks_enlist {role : Role T.Target T.Grouping} {opening : Opening T.sig.Gen T.Fn}
    (all : ∀ m ∈ s.members, Forks m) : ∀ m ∈ (s.enlist w role opening).members, Forks m := by
  intro m hm
  rcases List.mem_append.1 hm with hm | hm
  · exact all m hm
  · rw [List.mem_singleton.1 hm]
    intro j _ root forked
    cases forked

theorem fired_enlist (batch : Option (PendingBatch T.Fn)) (opening : Opening T.sig.Gen T.Fn) :
    (s.enlist w (.timer batch) opening).fired = s.fired ++ [batch] := by
  simp [fired, enlist, Role.timer?]

theorem fired_update (members : s.members = before ++ m :: after) (role : m'.role = m.role) :
    (⟨w, before ++ m' :: after⟩ : Session T).fired = s.fired := by
  simp [fired, members, role, List.filterMap_cons]

theorem roles_update (members : s.members = before ++ m :: after) (role : m'.role = m.role) :
    s.members.map (·.role) <+: (before ++ m' :: after).map (·.role) := by
  simp [members, role]

theorem Sound.untouched (h : Sound ctx s) (step : Step c ctx s s') (unfired : s'.fired = s.fired)
    (unarmed : ∀ (i : Nat) m', s'.members[i]? = some m' → m'.activity.isBusy = true →
      ∃ m, s.members[i]? = some m ∧ m.activity.isBusy = true) : Untouched ctx s s' := by
  cases step with
  | call func underlying grouping args key timeout ticket w w' batched keyed spares truthy
      handled =>
    have spared : Sound ctx ⟨w, s.members⟩ := h.elsewhere spares
    obtain ⟨w'', handled', leaves⟩ :=
      runSync_handleCall batched keyed truthy spared.context timeout
    obtain rfl : w'' = w' := (Prod.mk.inj (handled'.symm.trans handled)).2
    refine ⟨?_, forks_enlist, ?_⟩
    · simp only [enlist, leaves.table, ← spares.table]
      exact untimed_enqueue spared.book.apart _ _ _ _
    · simp [enlist]
  | fire op batch w handled =>
    rw [fired_enlist] at unfired
    simp at unfired
  | resume before after m g input code w members resting ran =>
    have role := Member.role_settle { m with inputs := m.inputs ++ [input] } code
    have idle : ({ m with inputs := m.inputs ++ [input] }.settle code).activity.isBusy = false := by
      by_contra busy
      obtain ⟨old, new⟩ :=
        getElem?_update ({ m with inputs := m.inputs ++ [input] }.settle code) members
      obtain ⟨m₁, same, waited⟩ := unarmed _ _ new (by simpa using busy)
      obtain rfl : m₁ = m := Option.some.inj (same.symm.trans old)
      rw [resting] at waited
      cases waited
    have roles : (∃ j, m.role = .call j) ∨ ∃ batch, m.role = .timer batch := by
      cases m.role <;> simp
    rcases roles with ⟨j, role₀⟩ | ⟨batch, role₀⟩
    · have resumed := h.resumed_call members role₀ resting ran idle
      refine ⟨.of_eq resumed.1, fun all => forks_update members all resumed.2, ?_⟩
      · exact roles_update members role
    · refine ⟨.of_eq (h.resumed_timer members role₀ resting ran), fun all => ?_, ?_⟩
      · exact forks_update members all fun _ => forks_timer (role.trans role₀)
      · exact roles_update members role
  | answer before after m wait k outcome code w members waiting isOver ran =>
    obtain ⟨rfl, yields⟩ := h.answered_eq members waiting ran
    have role := m.role_settle code
    refine ⟨.refl _, fun all => forks_update members all fun forks => ?_, ?_⟩
    · rwa [Forks, role, yields]
    · exact roles_update members role
  | drop before after m g members resting =>
    have role : ({ m with activity := .gone } : Member T).role = m.role := rfl
    refine ⟨.of_eq (h.table_drop members resting), fun all => forks_update members all id, ?_⟩
    exact roles_update members role
  | dropWaiting before after m code members waiting =>
    have role : ({ m with activity := .gone } : Member T).role = m.role := rfl
    refine ⟨.refl _, fun all => forks_update members all id, ?_⟩
    exact roles_update members role
  | elsewhere w spares => exact ⟨.of_eq spares.table, id, List.prefix_refl _⟩

end Session

structure Rota (T : ClientSig) where
  session : Session T
  timers : List (Timer T)
  /-- The tasks that calls asked to cancel when they armed their timers. -/
  requests : List TaskId

section Sections

variable {T : ClientSig} {c : Client T} {ctx : ContextId} {w w' : World T.sig}

/-- What a call does with the timer that is replaced or rejected once it has armed its own. -/
def cancelReplaced (replaced : Option TaskId) : T.sig.Code Unit :=
  match replaced with
  | some timer => (Code.requestCancel timer).bind fun _ => .done ()
  | none => .done ()

/-- Arming asks the timer that is replaced or rejected to cancel. -/
theorem runAsks_arm_requests (ticket : BatchTicket) (timer : TaskId) :
    let code : T.sig.Code Unit := arm (χ := T.Key) (φ := T.Target) (κ := T.Grouping) ticket timer
    let replaced := ((tableOf ticket.ctx w).arm ticket.key ticket.seat.generation timer).1
    w.cancelRequests code = replaced.toList ∧ w.Asked (w.runAsks code).2 replaced.toList := by
  intro code replaced
  let armed := (tableOf ticket.ctx w).arm ticket.key ticket.seat.generation timer
  let w₁ : World T.sig :=
    { w with state := ticket.ctx.setSlots (setTable (ticket.ctx.slots w.state) armed.2) w.state }
  let locked : T.sig.Code (Option TaskId) := withTable ticket.ctx fun table =>
    table.arm ticket.key ticket.seat.generation timer
  have ran : w.runAsks locked = (.done replaced, w₁) := rfl
  have runs : w.runAsks code = w₁.runAsks (cancelReplaced replaced) :=
    World.runAsks_bind locked cancelReplaced ran
  have asks : w.cancelRequests code = w₁.cancelRequests (cancelReplaced replaced) :=
    World.cancelRequests_bind locked cancelReplaced ran
  rw [runs, asks]
  cases replaced with
  | none => exact ⟨rfl, World.asked_of_tasks rfl⟩
  | some old => exact ⟨rfl, World.asked_requestCancel (w := w₁) old⟩

/-- A call that gets its timer arms it, asks the one that it replaces or rejects to cancel, and
waits. -/
theorem runAsks_callGen_task (ticket : BatchTicket)
    (h : ticket.ctx.index < w.state.contexts.size) (timer : TaskId) :
    let code := c.resumeGen (callGen (.suspended (.batch ticket))) (.next (.task timer))
    let armed := (tableOf ticket.ctx w).arm ticket.key ticket.seat.generation timer
    ∃ k w', w.runAsks code = (.perform (.wait (.promise ticket.seat.promise)) k, w') ∧
      (∀ outcome, k outcome = .done (finished (selectFrom ticket.seat.index outcome) "batch")) ∧
      Leaves ticket.ctx w w' armed.2 w.promises ∧
      w.cancelRequests code = armed.1.toList ∧ w.Asked w' armed.1.toList := by
  intro code armed
  obtain ⟨requests, asked⟩ := runAsks_arm_requests (w := w) ticket timer
  obtain ⟨w', ran, leaves⟩ := runAsks_arm ticket h timer
  rw [ran] at asked
  let await (_ : Unit) : T.sig.Code (Pause T.sig.Yielded Midway) :=
    .perform (.wait (.promise ticket.seat.promise)) fun results =>
      .done (.finish (selectFrom ticket.seat.index results))
  let settle (pause : Pause T.sig.Yielded Midway) :
      T.sig.Code (T.sig.Signal × Coroutine (Opening T.sig.Gen T.Fn) Midway) :=
    .done (Coroutine.settle pause)
  have armed := World.runAsks_bind _ await ran
  have settled := World.runAsks_bind_perform _ settle armed
  refine ⟨_, w', World.runAsks_bind_perform _ _ settled, fun _ => rfl, leaves, ?_, asked⟩
  refine (World.cancelRequests_bind_perform _ _ settled).trans ?_
  refine (World.cancelRequests_bind_perform _ settle armed).trans ?_
  refine (World.cancelRequests_bind _ await ran).trans ?_
  rw [requests]
  exact List.append_nil _

/-- A timer that performs the flush of a batch takes what is pending under its key. -/
theorem runSync_flush (h : ctx.index < w.state.contexts.size) (kind : String) (id : Nat)
    (key : BatchKey) :
    ∃ w', w.runSync (c.handleMw .executeBatch (.custom kind (.sealed id (.batch key))) ctx) =
        (.ok (.ok (.ofOpening (.executeBatch ((tableOf ctx w).take key).1))), w') ∧
      Leaves ctx w w' ((tableOf ctx w).take key).2 w.promises ∧ w'.tasks = w.tasks := by
  obtain ⟨w', took, leaves⟩ := runSync_takeBatch h key
  refine ⟨w', World.runSync_bind _ _ took, leaves, ?_⟩
  rw [← (Prod.mk.inj took).2]

end Sections

namespace Rota

variable {T : ClientSig}

abbrev world (r : Rota T) : World T.sig := r.session.world

/-- The timer that took a batch has been cancelled. -/
def Interrupted (r : Rota T) (b : PendingBatch T.Fn) : Prop :=
  ∃ a ∈ r.timers, a.took = some (some b) ∧ r.world.canceled? a.task = some true

/-- A step of the session in which no timer fires and no call begins to wait, as it does when it has
armed its timer. Nobody else cancels a timer, and one that has not been cancelled is never forced to
return. -/
structure Aside (r : Rota T) (s : Session T) : Prop where
  unfired : s.fired = r.session.fired
  unarmed : ∀ (i : Nat) m', s.members[i]? = some m' → m'.activity.isBusy = true →
    ∃ m, r.session.members[i]? = some m ∧ m.activity.isBusy = true
  kept : ∀ a ∈ r.timers, s.world.canceled? a.task = r.world.canceled? a.task
  unforced : ∀ m ∈ s.members, ∀ b, m.role = .timer (some b) → .forcedReturn ∈ m.inputs →
    r.Interrupted b

inductive Step (c : Client T) (ctx : ContextId) (r : Rota T) : Rota T → Prop
  | aside (s : Session T) (step : Session.Step c ctx r.session s) (aside : r.Aside s) :
      Step c ctx r { r with session := s }
  /-- The fork that a call yielded for its timer is carried out. -/
  | fork (m : Member T) (j : Joined T.Target T.Grouping) (root : T.sig.Operation)
      (member : m ∈ r.session.members) (role : m.role = .call j)
      (yielded : m.yields.getLast? = some (.operation (.fork root)))
      (unforked : ∀ a ∈ r.timers, a.call ≠ j) :
      Step c ctx r ⟨⟨(r.world.spawn ctx (.operation root)).2, r.session.members⟩,
        r.timers ++ [⟨j, (r.world.spawn ctx (.operation root)).1, root, false, none, false⟩],
        r.requests⟩
  /-- A call gets its timer and arms it. -/
  | arm (older newer : List (Timer T)) (a : Timer T) (before after : List (Member T))
      (m : Member T) (ticket : BatchTicket) (code : T.sig.Code (T.sig.Signal × T.sig.Gen))
      (w : World T.sig) (timers : r.timers = older ++ a :: newer) (unarmed : a.isArmed = false)
      (members : r.session.members = before ++ m :: after) (role : m.role = .call a.call)
      (resting : m.activity = .resting (callGen (.suspended (.batch ticket))))
      (ran : r.world.runAsks (c.resumeGen (callGen (.suspended (.batch ticket)))
        (.next (.task a.task))) = (code, w)) :
      Step c ctx r
        ⟨⟨w, before ++
          { m with inputs := m.inputs ++ [Resume.next (.task a.task)] }.settle code :: after⟩,
        older ++ { a with isArmed := true, isEarly := a.took.isSome } :: newer,
        r.requests ++ r.world.cancelRequests
          (c.resumeGen (callGen (.suspended (.batch ticket))) (.next (.task a.task)))⟩
  /-- A timer performs the operation that it delayed, unless it was asked to cancel before. -/
  | fire (older newer : List (Timer T)) (a : Timer T) (ms : Nat) (op : T.sig.Operation)
      (batch : Option (PendingBatch T.Fn)) (w : World T.sig)
      (timers : r.timers = older ++ a :: newer) (unfired : a.took = none)
      (unasked : a.task ∉ r.requests)
      (delays : a.root = Delay.delay ms op)
      (handled : r.world.runSync (c.handleMw .executeBatch op ctx) =
        (.ok (.ok (.ofOpening (.executeBatch batch))), w)) :
      Step c ctx r ⟨r.session.enlist w (.timer batch) (.executeBatch batch),
        older ++ { a with took := some batch } :: newer, r.requests⟩

end Rota

end Batch

end EffectEngine
