import EffectEngine.Proofs.World.Engaged
import EffectEngine.Proofs.World.Posts
import Mathlib.Data.List.Nodup

/-!
# Threads in line

`World.Lined` says where the threads of a world are. A thread that has something left to do is in
line or waits for an event, at one place of one of the two lists, and it waits just if the level on
top of it does. The machine keeps this (`World.step_lined`): no thread is ever forgotten, and
whichever comes to the head of the line can make a move.
-/

namespace EffectEngine

variable {S : Sig}

namespace Flow

variable {α : Type}

def waits : Flow S α → Bool
  | going _ => false
  | waiting _ => true

@[simp] theorem waits_going (c : S.Code α) : (going c).waits = false := rfl

@[simp] theorem waits_waiting (k : Outcome → S.Code α) : (waiting k).waits = true := rfl

end Flow

/-- Whether a level waits for the outcome of an effect. -/
def Level.waits : Level S → Bool
  | .body flow => flow.waits
  | .task _ flow => flow.any (·.waits)
  | .root _ _ _ flow => flow.any (·.waits)

theorem Level.waits_deliver (outcome : Outcome) (l : Level S) :
    (l.deliver outcome).waits = false := by
  rcases l with (c | k) | ⟨id, _ | c | k⟩ | ⟨id, ctx, life, _ | c | k⟩ <;> rfl

/-- Whether a stack of levels waits. -/
def dormant (levels : List (Level S)) : Bool := levels.head?.any (·.waits)

@[simp] theorem dormant_cons (l : Level S) (below : List (Level S)) :
    dormant (l :: below) = l.waits := rfl

theorem dormant_deliver (outcome : Outcome) (levels : List (Level S)) :
    dormant (levels.modifyHead (Level.deliver outcome)) = false := by
  cases levels with
  | nil => rfl
  | cons l below => exact l.waits_deliver outcome

namespace World

variable {α : Type} {w w' : World S} {host : Host S} {id : ThreadId} {l : Level S}
  {levels below : List (Level S)} {task : TaskId} {ctx : S.Ctx}

/-- The threads that can go on, and after them those that wait. -/
def line (w : World S) : List ThreadId := w.ready ++ w.waiting.map (·.1)

structure Lined (w : World S) : Prop where
  nodup : w.line.Nodup
  known : ∀ o ∈ w.line, o.index < w.threads.size
  awake : ∀ o ∈ w.ready, dormant (w.levelsAt o.index) = false
  asleep : ∀ e ∈ w.waiting, dormant (w.levelsAt e.1.index) = true
  all : ∀ j, w.levelsAt j ≠ [] → ⟨j⟩ ∈ w.line

/-- A thread runs, and all are in line. -/
structure Runs (id : ThreadId) (w : World S) : Prop extends Lined w where
  head : w.ready.head? = some id

/-! ### Waking up -/

theorem levelsAt_wake (w : World S) (event : Pending) (outcome : Outcome) (j : Nat) :
    (w.wake event outcome).levelsAt j =
      if (⟨j⟩, event) ∈ w.waiting then (w.levelsAt j).modifyHead (Level.deliver outcome)
      else w.levelsAt j := by
  obtain ⟨-, -, -, levels⟩ := wake_spec w event outcome
  have same : (w.wake event outcome).levelsAt j =
      ((w.wake event outcome).levels? ⟨j⟩).getD [] := rfl
  rw [same, levels]
  split
  · rw [levelsAt, levels?]
    cases w.threads[j]? <;> rfl
  · rfl

namespace Lined

theorem congr (h : w.Lined) (threads : w'.threads = w.threads) (ready : w'.ready = w.ready)
    (waiting : w'.waiting = w.waiting) : w'.Lined := by
  have line : w'.line = w.line := by rw [World.line, ready, waiting, World.line]
  have levels (j : Nat) : w'.levelsAt j = w.levelsAt j := by rw [levelsAt, levelsAt, threads]
  obtain ⟨nodup, known, awake, asleep, all⟩ := h
  exact ⟨line ▸ nodup, line ▸ threads ▸ known, fun o ho => levels _ ▸ awake o (ready ▸ ho),
    fun e he => levels _ ▸ asleep e (waiting ▸ he), fun j held => line ▸ all j (levels j ▸ held)⟩

/-- A thread in line does not wait for anything. -/
theorem apart (h : w.Lined) {o : ThreadId} (ready : o ∈ w.ready) {e : Pending} :
    (o, e) ∉ w.waiting := fun waits =>
  (List.nodup_append.1 h.nodup).2.2 o ready o (List.mem_map_of_mem waits) rfl

/-- A thread waits for one event. -/
theorem event_unique (h : w.Lined) {o : ThreadId} {e e' : Pending} (waits : (o, e) ∈ w.waiting)
    (waits' : (o, e') ∈ w.waiting) : e = e' :=
  congrArg Prod.snd (List.inj_on_of_nodup_map (List.nodup_append.1 h.nodup).2.1 waits waits' rfl)

theorem wake (h : w.Lined) (event : Pending) (outcome : Outcome) :
    (w.wake event outcome).Lined := by
  obtain ⟨threads, size, eq, -⟩ := wake_spec w event outcome
  have levels := levelsAt_wake w event outcome
  have ready := congrArg World.ready eq
  have waiting := congrArg World.waiting eq
  have line : (w.wake event outcome).line.Perm w.line := by
    rw [World.line, World.line, ready, waiting, List.append_assoc, ← List.map_append]
    exact (List.perm_append_left_iff _).2 ((List.filter_append_perm _ _).map _)
  refine ⟨line.nodup_iff.2 h.nodup, fun o ho => ?_, fun o ho => ?_, fun e he => ?_,
    fun j held => line.mem_iff.2 (h.all j fun none => held ?_)⟩
  · rw [congrArg World.threads eq, size]
    exact h.known o (line.mem_iff.1 ho)
  · rw [levels]
    split
    · exact dormant_deliver outcome _
    · rename_i rests
      rw [ready] at ho
      refine h.awake o ((List.mem_append.1 ho).resolve_right fun woken => rests ?_)
      simpa using woken
  · rw [waiting] at he
    obtain ⟨waits, later⟩ := List.mem_filter.1 he
    rw [levels, if_neg fun now => ?_]
    · exact h.asleep e waits
    · exact bne_iff_ne.1 later (h.event_unique waits now)
  · rw [levels, none]
    split <;> rfl

end Lined

/-! ### What the running thread does -/

namespace Runs

variable (h : w.Runs id)
include h

theorem mem : id ∈ w.ready := List.mem_of_head? h.head

theorem congr (threads : w'.threads = w.threads) (ready : w'.ready = w.ready)
    (waiting : w'.waiting = w.waiting) : w'.Runs id :=
  ⟨h.toLined.congr threads ready waiting, ready ▸ h.head⟩

theorem modifyTask (task : TaskId) (change : S.Task → S.Task) :
    (w.modifyTask task change).Runs id :=
  h.congr rfl rfl rfl

theorem wake (event : Pending) (outcome : Outcome) : (w.wake event outcome).Runs id := by
  obtain ⟨threads, -, eq, -⟩ := wake_spec w event outcome
  refine ⟨h.toLined.wake event outcome, ?_⟩
  rw [congrArg World.ready eq, List.head?_append, h.head]
  rfl

theorem answer (q : Query S.State S.Note) : (w.answer q).2.Runs id := by
  cases q with
  | requestCancel task =>
    simp only [World.answer, World.requestCancel]
    split
    · exact h.modifyTask task fun t => t.requestCancel.2
    · exact h
  | fulfil promise outcome =>
    simp only [World.answer, World.fulfil]
    split
    · refine Runs.wake ?_ _ _
      exact h.congr rfl rfl rfl
    · exact h
  | _ => exact h.congr rfl rfl rfl

omit h in
theorem runSync (h : w.Runs id) (code : S.Sync α) : (w.runSync code).2.Runs id := by
  induction code generalizing w with
  | done | panic => exact h
  | ask q k ih => exact ih _ (h.answer q)
  | perform e => exact nomatch e

omit h in
theorem release (h : w.Runs id) (host : Host S) (generators : List S.Gen) :
    (w.release host generators).Runs id := by
  induction generators generalizing w with
  | nil => exact h
  | cons g gs ih => exact ih (h.runSync (host.release g))

theorem addThread (awake : dormant levels = false) :
    (w.addThread levels).2.Runs id := by
  have at_ := levelsAt_addThread w levels
  have size : (w.addThread levels).2.threads.size = w.threads.size + 1 := Array.size_push ..
  have line : (w.addThread levels).2.line.Perm (⟨w.threads.size⟩ :: w.line) := by
    simp only [World.line, World.addThread, List.append_assoc, List.singleton_append]
    exact List.perm_middle
  have old {o : ThreadId} (ho : o ∈ w.line) : o.index ≠ w.threads.size :=
    Nat.ne_of_lt (h.known o ho)
  exact
    { nodup := line.nodup_iff.2 (List.nodup_cons.2 ⟨fun new => old new rfl, h.nodup⟩)
      known := fun o ho => by
        rw [size]
        rcases List.mem_cons.1 (line.mem_iff.1 ho) with rfl | ho
        · exact Nat.lt_succ_self _
        · exact Nat.lt_succ_of_lt (h.known o ho)
      awake := fun o ho => by
        rw [at_]
        rcases List.mem_append.1 ho with ho | ho
        · rw [if_neg (old (List.mem_append_left _ ho))]
          exact h.awake o ho
        · rw [List.mem_singleton.1 ho, if_pos rfl]
          exact awake
      asleep := fun e he => by
        rw [at_, if_neg (old (List.mem_append_right _ (List.mem_map_of_mem he)))]
        exact h.asleep e he
      all := fun j held => by
        refine line.mem_iff.2 (List.mem_cons.2 ?_)
        by_cases new : j = w.threads.size
        · exact .inl (congrArg ThreadId.mk new)
        · rw [at_, if_neg new] at held
          exact .inr (h.all j held)
      head := by
        simp only [World.addThread, List.head?_append, h.head]
        rfl }

theorem spawn (ctx : S.Ctx) (root : S.Yielded) : (w.spawn ctx root).2.Runs id :=
  Runs.addThread (w := (w.addTask ctx root).2) (h.congr rfl rfl rfl) rfl

theorem setLevels (awake : l.waits = false) : (w.setLevels id (l :: below)).Runs id := by
  have at_ := levelsAt_setLevels id (l :: below) (h.known id (List.mem_append_left _ h.mem))
  exact
    { nodup := h.nodup
      known := fun o ho => Nat.lt_of_lt_of_eq (h.known o ho) Array.size_modify.symm
      awake := fun o ho => by
        rw [at_]
        split
        · exact awake
        · exact h.awake o ho
      asleep := fun e he => by
        rw [at_, if_neg]
        · exact h.asleep e he
        · intro same
          obtain rfl : id = e.1 := congrArg ThreadId.mk same
          exact h.apart h.mem he
      all := fun j held => by
        by_cases same : id.index = j
        · exact List.mem_append_left _ (same ▸ h.mem)
        · rw [at_, if_neg same] at held
          exact h.all j held
      head := h.head }

/-- The running thread has to wait. -/
theorem block (asleep : l.waits = true) (event : Pending) :
    ((w.setLevels id (l :: below)).block id event).Lined := by
  have at_ (j : Nat) : ((w.setLevels id (l :: below)).block id event).levelsAt j =
      if id.index = j then l :: below else w.levelsAt j :=
    levelsAt_setLevels id (l :: below) (h.known id (List.mem_append_left _ h.mem)) j
  obtain ⟨rest, ready⟩ := List.head?_eq_some_iff.1 h.head
  have line : ((w.setLevels id (l :: below)).block id event).line.Perm w.line := by
    simp only [World.line, World.block, World.setLevels, World.modifyLevels, ready, List.tail_cons,
      List.map_append, List.map_cons, List.map_nil, ← List.append_assoc]
    exact List.perm_append_singleton id _
  have others {o : ThreadId} (ho : o ∈ rest) : id.index ≠ o.index := by
    have nodup := (List.nodup_append.1 h.nodup).1
    rw [ready] at nodup
    intro same
    obtain rfl : id = o := congrArg ThreadId.mk same
    exact (List.nodup_cons.1 nodup).1 ho
  refine ⟨line.nodup_iff.2 h.nodup, fun o ho => ?_, fun o ho => ?_, fun e he => ?_,
    fun j held => ?_⟩
  · exact Nat.lt_of_lt_of_eq (h.known o (line.mem_iff.1 ho)) Array.size_modify.symm
  · have ho : o ∈ rest := by
      simpa [World.block, World.setLevels, World.modifyLevels, ready] using ho
    rw [at_, if_neg (others ho)]
    exact h.awake o (ready ▸ List.mem_cons_of_mem _ ho)
  · rw [at_]
    split
    · exact asleep
    · rename_i other
      rcases List.mem_append.1 he with he | he
      · exact h.asleep e he
      · exact absurd (by rw [List.mem_singleton.1 he]) other
  · refine line.mem_iff.2 ?_
    by_cases same : id.index = j
    · exact List.mem_append_left _ (same ▸ h.mem)
    · rw [at_, if_neg same] at held
      exact h.all j held

theorem endThread (fate : Fate) : (w.endThread id fate).Lined := by
  let ended : World S := { w with
    threads := w.threads.modify id.index fun _ => ⟨[], some fate⟩, ready := w.ready.tail }
  have at_ (j : Nat) : ended.levelsAt j = if id.index = j then [] else w.levelsAt j := by
    simp only [levelsAt, ended, Array.getElem?_modify]
    split
    · cases w.threads[j]? <;> rfl
    · rfl
  obtain ⟨rest, ready⟩ := List.head?_eq_some_iff.1 h.head
  have line : w.line = id :: ended.line := by
    simp only [World.line, ended, ready, List.tail_cons, List.cons_append]
  have nodup := h.nodup
  rw [line] at nodup
  obtain ⟨gone, nodup⟩ := List.nodup_cons.1 nodup
  have others {o : ThreadId} (ho : o ∈ ended.line) : id.index ≠ o.index := by
    intro same
    obtain rfl : id = o := congrArg ThreadId.mk same
    exact gone ho
  have kept : ended.Lined := by
    refine ⟨nodup, fun o ho => ?_, fun o ho => ?_, fun e he => ?_, fun j held => ?_⟩
    · refine Nat.lt_of_lt_of_eq (h.known o ?_) Array.size_modify.symm
      exact line ▸ List.mem_cons_of_mem _ ho
    · rw [at_, if_neg (others (List.mem_append_left _ ho))]
      exact h.awake o (List.mem_of_mem_tail ho)
    · rw [at_, if_neg (others (List.mem_append_right _ (List.mem_map_of_mem he)))]
      exact h.asleep e he
    · rw [at_] at held
      split at held
      · exact absurd rfl held
      · rename_i other
        have there := line ▸ h.all j held
        refine (List.mem_cons.1 there).resolve_left fun same => other ?_
        rw [← same]
  exact kept.wake _ _

/-! ### The machine -/

theorem finishLevel (outcome : Outcome) : (w.finishLevel id below outcome).Lined := by
  unfold World.finishLevel
  split
  · exact h.endThread _
  · exact (h.setLevels rfl).toLined
  · rename_i l rest _
    exact (h.setLevels (l.waits_deliver outcome)).toLined

theorem crash (host : Host S) (levels : List (Level S)) (message : String) :
    (w.crash host id levels message).Lined := by
  have released := h.release host (w.unwound levels)
  unfold World.crash
  dsimp only
  split
  · exact ((released.modifyTask _ _).wake _ _).endThread _
  · split
    · exact released.endThread _
    · exact Runs.endThread (w := World.write _ _) (released.congr rfl rfl rfl) _

section Code

variable (level : Flow S α → Level S) (waits : ∀ f, (level f).waits = f.waits)
include waits

theorem perform (e : Effect S.Ctx S.Gen S.Fn S.Seed) (k : Outcome → S.Code α) :
    (w.perform host id below level e k).Lined := by
  cases e with
  | wait wait =>
    simp only [World.perform]
    split
    · exact (h.setLevels (waits _)).toLined
    · exact h.block (waits _) _
  | spawn ctx root => exact ((h.spawn ctx root).setLevels (waits _)).toLined
  | run ctx root =>
    exact (Runs.setLevels (w := (w.addTask ctx root).2) (h.congr rfl rfl rfl) rfl).toLined
  | go seed =>
    exact ((h.addThread rfl).setLevels (waits _)).toLined

theorem stepCode {finish : World S → α → World S} {code : S.Code α}
    (done : ∀ a, code = .done a → (finish w a).Lined) :
    (w.stepCode host id below level finish code).Lined := by
  cases code with
  | done a => exact done a rfl
  | panic message => exact h.crash host _ message
  | ask q k => exact ((h.answer q).setLevels (waits _)).toLined
  | perform e k => exact h.perform level waits e k

end Code

theorem stepSync {finish : World S → α → World S} (code : S.Sync α)
    (done : ∀ w' a, Runs id w' → (finish w' a).Lined) :
    (w.stepSync host id levels finish code).Lined := by
  have ran := h.runSync code
  unfold World.stepSync
  split
  · rename_i a w' result
    rw [result] at ran
    exact done w' a ran
  · rename_i message w' result
    rw [result] at ran
    exact ran.crash host levels message

theorem grant (levels : List (Level S)) (ctx : S.Ctx) (request : Request S.Gen S.Fn S.Mw) :
    (w.grant host id levels below task ctx request).Lined := by
  cases request with
  | silent => exact h.toLined
  | resume | retire => exact (h.setLevels rfl).toLined
  | filter | handle | invoke =>
    exact h.stepSync _ fun w' _ ran => (ran.modifyTask task _).toLined
  | fork root => exact ((h.spawn ctx (.operation root)).modifyTask task (·.forked _)).toLined
  | report d => exact (h.congr rfl rfl rfl : Runs id (w.report d)).toLined

theorem stepTask : (w.stepTask host id below task).Lined := by
  unfold World.stepTask
  split
  · rename_i t ctx _ _
    have moved := h.modifyTask task fun _ => (t.step host.registry).1
    dsimp only
    split
    · exact (moved.wake _ _).finishLevel _
    · exact moved.grant _ ctx _
  · exact h.finishLevel _

theorem stepRoot (life : Lifecycle S.Listener) :
    (w.stepRoot host id below task ctx life).Lined := by
  unfold World.stepRoot
  split
  · exact (h.setLevels rfl).toLined
  · exact (h.setLevels rfl).toLined
  · exact (h.setLevels rfl).toLined
  · exact h.finishLevel _

theorem rootHookEnded (life : Lifecycle S.Listener) (result : Except Error Unit) :
    (w.rootHookEnded id below task ctx life result).Lined := by
  cases result with
  | ok => exact (h.setLevels rfl).toLined
  | error e =>
    simp only [World.rootHookEnded]
    split
    · exact (Runs.setLevels (w := World.write w _) (h.congr rfl rfl rfl) rfl).toLined
    · exact (h.setLevels rfl).toLined

theorem stepThread (levels : List (Level S)) : (w.stepThread host id levels).Lined := by
  unfold World.stepThread
  split
  · exact h.endThread _
  · exact h.stepCode .body (fun _ => rfl) fun _ _ => h.finishLevel _
  · exact h.stepTask
  · rename_i task _ _
    refine h.stepCode (fun f => .task task (some f)) (fun _ => rfl) fun _ _ => ?_
    exact ((h.modifyTask task _).setLevels rfl).toLined
  · exact h.stepRoot _
  · rename_i task ctx life _ _
    exact h.stepCode (fun f => .root task ctx life (some f)) (fun _ => rfl)
      fun result _ => h.rootHookEnded life result
  · exact h.toLined
  · exact h.toLined
  · exact h.toLined

end Runs

/-- Every move of the machine keeps the threads in line. -/
theorem step_lined (host : Host S) (h : w.Lined) : (w.step host).Lined := by
  unfold World.step
  split
  · rename_i id ids ready
    have running : w.Runs id := ⟨h, by rw [ready]; rfl⟩
    split
    · exact running.stepThread _
    · rename_i missing
      have known := h.known id (List.mem_append_left _ running.mem)
      exact absurd missing (by simp [Array.getElem?_eq_getElem known])
  · split
    · rename_i time _
      have later : World.Lined { w with clock := time } := h.congr rfl rfl rfl
      exact later.wake _ _
    · exact h

theorem start_lined (tag : UInt64) (state : S.State) (recording : Bool) (body : S.Code Outcome) :
    ((World.start tag state recording).addMain body).Lined := by
  have levels (j : Nat) : ((World.start tag state recording).addMain body).levelsAt j =
      if j = 0 then [.body (.going body)] else [] :=
    (levelsAt_addThread (World.start tag state recording) _ j).trans
      (congrArg _ (levelsAt_of_size (Nat.zero_le j)))
  refine ⟨List.nodup_singleton _, fun o ho => ?_, fun o ho => ?_, nofun, fun j held => ?_⟩
  · obtain rfl : o = ⟨0⟩ := List.mem_singleton.1 ho
    exact Nat.zero_lt_one
  · obtain rfl : o = ⟨0⟩ := List.mem_singleton.1 ho
    rfl
  · rw [levels] at held
    split at held
    · rename_i first
      exact List.mem_singleton.2 (congrArg ThreadId.mk first)
    · exact absurd rfl held

end World

end EffectEngine
