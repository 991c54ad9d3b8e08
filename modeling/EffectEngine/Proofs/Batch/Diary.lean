import EffectEngine.Proofs.Batch.Discretion
import Mathlib.Logic.Relation

/-!
# What happens to batches while an engine runs

A `Diary` is a world together with all joins, forks and flushes that happened so far; each is read
off the move that is about to be made. `Diary.Executes` says that a batch is run in the turn in
which it is flushed. `Diary.Coming P` says that `P` will hold after some moves with which the
running thread does not give way before, and which execute all batches that they flush: what a
thread does in one turn is one step for all other threads.
-/

namespace EffectEngine

/-- The running thread has come to wait for something in the code of a task. -/
def World.aboutToWait {S : Sig} (w : World S) : Bool :=
  match w.ready.head?.bind w.levels? with
  | some (.task _ (some (.going (.perform (.wait _) _))) :: _) => true
  | _ => false

namespace Batch

/-- What happens to a batch. -/
inductive BatchEvent (F : Type) where
  /-- A call joins a batch. -/
  | joined (ticket : BatchTicket) (time : Nat)
  /-- A call that has joined forks its timer. -/
  | forked (ticket : BatchTicket) (timer : TaskId)
  /-- A task has `execute_batch` handled, and takes a batch if one is pending. -/
  | flushed (task : TaskId) (batch : Option (PendingBatch F)) (time : Nat)

variable {T : ClientSig}

/-- What the task on top of the stack of a thread is about to do to a batch. -/
def event? (host : Host T.sig) (w : World T.sig) : Option (BatchEvent T.Fn) :=
  match w.asking? host with
  | some (task, ctx, .handle middleware op) =>
    match (w.runSync (host.handle middleware op ctx)).1 with
    | .ok (.ok (Gen.library _ (.created (.batch ticket)))) => some (.joined ticket w.clock)
    | .ok (.ok (Gen.library _ (.created (.executeBatch batch)))) =>
      some (.flushed task batch w.clock)
    | _ => none
  | some (task, _, .fork _) =>
    match (w.task? task).bind fun t => t.frames.head?.map (·.generator) with
    | some (Gen.library _ (.suspended (.batch ticket))) =>
      some (.forked ticket ⟨w.tag, w.tasks.size⟩)
    | _ => none
  | _ => none

/-- The task of the call that is about to join a batch. -/
def caller? (host : Host T.sig) (w : World T.sig) : Option TaskId :=
  match event? host w with
  | some (.joined ..) => (w.asking? host).map (·.1)
  | _ => none

structure Diary (T : ClientSig) where
  world : World T.sig
  events : List (BatchEvent T.Fn)

namespace Diary

variable {host : Host T.sig} {P : Diary T → Prop} {r r' : Diary T}

def tick (host : Host T.sig) (r : Diary T) : Diary T :=
  ⟨r.world.step host, r.events ++ (event? host r.world).toList⟩

/-- A timer that was forked by a call with the key, and has neither been cancelled nor fired. -/
structure Live (r : Diary T) (key : BatchKey) (timer : TaskId) : Prop where
  forked : ∃ ticket, .forked ticket timer ∈ r.events ∧ (ticket.key == key) = true
  uncanceled : r.world.canceled? timer = some false
  unfired : ∀ batch time, .flushed timer batch time ∉ r.events

/-- The task of a call that joins a batch in the next move is not cancelled. -/
def SparesCallers (host : Host T.sig) (r : Diary T) : Prop :=
  ∀ task, caller? host r.world = some task → (r.world.step host).canceled? task = some false

/-- The next move cancels no live timer. -/
def SparesTimers (host : Host T.sig) (r : Diary T) : Prop :=
  ∀ key timer, r.Live key timer → (r.world.step host).canceled? timer = some false

/-- A batch that is flushed in the next move is run: before its turn is over, and before anything
else happens to a batch, the thread goes on to offer the call of the batch to the middleware. -/
def Executes (host : Host T.sig) (r : Diary T) : Prop :=
  ∀ task b time, event? host r.world = some (.flushed task (some b) time) → ∃ k,
    let r' := (tick host)^[k + 1] r
    (∀ j ≤ k + 1, ((tick host)^[j] r).world.ready.head? = r.world.ready.head?) ∧
    r'.events = r.events ++ [.flushed task (some b) time] ∧ r'.world.clock = time ∧
    ∃ ctx m, r'.world.asking? host = some (task, ctx, .filter m (.call b.func b.args))

theorem executes_of_event {e : BatchEvent T.Fn} (happens : event? host r.world = some e)
    (other : ∀ task b time, e ≠ .flushed task (some b) time) : r.Executes host :=
  fun task b time flushes =>
    absurd (Option.some.inj (happens.symm.trans flushes)) (other task b time)

theorem executes_of_quiet (quiet : event? host r.world = none) : r.Executes host :=
  fun _ _ _ flushes => nomatch quiet.symm.trans flushes

/-- In a world that cannot move nothing more happens. -/
theorem tick_of_stuck (idle : r.world.ready = []) (timeless : r.world.nextDeadline? = none) :
    r.tick host = r := by
  have stays : r.world.step host = r.world := by simp only [World.step, idle, timeless]
  have quiet : event? host r.world = none := by
    simp only [event?, World.asking?, idle, List.head?_nil, Option.bind_none]
  rw [tick, stays, quiet]
  exact congrArg (Diary.mk r.world) (List.append_nil r.events)

/-- The running thread makes a move and stays the running one. -/
structure Leads (host : Host T.sig) (r r' : Diary T) : Prop where
  tick : r.tick host = r'
  head : r'.world.ready.head? = r.world.ready.head?
  executes : r.Executes host

/-- After one or more moves of the running thread, in the same turn or at its end, `P` holds. -/
def Coming (host : Host T.sig) (P : Diary T → Prop) (r : Diary T) : Prop :=
  ∃ last, Relation.ReflTransGen (Leads host) r last ∧ last.Executes host ∧ P (last.tick host)

theorem Coming.next (executes : r.Executes host) (h : P (r.tick host)) : Coming host P r :=
  ⟨r, .refl, executes, h⟩

/-- Nothing happens to a batch in a move. -/
theorem Coming.quiet (quiet : event? host r.world = none) (h : P ⟨r.world.step host, r.events⟩) :
    Coming host P r := by
  refine .next (executes_of_quiet quiet) ?_
  rw [Diary.tick, quiet]
  exact (List.append_nil r.events).symm ▸ h

theorem Coming.after (leads : Relation.ReflTransGen (Leads host) r r') (h : Coming host P r') :
    Coming host P r := by
  obtain ⟨last, rest, executes, holds⟩ := h
  exact ⟨last, leads.trans rest, executes, holds⟩

theorem Coming.of_leads (leads : Relation.TransGen (Leads host) r r') (h : P r') :
    Coming host P r := by
  obtain ⟨last, before, leads⟩ := Relation.TransGen.tail'_iff.1 leads
  exact ⟨last, before, leads.executes, leads.tick ▸ h⟩

theorem Coming.mono {Q : Diary T → Prop} (h : Coming host P r) (implies : ∀ r, P r → Q r) :
    Coming host Q r := by
  obtain ⟨last, leads, executes, holds⟩ := h
  exact ⟨last, leads, executes, implies _ holds⟩

/-- Moves of the running thread, counted. -/
theorem count_of_leads (leads : Relation.ReflTransGen (Leads host) r r') : ∃ k,
    (tick host)^[k] r = r' ∧
    (∀ j ≤ k, ((tick host)^[j] r).world.ready.head? = r.world.ready.head?) ∧
    ∀ j < k, ((tick host)^[j] r).Executes host := by
  induction leads with
  | refl => exact ⟨0, rfl, fun j le => by rw [Nat.le_zero.1 le]; rfl, nofun⟩
  | @tail last r' before leads ih =>
    obtain ⟨k, rfl, heads, executes⟩ := ih
    have next : (tick host)^[k + 1] r = r' := (Function.iterate_succ_apply' ..).trans leads.tick
    refine ⟨k + 1, next, fun j le => ?_, fun j lt => ?_⟩
    · rcases Nat.le_succ_iff.1 le with le | rfl
      · exact heads j le
      · rw [next, leads.head]
        exact heads k (Nat.le_refl k)
    · rcases Nat.lt_succ_iff_lt_or_eq.1 lt with lt | rfl
      · exact executes j lt
      · exact leads.executes

/-! ### A thread that drives a task -/

section Driving

variable {w w' : World T.sig} {id : ThreadId} {task : TaskId} {ctx : ContextId}
  {below : List (Level T.sig)} {t t' : T.sig.Task} {s : T.sig.State}
  {es : List (BatchEvent T.Fn)}

theorem tick_quiet (stepped : w.step host = w') (quiet : event? host w = none) :
    tick host ⟨w, es⟩ = ⟨w', es⟩ := by
  rw [tick, stepped, quiet]
  exact congrArg (Diary.mk w') (List.append_nil es)

theorem leads_of_step (stepped : w.step host = w') (quiet : event? host w = none)
    (head : w'.ready.head? = w.ready.head?) : Leads host ⟨w, es⟩ ⟨w', es⟩ :=
  ⟨tick_quiet stepped quiet, head, executes_of_quiet quiet⟩

variable (h : w.Drives id task ctx)
include h

theorem leads_silent (steps : t.step host.registry = (t', .silent))
    (unsettled : t'.outcome? = none) :
    Leads host ⟨w.driving id below task none t s, es⟩ ⟨w.driving id below task none t' s, es⟩ := by
  refine leads_of_step (World.step_silent h steps unsettled) ?_ rfl
  simp only [event?, World.asking?_driving host h, steps]

theorem leads_resume {g : T.sig.Gen} {input : Resume}
    (steps : t.step host.registry = (t', .resume g input)) (unsettled : t'.outcome? = none) :
    Leads host ⟨w.driving id below task none t s, es⟩
      ⟨w.driving id below task (some (.going (host.resume g input))) t' s, es⟩ := by
  refine leads_of_step (World.step_resume h steps unsettled) ?_ rfl
  simp only [event?, World.asking?_driving host h, steps]

theorem leads_filter {m : T.sig.Mw} {op : T.sig.Operation} {accepts : Bool}
    (steps : t.step host.registry = (t', .filter m op)) (unsettled : t'.outcome? = none)
    (filters : host.filter m op ctx = .done accepts) :
    Leads host ⟨w.driving id below task none t s, es⟩
      ⟨w.driving id below task none (t'.filtered accepts) s, es⟩ := by
  refine leads_of_step (World.step_filter h steps unsettled filters) ?_ rfl
  simp only [event?, World.asking?_driving host h, steps]

theorem leads_code {f : Flow T.sig (T.sig.Signal × T.sig.Gen)}
    (stepped : (w.driving id below task (some f) t s).step host = w')
    (head : w'.ready.head? = w.ready.head?) :
    Leads host ⟨w.driving id below task (some f) t s, es⟩ ⟨w', es⟩ := by
  refine leads_of_step stepped ?_ head
  simp only [event?, World.asking?_code host h]

theorem leads_done {signal : T.sig.Signal} {g : T.sig.Gen}
    (takes : World.taskResumed t signal g = t') :
    Leads host ⟨w.driving id below task (some (.going (.done (signal, g)))) t s, es⟩
      ⟨w.driving id below task none t' s, es⟩ :=
  leads_code h (takes ▸ World.step_done h) rfl

theorem leads_get {k : T.sig.State → T.sig.Code (T.sig.Signal × T.sig.Gen)} :
    Leads host ⟨w.driving id below task (some (.going (.ask .get k))) t s, es⟩
      ⟨w.driving id below task (some (.going (k s))) t s, es⟩ :=
  leads_code h (World.step_get h) rfl

theorem leads_put {s' : T.sig.State} {k : Unit → T.sig.Code (T.sig.Signal × T.sig.Gen)} :
    Leads host ⟨w.driving id below task (some (.going (.ask (.put s') k))) t s, es⟩
      ⟨w.driving id below task (some (.going (k ()))) t s', es⟩ :=
  leads_code h (World.step_put h) rfl

end Driving

end Diary

end Batch

end EffectEngine
