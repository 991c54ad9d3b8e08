import EffectEngine.Proofs.Batch.Bystanders
import EffectEngine.Proofs.Batch.Coalescing
import EffectEngine.Proofs.World.Lines

/-!
# Debouncing

In an engine whose only middleware is that of batching with a timeout, each call that joins a batch
supersedes the timer of the call before it. Whenever no thread is in the middle of a turn there is
one live timer for each pending batch, that of the last call that joined it (`Debounced`). A
superseded timer never flushes anything, and a batch is flushed by the timer of its last call, no
earlier than the timeout after that call, and run at once. When nothing can move any more, every
batch has been flushed (`debounces`).
-/

namespace EffectEngine

namespace BatchTable

variable {F : Type} {t : BatchTable F} {key : BatchKey} {b : PendingBatch F}

/-- The batch of a key is the pending one whose key agrees. -/
theorem find?_iff (h : t.Apart) :
    t.find? key = some b ↔ ∃ k, (k, b) ∈ t.pending ∧ (k == key) = true := by
  rcases find_cases h key with ⟨none, others⟩ | ⟨before, k, b', after, split, agrees, found, others⟩
  · rw [none]
    refine ⟨nofun, fun ⟨k, pending, agrees⟩ => ?_⟩
    exact absurd ((others _ pending).symm.trans agrees) nofun
  · rw [found, split]
    constructor
    · rintro ⟨⟩
      exact ⟨k, List.mem_append_right _ List.mem_cons_self, agrees⟩
    · rintro ⟨k', pending, agrees'⟩
      rcases mem_place.1 pending with same | pending
      · exact congrArg some (Prod.mk.inj same).2.symm
      · exact absurd ((others _ pending).symm.trans agrees') nofun

end BatchTable

namespace Batch

variable {T : ClientSig} {c : Client T} {listeners : List T.Listener} {ctx : ContextId}
  {d : Nat} {host : Host T.sig} {r : Diary T} {w : World T.sig} {n : Nat}

namespace Diary

/-- A run after some moves. -/
def after (host : Host T.sig) (w : World T.sig) (n : Nat) : Diary T :=
  (tick host)^[n] ⟨w, []⟩

/-- No thread is in the middle of a turn: all threads wait, or the thread that made the last move,
if any, is not the running one any more. -/
def Paused (host : Host T.sig) (w : World T.sig) : Nat → Prop
  | 0 => True
  | n + 1 => (after host w (n + 1)).world.ready = [] ∨
    (after host w (n + 1)).world.ready.head? ≠ (after host w n).world.ready.head?

/-- A call has joined a batch, and its thread has not come to wait since. -/
def joining (host : Host T.sig) (w : World T.sig) : Nat → Bool
  | 0 => false
  | n + 1 => (joining host w n || (caller? host (after host w n).world).isSome) &&
    !(after host w (n + 1)).world.aboutToWait

theorem after_succ : after host w (n + 1) = (after host w n).tick host :=
  Function.iterate_succ_apply' ..

/-- What has happened will not be undone. -/
theorem events_after (host : Host T.sig) (w : World T.sig) (m i : Nat) :
    ∃ more, (after host w (m + i)).events = (after host w m).events ++ more := by
  induction i with
  | zero => exact ⟨[], (List.append_nil _).symm⟩
  | succ i ih =>
    obtain ⟨more, grown⟩ := ih
    refine ⟨more ++ (event? host (after host w (m + i)).world).toList, ?_⟩
    rw [← Nat.add_assoc, after_succ, tick, grown, List.append_assoc]

/-- A world that cannot move stays as it is. -/
theorem after_of_stuck (idle : (after host w n).world.ready = [])
    (timeless : (after host w n).world.nextDeadline? = none) (i : Nat) :
    after host w (n + i) = after host w n := by
  rw [Nat.add_comm, after, Function.iterate_add_apply]
  exact Function.iterate_fixed (tick_of_stuck idle timeless) i

/-- A pause ends a turn, or nothing has moved since the one before. -/
theorem Paused.cases (h : Paused host w (n + 1)) :
    (after host w (n + 1)).world.ready.head? ≠ (after host w n).world.ready.head? ∨
      Paused host w n ∧ after host w (n + 1) = after host w n := by
  by_cases same : (after host w (n + 1)).world.ready.head? = (after host w n).world.ready.head?
  · have idle : (after host w (n + 1)).world.ready = [] := h.resolve_right fun other => other same
    have before : (after host w n).world.ready = [] := by
      rw [idle] at same
      exact List.head?_eq_none_iff.1 same.symm
    cases next : (after host w n).world.nextDeadline? with
    | none =>
      refine .inr ⟨?_, after_of_stuck before next 1⟩
      cases n with
      | zero => trivial
      | succ n => exact .inl before
    | some time =>
      rw [after_succ] at idle
      exact absurd idle (World.ready_of_deadline before next)
  · exact .inl same

/-- As long as no call joins a batch, none is in the middle of that. -/
theorem joining_of_unjoined (rests : joining host w n = false) {m : Nat} (le : n ≤ m)
    {more : List (BatchEvent T.Fn)}
    (grown : (after host w m).events = (after host w n).events ++ more)
    (unjoined : ∀ ticket time, .joined ticket time ∉ more) : joining host w m = false := by
  induction m, le using Nat.le_induction generalizing more with
  | base => exact rests
  | succ m le ih =>
    obtain ⟨sooner, grown'⟩ := events_after host w n (m - n)
    rw [Nat.add_sub_cancel' le] at grown'
    rw [after_succ, tick, grown', List.append_assoc] at grown
    obtain rfl := List.append_cancel_left grown
    have calm : caller? host (after host w m).world = none := by
      unfold caller?
      split
      · rename_i ticket time joins
        exact absurd (List.mem_append_right _ (by rw [joins]; exact List.mem_cons_self))
          (unjoined ticket time)
      · rfl
    have rests := ih grown' fun ticket time joined =>
      unjoined ticket time (List.mem_append_left _ joined)
    rw [joining, rests, calm]
    rfl

/-- From one move up to another the same thread runs, and each batch that is flushed is run. -/
structure Stretch (host : Host T.sig) (w : World T.sig) (n m : Nat) : Prop where
  later : n < m
  head : ∀ k, n ≤ k → k < m →
    (after host w k).world.ready.head? = (after host w n).world.ready.head?
  executes : ∀ k, n ≤ k → k < m → (after host w k).Executes host

theorem stretch_of_coming {P : Diary T → Prop} (h : Coming host P (after host w n)) :
    ∃ m, Stretch host w n m ∧ P (after host w m) := by
  obtain ⟨last, leads, executes, holds⟩ := h
  obtain ⟨k, rfl, heads, before⟩ := count_of_leads leads
  have shift (i : Nat) : (tick host)^[i] (after host w n) = after host w (n + i) := by
    rw [Nat.add_comm]
    exact (Function.iterate_add_apply ..).symm
  simp only [shift] at executes holds heads before
  rw [← after_succ] at holds
  refine ⟨n + k + 1, ⟨by omega, fun m begun sooner => ?_, fun m begun sooner => ?_⟩, holds⟩ <;>
    obtain ⟨i, rfl⟩ := Nat.exists_eq_add_of_le begun
  · exact heads i (by omega)
  · rcases Nat.lt_or_ge i k with sooner | last
    · exact before i sooner
    · obtain rfl : i = k := by omega
      exact executes

end Diary

/-- A timer is superseded when another call joins the batch of the call that forked it. -/
def Superseded {F : Type} (events : List (BatchEvent F)) (timer : TaskId) : Prop :=
  ∃ ticket time earlier later ticket' time', events = earlier ++ .joined ticket time :: later ∧
    .forked ticket timer ∈ events ∧ .joined ticket' time' ∈ later ∧
    ticket'.seat.generation = ticket.seat.generation

theorem Superseded.mono {F : Type} {events more : List (BatchEvent F)} {timer : TaskId}
    (h : Superseded events timer) : Superseded (events ++ more) timer := by
  obtain ⟨ticket, time, earlier, later, ticket', time', rfl, forked, joined, same⟩ := h
  refine ⟨ticket, time, earlier, later ++ more, ticket', time', ?_, List.mem_append_left _ forked,
    List.mem_append_left _ joined, same⟩
  rw [List.append_assoc, List.cons_append]

/-- Each pending batch has exactly one timer that will flush it. -/
structure Debounced (ctx : ContextId) (r : Diary T) : Prop where
  single : ∀ key timer timer', r.Live key timer → r.Live key timer' → timer = timer'
  /-- It is the one forked by the last call that joined the batch. -/
  latest : ∀ key timer, r.Live key timer → ∃ b ticket time,
    (tableOf ctx r.world).find? key = some b ∧
      lastJoin? r.events b.generation = some (ticket, time) ∧ .forked ticket timer ∈ r.events
  guarded : ∀ key b, (tableOf ctx r.world).find? key = some b → ∃ timer, r.Live key timer

/-- A timer that has been superseded does not flush. -/
theorem Roster.unflushed_of_superseded {F : Type} {m : Nat} {crew : List Alarm} {t : BatchTable F}
    {events : List (BatchEvent F)} (h : Roster d m crew t events) {timer : TaskId}
    (superseded : Superseded events timer) (batch : Option (PendingBatch F)) (time : Nat) :
    .flushed timer batch time ∉ events := by
  intro flushed
  obtain ⟨ticket, time₁, earlier, later, ticket', time₂, split, forked, joined, same⟩ := superseded
  obtain ⟨before, after, split'⟩ := List.append_of_mem flushed
  obtain ⟨b, ticket₀, time₀, rfl, forked₀, last, -, none⟩ :=
    h.timely before after timer batch time split'
  have forked₀ : .forked ticket₀ timer ∈ events := by
    rw [split']
    exact List.mem_append_left _ forked₀
  obtain rfl := h.single ticket ticket₀ timer forked forked₀
  have ours : ticket.seat.generation = b.generation :=
    (mem_joins.1 (List.mem_of_getLast? last)).2
  -- Nobody joined the batch after it was flushed, so the call of the timer is the last of all.
  have closed : joins events b.generation = joins before b.generation := by
    have nobody : joins (.flushed timer (some b) time :: after) b.generation = [] := by
      refine List.eq_nil_iff_forall_not_mem.2 fun ⟨ticket₂, time₃⟩ listed => ?_
      obtain ⟨joined, generation⟩ := mem_joins.1 listed
      exact none ticket₂ time₃ ((List.mem_cons.1 joined).resolve_left nofun) generation
    rw [split', joins_append, nobody, List.append_nil]
  have listed : joins events b.generation =
      joins earlier b.generation ++ (ticket, time₁) :: joins later b.generation := by
    have own : (.joined ticket time₁ : BatchEvent F).joined? b.generation = some (ticket, time₁) :=
      if_pos ours
    rw [split, joins_append]
    exact congrArg _ (List.filterMap_cons_some own)
  have another : (ticket', time₂) ∈ joins later b.generation :=
    mem_joins.2 ⟨joined, same.trans ours⟩
  have again : (ticket, time₀) ∈ joins later b.generation := by
    rw [lastJoin?, ← closed, listed, List.getLast?_append_of_ne_nil _ (List.cons_ne_nil _ _),
      List.getLast?_cons_of_ne_nil (List.ne_nil_of_mem another)] at last
    exact List.mem_of_getLast? last
  have once := h.once b.generation
  rw [listed, List.map_append, List.map_cons, List.nodup_append, List.nodup_cons] at once
  exact once.2.1.1 (List.mem_map.2 ⟨_, again, rfl⟩)

/-- Whenever all timers rest, each pending batch has one live timer. -/
theorem Good.debounced (h : Good d ctx r) : Debounced ctx r := by
  obtain ⟨w, es⟩ := r
  obtain ⟨crew, stationed, roster⟩ := h
  have served {key : BatchKey} {timer : TaskId} (live : Diary.Live ⟨w, es⟩ key timer) :
      ∃ b ticket time, (tableOf ctx w).find? key = some b ∧ b.timer = some timer ∧
        lastJoin? es b.generation = some (ticket, time) ∧ .forked ticket timer ∈ es := by
    obtain ⟨⟨ticket, forked, keyed⟩, calm, unfired⟩ := live
    rcases (roster.known ticket timer forked).2 with ⟨a, member, rfl⟩ | ⟨batch, time, flushed⟩
    · have same := (stationed.rests a member).canceled?
      obtain ⟨⟨k, b⟩, pending, timed⟩ :=
        roster.live a member (Option.some.inj (same.symm.trans calm))
      obtain ⟨a', member', serves, last⟩ := roster.installed _ pending
      obtain rfl : a' = a :=
        roster.eq_of_task member' member (Option.some.inj (serves.timer.symm.trans timed))
      have own := roster.single a'.ticket ticket a'.task (roster.forked a' member) forked
      have agrees : (k == key) = true := BEq.trans (own ▸ serves.key) keyed
      exact ⟨b, _, _, (BatchTable.find?_iff roster.apart).2 ⟨k, pending, agrees⟩, timed, last,
        roster.forked a' member⟩
    · exact absurd flushed (unfired batch time)
  refine ⟨fun key timer timer' live live' => ?_, fun key timer live => ?_, fun key b found => ?_⟩
  · obtain ⟨b, -, -, found, timed, -⟩ := served live
    obtain ⟨b', -, -, found', timed', -⟩ := served live'
    obtain rfl : b = b' := Option.some.inj (found.symm.trans found')
    exact Option.some.inj (timed.symm.trans timed')
  · obtain ⟨b, ticket, time, found, -, last, forked⟩ := served live
    exact ⟨b, ticket, time, found, last, forked⟩
  · obtain ⟨k, pending, agrees⟩ := (BatchTable.find?_iff roster.apart).1 found
    obtain ⟨a, member, serves, -⟩ := roster.installed _ pending
    refine ⟨a.task, ⟨a.ticket, roster.forked a member, ?_⟩, ?_, roster.unflushed a member⟩
    · exact BEq.trans (BEq.symm serves.key) agrees
    · exact (stationed.rests a member).canceled?.trans (congrArg some serves.uncanceled)

/-- All batches have been flushed. -/
structure Cleared (ctx : ContextId) (r : Diary T) : Prop where
  empty : ∀ key, (tableOf ctx r.world).find? key = none
  flushed : ∀ ticket time, .joined ticket time ∈ r.events →
    ∃ timer b time', .flushed timer (some b) time' ∈ r.events ∧
      b.generation = ticket.seat.generation

/-- A timer that has not been cancelled will go on. -/
theorem Alarm.Rests.not_stuck {a : Alarm} (h : a.Rests d ctx w) (calm : a.canceled = false)
    (lined : w.Lined) (idle : w.ready = []) (timeless : w.nextDeadline? = none) : False := by
  obtain ⟨levels, t, holds, -, stands⟩ := h.stands
  have at_thread : w.levelsAt a.thread.index = levels := congrArg (·.getD []) holds
  have waits (left : levels ≠ []) : ∃ e, (a.thread, e) ∈ w.waiting := by
    have listed := lined.all a.thread.index (at_thread ▸ left)
    rw [World.line, idle, List.nil_append] at listed
    obtain ⟨⟨thread, e⟩, he, rfl⟩ := List.mem_map.1 listed
    exact ⟨e, he⟩
  have left : levels ≠ [] := by
    cases stands with
    | gone canceled => exact absurd (calm.symm.trans canceled) Bool.false_ne_true
    | unborn | asleep | woken => exact List.cons_ne_nil _ _
  obtain ⟨e, he⟩ := waits left
  obtain ⟨time, timed, -⟩ := h.waits _ he rfl
  exact World.timeless_of_nextDeadline? timeless _ he time timed

/-- When nothing can move any more, no batch is pending. -/
theorem Good.cleared (h : Good d ctx r) (lined : r.world.Lined) (idle : r.world.ready = [])
    (timeless : r.world.nextDeadline? = none) : Cleared ctx r := by
  obtain ⟨crew, stationed, roster⟩ := h
  have none_pending : ∀ e, e ∉ (tableOf ctx r.world).pending := by
    intro e pending
    obtain ⟨a, member, serves, -⟩ := roster.installed e pending
    exact (stationed.rests a member).not_stuck serves.uncanceled lined idle timeless
  refine ⟨fun key => ?_, fun ticket time joined => ?_⟩
  · refine Option.eq_none_iff_forall_ne_some.2 fun b found => ?_
    obtain ⟨k, pending, -⟩ := (BatchTable.find?_iff roster.apart).1 found
    exact none_pending _ pending
  · refine (roster.accounted ticket time joined).resolve_left ?_
    rintro ⟨e, pending, -⟩
    exact none_pending e pending

/-- At first no call has joined a batch. -/
theorem Good.start (tag : UInt64) {state : T.sig.State} (recording : Bool)
    {body : T.sig.Code Outcome} (discreet : (conduct T ctx d).code (fun _ => True) body state)
    (context : ctx.index < state.contexts.size) (unbatched : table? (ctx.slots state) = none) :
    Good d ctx ⟨(World.start tag state recording).addMain body, []⟩ := by
  have empty : tableOf ctx ((World.start tag state recording).addMain body) = .empty := by
    show (table? (ctx.slots state)).getD .empty = .empty
    rw [unbatched]
    rfl
  have idle {P : ThreadId × Pending → Prop} : ∀ e ∈ ([] : List (ThreadId × Pending)), P e :=
    List.forall_mem_nil P
  refine ⟨[], ⟨⟨⟨fun i t ctx' known => ?_, ?_, ?_, idle, idle, idle⟩, ?_⟩, context,
    List.forall_mem_nil _, .nil, .nil⟩, ?_⟩
  · cases (Array.getElem?_empty (i := i)).symm.trans known
  · rintro i ⟨a, member, -⟩
    cases member
  · rintro i ⟨a, member, -⟩
    cases member
  · intro i th known _
    obtain ⟨bound, same⟩ := Array.getElem?_eq_some_iff.1 known
    obtain rfl : i = 0 := Nat.lt_one_iff.1 bound
    obtain rfl : (⟨[.body (.going body)], none⟩ : Thread T.sig) = th := same
    exact ⟨fun _ => ⟨discreet, nofun⟩, fun waits => absurd rfl waits⟩
  · rw [empty]
    exact .empty d 0

/-- All timers rest, and no call is joining a batch. -/
structure Lull (d : Nat) (ctx : ContextId) (host : Host T.sig) (w : World T.sig) (n : Nat) :
    Prop where
  good : Good d ctx (Diary.after host w n)
  unjoined : Diary.joining host w n = false

section Turns

variable (discreet : Discreet c ctx d) (reached : w.TasksReached (c.host (plugin d) listeners))
  (callers : ∀ n, (Diary.after (c.host (plugin d) listeners) w n).SparesCallers
    (c.host (plugin d) listeners))
  (timers : ∀ n, Diary.joining (c.host (plugin d) listeners) w n = false →
    (Diary.after (c.host (plugin d) listeners) w n).SparesTimers (c.host (plugin d) listeners))
include discreet reached callers timers

theorem Lull.next (h : Lull d ctx (c.host (plugin d) listeners) w n) :
    ∃ m, Diary.Stretch (c.host (plugin d) listeners) w n m ∧
      Lull d ctx (c.host (plugin d) listeners) w m := by
  let host := c.host (plugin d) listeners
  have reached (n : Nat) : (Diary.after host w n).world.TasksReached host := by
    induction n with
    | zero => exact reached
    | succ n ih => exact Diary.after_succ ▸ ih.step
  obtain ⟨m, stretch, ⟨good, joined⟩⟩ := Diary.stretch_of_coming
    (h.good.keeps discreet (reached n) (callers n) (timers n h.unjoined))
  refine ⟨m, stretch, good, ?_⟩
  rcases joined with waits | ⟨more, grown, unjoined⟩
  · obtain ⟨m, rfl⟩ := Nat.exists_eq_succ_of_ne_zero (Nat.ne_zero_of_lt stretch.later)
    rw [Diary.joining, waits]
    exact Bool.and_false _
  · exact Diary.joining_of_unjoined h.unjoined (Nat.le_of_lt stretch.later) grown unjoined

/-- Every move belongs to a stretch up to a moment at which all timers rest. -/
theorem exists_stretch (start : Good d ctx ⟨w, []⟩) (k : Nat) :
    ∃ n m, n ≤ k ∧ k < m ∧ Diary.Stretch (c.host (plugin d) listeners) w n m ∧
      Lull d ctx (c.host (plugin d) listeners) w m := by
  induction k with
  | zero =>
    have first : Lull d ctx (c.host (plugin d) listeners) w 0 := ⟨start, rfl⟩
    obtain ⟨m, stretch, lull⟩ := first.next discreet reached callers timers
    exact ⟨0, m, Nat.le_refl 0, stretch.later, stretch, lull⟩
  | succ k ih =>
    obtain ⟨n, m, before, after, stretch, lull⟩ := ih
    rcases Nat.lt_or_ge (k + 1) m with within | at_end
    · exact ⟨n, m, Nat.le_succ_of_le before, within, stretch, lull⟩
    · obtain rfl : m = k + 1 := Nat.le_antisymm at_end after
      obtain ⟨m, stretch, lull⟩ := lull.next discreet reached callers timers
      exact ⟨_, m, Nat.le_refl _, stretch.later, stretch, lull⟩

end Turns

/-- Batching debounces. Whatever the code of a client does, as long as it leaves the batching of
calls to the library, and cancels neither a task whose call is joining a batch nor a live timer:
whenever no thread is in the middle of a turn, each key with a pending batch has exactly one timer
that has neither been cancelled nor fired, the one forked by the last call that joined the batch; a
timer that has been superseded never flushes; each flush is that of a batch by the timer of its last
call, no earlier than the timeout after that call joined, and the batch is run at once; and when
nothing can move any more, each batch has been flushed. -/
theorem debounces (c : Client T) (listeners : List T.Listener) (ctx : ContextId) (d : Nat)
    (discreet : Discreet c ctx d) (tag : UInt64) (state : T.sig.State) (recording : Bool)
    (body : T.sig.Code Outcome)
    (main : (conduct T ctx d).code (fun _ => True) body state)
    (context : ctx.index < state.contexts.size) (unbatched : table? (ctx.slots state) = none) :
    let host := c.host (plugin d) listeners
    let w := (World.start tag state recording).addMain body
    (∀ n, (Diary.after host w n).SparesCallers host) →
    (∀ n, Diary.joining host w n = false → (Diary.after host w n).SparesTimers host) →
    ∀ n, let r := Diary.after host w n
      (Diary.Paused host w n → Debounced ctx r) ∧ Timely d r.events ∧
        (∀ timer, Superseded r.events timer → ∀ batch time,
          .flushed timer batch time ∉ r.events) ∧
        r.Executes host ∧
        (r.world.ready = [] → r.world.nextDeadline? = none → Cleared ctx r) := by
  intro host w callers timers n r
  have start : Good d ctx ⟨w, []⟩ := .start tag recording main context unbatched
  have reached : w.TasksReached host :=
    (World.tasksReached_start tag state recording).congr rfl
  have stretches := exists_stretch discreet reached callers timers start
  have lined (n : Nat) : (Diary.after host w n).world.Lined := by
    induction n with
    | zero => exact World.start_lined tag state recording body
    | succ n ih => exact Diary.after_succ ▸ World.step_lined host ih
  obtain ⟨_, m, before, later, stretch, lull⟩ := stretches n
  obtain ⟨i, rfl⟩ := Nat.exists_eq_add_of_lt later
  obtain ⟨more, grown⟩ := Diary.events_after host w n (i + 1)
  obtain ⟨crew, -, roster⟩ := lull.good
  have roster : Roster d _ crew _ (r.events ++ more) := grown ▸ roster
  refine ⟨fun paused => ?_, roster.timely.of_append, fun timer superseded batch time flushed => ?_,
    stretch.executes n before later, fun idle timeless => ?_⟩
  · show Debounced ctx (Diary.after host w n)
    clear * - start stretches paused
    induction n with
    | zero => exact start.debounced
    | succ n ih =>
      rcases paused.cases with turned | ⟨paused, same⟩
      · obtain ⟨first, m, before, later, stretch, lull⟩ := stretches n
        rcases Nat.lt_or_ge (n + 1) m with within | at_end
        · refine absurd ?_ turned
          exact (stretch.head (n + 1) (Nat.le_succ_of_le before) within).trans
            (stretch.head n before later).symm
        · obtain rfl : m = n + 1 := Nat.le_antisymm at_end later
          exact lull.good.debounced
      · rw [same]
        exact ih paused
  · exact roster.unflushed_of_superseded superseded.mono batch time (List.mem_append_left _ flushed)
  · have same := Diary.after_of_stuck idle timeless (i + 1)
    rw [← Nat.add_assoc] at same
    exact Good.cleared (same ▸ lull.good) (lined n) idle timeless

/-! ### A run -/

namespace Diary

/-- Whether the next move spares a call that joins a batch and, unless one is joining, timers. -/
def spares (host : Host T.sig) (joining : Bool) (r : Diary T) : Bool :=
  let w := r.world.step host
  (caller? host r.world).all (w.canceled? · == some false) &&
    (joining || r.events.all fun
      | .forked _ timer => r.world.canceled? timer != some false || w.canceled? timer == some false
      | _ => true)

/-- Whether all of the next moves do. -/
def sparing (host : Host T.sig) : Nat → Bool → Diary T → Bool
  | 0, _, _ => true
  | n + 1, joining, r => r.spares host joining && sparing host n
      ((joining || (caller? host r.world).isSome) && !(r.tick host).world.aboutToWait) (r.tick host)

theorem sparesCallers_of_spares {joins : Bool} (h : r.spares host joins = true) :
    r.SparesCallers host := by
  intro task calls
  have spared := (Bool.and_eq_true_iff.1 h).1
  rw [calls] at spared
  exact eq_of_beq spared

theorem sparesTimers_of_spares (h : r.spares host false = true) : r.SparesTimers host := by
  intro key timer live
  obtain ⟨ticket, forked, -⟩ := live.forked
  have spared := List.all_eq_true.1 (Bool.and_eq_true_iff.1 h).2 _ forked
  simpa [live.uncanceled] using spared

theorem spares_of_sparing {m : Nat}
    (h : sparing host n (joining host w m) (after host w m) = true) :
    ∀ k < n, (after host w (m + k)).spares host (joining host w (m + k)) = true := by
  induction n generalizing m with
  | zero => exact nofun
  | succ n ih =>
    obtain ⟨first, rest⟩ := Bool.and_eq_true_iff.1 h
    intro k le
    cases k with
    | zero => exact first
    | succ k =>
      rw [← after_succ] at rest
      rw [← Nat.succ_add_eq_add_succ]
      exact ih (m := m + 1) rest k (Nat.lt_of_succ_lt_succ le)

/-- A world that cannot move spares all. -/
theorem spares_of_stuck (idle : r.world.ready = []) (timeless : r.world.nextDeadline? = none) :
    r.SparesCallers host ∧ r.SparesTimers host := by
  have stays : r.world.step host = r.world := congrArg Diary.world (tick_of_stuck idle timeless)
  refine ⟨fun task calls => ?_, fun key timer live => ?_⟩
  · simp only [caller?, event?, World.asking?, idle, List.head?_nil, Option.bind_none] at calls
    cases calls
  · exact (congrArg (World.canceled? · timer) stays).trans live.uncanceled

end Diary

namespace BatchEvent

variable {F : Type} {e : BatchEvent F} {task : TaskId} {size time : Nat}

/-- The task that flushes a batch, the number of calls that have joined it, and the time. -/
def flush? : BatchEvent F → Option (TaskId × Nat × Nat)
  | .flushed task (some batch) time => some (task, batch.args.length, time)
  | _ => none

theorem eq_of_flush? (h : e.flush? = some (task, size, time)) :
    ∃ batch, e = .flushed task (some batch) time ∧ batch.args.length = size := by
  unfold flush? at h
  split at h
  · cases h
    exact ⟨_, rfl, rfl⟩
  · cases h

end BatchEvent

open Session

theorem stubClient_discreet (ctx : ContextId) (timeout : Nat) :
    Discreet stubClient ctx timeout where
  resume _ _ _ := trivial
  release _ _ := trivial
  invoke _ _ _ _ := trivial
  key _ _ _ := trivial
  hook _ _ _ := trivial
  start _ _ := trivial

/-- Two calls of the same function, the second one three milliseconds after the first. Then another
task is started and cancelled. -/
def stubCalls : stubSig.sig.Code Outcome :=
  let call : stubSig.sig.Yielded :=
    .operation (.call (.batched 2 default (.plain "f" 1 default ()) ()) [.null])
  let other : stubSig.sig.Yielded := .operation (.call (.plain "g" 3 default ()) [])
  .perform (.spawn ⟨0⟩ call) fun _ => .perform (.wait (.sleep 3)) fun _ =>
    .perform (.spawn ⟨0⟩ call) fun _ => .perform (.spawn ⟨0⟩ other) fun
      | .ok (.task id) => .ask (.requestCancel id) fun _ => .done (.ok .null)
      | _ => .done (.ok .null)

/-- The calls are batched for five milliseconds. -/
def stubHost : Host stubSig.sig := stubClient.host (plugin 5) []

def stubWorld : World stubSig.sig :=
  (World.start 0 (⟨#[.empty], #[], 0, ()⟩ : stubSig.sig.State) false).addMain stubCalls

def stubRun (n : Nat) : Diary stubSig := .after stubHost stubWorld n

def stubTicket (index : Nat) : BatchTicket :=
  ⟨⟨0⟩, ⟨1, (Value.bool true).key⟩, ⟨1, index, ⟨0⟩⟩, 5⟩

theorem stubRun_joined : (stubRun 46).events =
    [.joined (stubTicket 0) 0, .forked (stubTicket 0) ⟨0, 1⟩, .joined (stubTicket 1) 3,
      .forked (stubTicket 1) ⟨0, 4⟩] := by rfl

theorem stubRun_flushes : ∃ batch,
    event? stubHost (stubRun 63).world = some (.flushed ⟨0, 4⟩ (some batch) 8) ∧
      batch.args.length = 2 := by
  have flushes : (event? stubHost (stubRun 63).world).bind BatchEvent.flush? =
      some (⟨0, 4⟩, 2, 8) := by decide +kernel
  obtain ⟨e, happens, flush⟩ := Option.bind_eq_some_iff.1 flushes
  obtain ⟨batch, rfl, size⟩ := BatchEvent.eq_of_flush? flush
  exact ⟨batch, happens, size⟩

/-- The world of the run has come to rest. -/
theorem stubRun_stuck :
    (stubRun 85).world.ready = [] ∧ (stubRun 85).world.nextDeadline? = none := by
  decide +kernel

theorem stubRun_spares (n : Nat) : (stubRun n).SparesCallers stubHost ∧
    (Diary.joining stubHost stubWorld n = false → (stubRun n).SparesTimers stubHost) := by
  rcases Nat.lt_or_ge n 85 with moving | at_rest
  · have spared : Diary.sparing stubHost 85 false ⟨stubWorld, []⟩ = true := by decide +kernel
    have spares := Diary.spares_of_sparing (m := 0) spared n moving
    rw [Nat.zero_add] at spares
    exact ⟨Diary.sparesCallers_of_spares spares, fun calm =>
      Diary.sparesTimers_of_spares (calm ▸ spares)⟩
  · obtain ⟨i, rfl⟩ := Nat.exists_eq_add_of_le at_rest
    have stays : stubRun (85 + i) = stubRun 85 :=
      Diary.after_of_stuck stubRun_stuck.1 stubRun_stuck.2 i
    have spares : (stubRun 85).SparesCallers stubHost ∧ (stubRun 85).SparesTimers stubHost :=
      Diary.spares_of_stuck stubRun_stuck.1 stubRun_stuck.2
    rw [stays]
    exact ⟨spares.1, fun _ => spares.2⟩

/-- The second call supersedes the timer of the first one, and only its own timer flushes the batch,
eight milliseconds after the first call, and runs it with the arguments of both calls. No batch is
left at last. That another task is cancelled is of no concern. -/
theorem debounces_superseding :
    (∃ key, (stubRun 46).Live key ⟨0, 4⟩ ∧
      ∀ timer, (stubRun 46).Live key timer → timer = ⟨0, 4⟩) ∧
    (stubRun 46).world.canceled? ⟨0, 3⟩ = some true ∧
    Superseded (stubRun 85).events ⟨0, 1⟩ ∧
    (∀ batch time, .flushed ⟨0, 1⟩ batch time ∉ (stubRun 85).events) ∧
    (∃ batch, .flushed ⟨0, 4⟩ (some batch) 8 ∈ (stubRun 85).events ∧ batch.args.length = 2 ∧
      ∃ k ctx m, ((Diary.tick stubHost)^[k] (stubRun 63)).world.asking? stubHost =
        some (⟨0, 4⟩, ctx, .filter m (.call batch.func batch.args))) ∧
    Cleared ⟨0⟩ (stubRun 85) := by
  have main : (conduct stubSig ⟨0⟩ 5).code (fun _ => True) stubCalls
      (⟨#[.empty], #[], 0, ()⟩ : stubSig.sig.State) := by
    refine ⟨⟨rfl, .call _ _⟩, fun _ _ => ⟨trivial, fun _ _ => ⟨⟨rfl, .call _ _⟩, fun _ _ =>
      ⟨⟨rfl, .call _ _⟩, fun outcome _ => ?_⟩⟩⟩⟩
    dsimp only
    split
    · exact fun _ => trivial
    · trivial
  have run := debounces stubClient [] ⟨0⟩ 5 (stubClient_discreet ⟨0⟩ 5) 0 _ false stubCalls main
    Nat.one_pos rfl (fun n => (stubRun_spares n).1) fun n => (stubRun_spares n).2
  have live : (stubRun 46).Live (stubTicket 1).key ⟨0, 4⟩ := by
    refine ⟨⟨stubTicket 1, ?_, BEq.rfl⟩, by decide +kernel, ?_⟩ <;> simp [stubRun_joined]
  have paused : Diary.Paused stubHost stubWorld 46 := by
    have turned : (stubRun 46).world.ready.head? ≠ (stubRun 45).world.ready.head? := by
      decide +kernel
    exact .inr turned
  have superseded : Superseded (stubRun 85).events ⟨0, 1⟩ := by
    obtain ⟨more, grown⟩ := Diary.events_after stubHost stubWorld 46 39
    have earlier : Superseded (stubRun 46).events ⟨0, 1⟩ := by
      refine ⟨stubTicket 0, 0, [], _, stubTicket 1, 3, stubRun_joined, ?_, ?_, rfl⟩ <;>
        simp [stubRun_joined]
    exact grown ▸ earlier.mono
  obtain ⟨batch, flushes, size⟩ := stubRun_flushes
  have flushed : .flushed ⟨0, 4⟩ (some batch) 8 ∈ (stubRun 85).events := by
    obtain ⟨more, grown⟩ := Diary.events_after stubHost stubWorld 64 21
    have ticked : (stubRun 64).events = (stubRun 63).events ++
        (event? stubHost (stubRun 63).world).toList := congrArg Diary.events Diary.after_succ
    rw [stubRun, grown, List.mem_append, ← stubRun, ticked, flushes]
    exact .inl (List.mem_append_right _ List.mem_cons_self)
  refine ⟨⟨(stubTicket 1).key, live, fun timer other => ?_⟩, by decide +kernel, superseded, ?_,
    ⟨batch, flushed, size, ?_⟩, ?_⟩
  · exact ((run 46).1 paused).single _ _ _ other live
  · exact (run 85).2.2.1 _ superseded
  · obtain ⟨k, -, -, -, ctx, m, calls⟩ := (run 63).2.2.2.1 _ _ _ flushes
    exact ⟨k + 1, ctx, m, calls⟩
  · exact (run 85).2.2.2.2 stubRun_stuck.1 stubRun_stuck.2

end Batch

end EffectEngine
