import EffectEngine.Proofs.Batch.Diary
import EffectEngine.Proofs.Batch.Sections

/-!
# Who runs which batch

An `Alarm` is the timer of a call that has not flushed its batch. The `Roster` of a table says that
each pending batch has one alarm that has not been cancelled, that of the last call that joined it,
and that each flush so far was in time (`Timely`). A call that joins and arms its timer keeps the
roster in order, and so does an alarm that flushes its batch.
-/

namespace EffectEngine

namespace BatchTable

variable {F : Type} {t : BatchTable F}

/-- The timer of a pending batch is replaced. -/
theorem arm_of_split {before after : List (BatchKey × PendingBatch F)} {k key : BatchKey}
    {b : PendingBatch F} (apart : t.Apart) (split : t.pending = before ++ (k, b) :: after)
    (agrees : (k == key) = true) (timer : TaskId) :
    t.arm key b.generation timer = (b.timer,
      { t with pending := before ++ (k, { b with timer := some timer }) :: after }) := by
  rw [Apart, split, List.pairwise_append, List.pairwise_cons] at apart
  obtain ⟨-, ⟨later, -⟩, sooner⟩ := apart
  have other (k' : BatchKey) (apart : (k' == k) = false) : (k' == key) = false := by
    rw [← apart]
    exact BEq.congr_right (BEq.symm agrees)
  have others : ∀ e ∈ before ++ after, (e.1 == key) = false := by
    intro e he
    refine other e.1 ?_
    rcases List.mem_append.1 he with he | he
    · exact sooner e he (k, b) List.mem_cons_self
    · rw [BEq.comm]
      exact later e he
  have found : t.find? key = some b := by
    have none : before.find? (·.1 == key) = Option.none :=
      List.find?_eq_none.2 fun e he => by simp [others e (List.mem_append_left _ he)]
    simp [find?, split, List.find?_append, none, agrees]
  simp [arm, found, put_of_split split agrees others found]

/-- A call joins a batch and arms its timer at once: its timer is the one of the batch, and the one
that it had before is to be cancelled. -/
theorem rejoin (h : t.Apart) (key : BatchKey) (func : F) (args : List Value) (promise : PromiseId)
    (timer : TaskId) :
    let placed := t.enqueue key func args promise
    let armed := placed.2.arm key placed.1.generation timer
    ∃ before k b after, armed.2.pending = before ++ (k, b) :: after ∧ (k == key) = true ∧
      b.generation = placed.1.generation ∧ b.args.length = placed.1.index + 1 ∧
      b.timer = some timer ∧ armed.2.Apart ∧
      ((t.pending = before ++ after ∧ placed.1.generation = t.generation + 1 ∧
          armed.2.generation = t.generation + 1 ∧ armed.1 = none) ∨
        ∃ b₀, t.pending = before ++ (k, b₀) :: after ∧ b₀.generation = b.generation ∧
          placed.1.index = b₀.args.length ∧ armed.2.generation = t.generation ∧
          armed.1 = b₀.timer) := by
  intro placed armed
  simp only [armed, placed]
  rcases enqueue_cases h key func args promise with
    ⟨before, k, b, after, split, agrees, joins⟩ | ⟨others, opens⟩
  · rw [joins]
    have apart {b' : PendingBatch F} :
        (⟨t.generation, before ++ (k, b') :: after⟩ : BatchTable F).Apart := by
      rw [Apart, split] at h
      simpa only [Apart, List.pairwise_append, List.pairwise_cons, List.mem_cons,
        forall_eq_or_imp] using h
    have armed := arm_of_split
      (t := ⟨t.generation, before ++ (k, { b with args := b.args ++ [.list args] }) :: after⟩)
      apart rfl agrees timer
    rw [armed]
    refine ⟨before, k, _, after, rfl, agrees, rfl, ?_, rfl, apart,
      .inr ⟨b, split, rfl, rfl, rfl, rfl⟩⟩
    exact List.length_append
  · rw [opens]
    have apart {b' : PendingBatch F} :
        (⟨t.generation + 1, t.pending ++ [(key, b')]⟩ : BatchTable F).Apart := by
      refine List.pairwise_append.2 ⟨h, List.pairwise_singleton .., fun e he e' he' => ?_⟩
      rw [List.mem_singleton.1 he']
      exact others e he
    have armed := arm_of_split
      (t := ⟨t.generation + 1,
        t.pending ++ [(key, ⟨t.generation + 1, func, [.list args], promise, none⟩)]⟩)
      apart rfl BEq.rfl timer
    rw [armed]
    refine ⟨t.pending, key, _, [], rfl, BEq.rfl, rfl, rfl, rfl, apart, .inl ⟨?_, rfl, rfl, rfl⟩⟩
    exact (List.append_nil _).symm

end BatchTable

namespace Batch

structure Alarm where
  ticket : BatchTicket
  task : TaskId
  thread : ThreadId
  /-- The identity of the operation that it delays. -/
  identity : Nat
  /-- When its call joined. -/
  time : Nat
  canceled : Bool

variable {F : Type} {d n : Nat} {events : List (BatchEvent F)} {e : BatchEvent F}
  {crew before after : List Alarm} {a : Alarm} {t : BatchTable F} {generation : Nat}

/-- The alarm once a timer has been replaced. -/
def Alarm.cancelIf (replaced : Option TaskId) (a : Alarm) : Alarm :=
  { a with canceled := a.canceled || replaced == some a.task }

def BatchEvent.joined? (generation : Nat) : BatchEvent F → Option (BatchTicket × Nat)
  | .joined ticket time =>
    if ticket.seat.generation = generation then some (ticket, time) else none
  | _ => none

/-- The calls that joined a batch, in their order, and when they did. -/
def joins (events : List (BatchEvent F)) (generation : Nat) : List (BatchTicket × Nat) :=
  events.filterMap (·.joined? generation)

def lastJoin? (events : List (BatchEvent F)) (generation : Nat) : Option (BatchTicket × Nat) :=
  (joins events generation).getLast?

/-- Every flush is made by the timer of the last call that ever joined the batch, no earlier than
the timeout after that. -/
def Timely (d : Nat) (events : List (BatchEvent F)) : Prop :=
  ∀ earlier later timer batch time, events = earlier ++ .flushed timer batch time :: later →
    ∃ b ticket joined, batch = some b ∧ .forked ticket timer ∈ earlier ∧
      lastJoin? earlier b.generation = some (ticket, joined) ∧ joined + d ≤ time ∧
      ∀ ticket' time', .joined ticket' time' ∈ later → ticket'.seat.generation ≠ b.generation

/-- The alarm is the one installed for a pending batch. -/
structure Alarm.Serves (a : Alarm) (e : BatchKey × PendingBatch F) : Prop where
  uncanceled : a.canceled = false
  timer : e.2.timer = some a.task
  generation : a.ticket.seat.generation = e.2.generation
  key : (e.1 == a.ticket.key) = true

/-- The table and the events so far agree. -/
structure Register (d : Nat) (t : BatchTable F) (events : List (BatchEvent F)) : Prop where
  apart : t.Apart
  numbered : ∀ e ∈ t.pending, e.2.generation ≤ t.generation
  distinct : (t.pending.map (·.2.generation)).Nodup
  joined : ∀ ticket time, .joined ticket time ∈ events → ticket.seat.generation ≤ t.generation
  seats : ∀ ticket time, .joined ticket time ∈ events → ∀ e ∈ t.pending,
    e.2.generation = ticket.seat.generation → ticket.seat.index < e.2.args.length
  once : ∀ generation, ((joins events generation).map (·.1)).Nodup
  accounted : ∀ ticket time, .joined ticket time ∈ events →
    (∃ e ∈ t.pending, e.2.generation = ticket.seat.generation) ∨
      ∃ timer b time, .flushed timer (some b) time ∈ events ∧
        b.generation = ticket.seat.generation
  taken : ∀ timer b time, .flushed timer (some b) time ∈ events → b.generation ≤ t.generation ∧
    ∀ e ∈ t.pending, e.2.generation ≠ b.generation
  timely : Timely d events

/-- The alarms, the table and the events so far agree; all timers are among the first `n` tasks. -/
structure Roster (d n : Nat) (crew : List Alarm) (t : BatchTable F) (events : List (BatchEvent F)) :
    Prop extends Register d t events where
  tasks : (crew.map (·.task.index)).Nodup
  installed : ∀ e ∈ t.pending, ∃ a ∈ crew, a.Serves e ∧
    lastJoin? events e.2.generation = some (a.ticket, a.time)
  live : ∀ a ∈ crew, a.canceled = false → ∃ e ∈ t.pending, e.2.timer = some a.task
  forked : ∀ a ∈ crew, .forked a.ticket a.task ∈ events
  known : ∀ ticket timer, .forked ticket timer ∈ events → timer.index < n ∧
    ((∃ a ∈ crew, a.task = timer) ∨ ∃ batch time, .flushed timer batch time ∈ events)
  single : ∀ ticket ticket' timer, .forked ticket timer ∈ events →
    .forked ticket' timer ∈ events → ticket = ticket'
  unflushed : ∀ a ∈ crew, ∀ batch time, .flushed a.task batch time ∉ events

/-! ### Joins -/

theorem joins_append (earlier later : List (BatchEvent F)) (generation : Nat) :
    joins (earlier ++ later) generation = joins earlier generation ++ joins later generation :=
  List.filterMap_append

theorem joins_snoc_other (other : e.joined? generation = none) :
    joins (events ++ [e]) generation = joins events generation := by
  simp [joins, List.filterMap_append, other]

theorem joins_snoc (ticket : BatchTicket) (time : Nat) :
    joins (events ++ [.joined ticket time]) ticket.seat.generation =
      joins events ticket.seat.generation ++ [(ticket, time)] := by
  simp [joins, List.filterMap_append, BatchEvent.joined?]

theorem mem_joins {ticket : BatchTicket} {time : Nat} :
    (ticket, time) ∈ joins events generation ↔
      .joined ticket time ∈ events ∧ ticket.seat.generation = generation := by
  refine List.mem_filterMap.trans ⟨?_, fun ⟨joined, same⟩ => ⟨_, joined, if_pos same⟩⟩
  rintro ⟨e, happened, joins⟩
  unfold BatchEvent.joined? at joins
  split at joins
  · split at joins
    · rename_i same
      obtain ⟨rfl, rfl⟩ := Prod.mk.inj (Option.some.inj joins)
      exact ⟨happened, same⟩
    · cases joins
  · cases joins

theorem lastJoin?_snoc_other (other : e.joined? generation = none) :
    lastJoin? (events ++ [e]) generation = lastJoin? events generation :=
  congrArg List.getLast? (joins_snoc_other other)

theorem lastJoin?_snoc (ticket : BatchTicket) (time : Nat) :
    lastJoin? (events ++ [.joined ticket time]) ticket.seat.generation = some (ticket, time) := by
  rw [lastJoin?, joins_snoc, List.getLast?_append_of_ne_nil _ (List.cons_ne_nil _ _)]
  rfl

/-! ### Timely events -/

theorem Timely.of_append {later : List (BatchEvent F)} (h : Timely d (events ++ later)) :
    Timely d events := by
  intro earlier rest timer batch time split
  obtain ⟨b, ticket, joined, taken, forked, last, due, none⟩ :=
    h earlier (rest ++ later) timer batch time (by rw [split, List.append_assoc]; rfl)
  refine ⟨b, ticket, joined, taken, forked, last, due, fun ticket' time' hj => ?_⟩
  exact none ticket' time' (List.mem_append_left _ hj)

/-- What is no flush has to be no join of a batch that has been flushed. -/
theorem Timely.snoc (h : Timely d events)
    (noFlush : ∀ timer batch time, e ≠ .flushed timer batch time)
    (noJoin : ∀ ticket time timer b time', e = .joined ticket time →
      .flushed timer (some b) time' ∈ events → ticket.seat.generation ≠ b.generation) :
    Timely d (events ++ [e]) := by
  intro earlier later timer batch time split
  rcases List.eq_nil_or_concat later with rfl | ⟨later, last, rfl⟩
  · obtain ⟨-, same⟩ := List.append_inj' split rfl
    exact absurd (List.cons.inj same).1 (noFlush timer batch time)
  · rw [List.concat_eq_append, ← List.cons_append, ← List.append_assoc] at split
    obtain ⟨rfl, same⟩ := List.append_inj' split rfl
    obtain rfl := (List.cons.inj same).1
    obtain ⟨b, ticket, joined, rfl, forked, latest, due, none⟩ :=
      h earlier later timer batch time rfl
    refine ⟨b, ticket, joined, rfl, forked, latest, due, fun ticket' time' hj => ?_⟩
    rw [List.concat_eq_append] at hj
    rcases List.mem_append.1 hj with old | new
    · exact none ticket' time' old
    · exact noJoin ticket' time' timer b time (List.mem_singleton.1 new).symm (by simp)

theorem Timely.flushed (h : Timely d events) {timer : TaskId} {b : PendingBatch F} {time : Nat}
    {ticket : BatchTicket} {joined : Nat} (forked : .forked ticket timer ∈ events)
    (last : lastJoin? events b.generation = some (ticket, joined)) (due : joined + d ≤ time) :
    Timely d (events ++ [.flushed timer (some b) time]) := by
  intro earlier later timer' batch time' split
  rcases List.eq_nil_or_concat later with rfl | ⟨later, last', rfl⟩
  · obtain ⟨rfl, same⟩ := List.append_inj' split rfl
    obtain ⟨rfl, rfl, rfl⟩ := BatchEvent.flushed.inj (List.cons.inj same).1
    exact ⟨b, ticket, joined, rfl, forked, last, due, nofun⟩
  · rw [List.concat_eq_append, ← List.cons_append, ← List.append_assoc] at split
    obtain ⟨rfl, same⟩ := List.append_inj' split rfl
    obtain rfl := (List.cons.inj same).1
    obtain ⟨b', ticket', joined', rfl, forked', latest, due', none⟩ :=
      h earlier later timer' batch time' rfl
    refine ⟨b', ticket', joined', rfl, forked', latest, due', fun ticket'' time'' hj => ?_⟩
    rw [List.concat_eq_append] at hj
    rcases List.mem_append.1 hj with old | new
    · exact none ticket'' time'' old
    · cases List.mem_singleton.1 new

/-! ### Joining -/

/-- What a call that joins and arms its timer makes of the table: the batch of the call has the
timer, all others are as they were. -/
structure Rejoined (t t' : BatchTable F) (events : List (BatchEvent F)) (ticket : BatchTicket)
    (timer : TaskId) (replaced : Option TaskId) (e : BatchKey × PendingBatch F)
    (others : List (BatchKey × PendingBatch F)) : Prop where
  apart : t'.Apart
  pending : ∀ e', e' ∈ t'.pending ↔ e' = e ∨ e' ∈ others
  key : (e.1 == ticket.key) = true
  generation : e.2.generation = ticket.seat.generation
  seat : ticket.seat.index < e.2.args.length
  timer : e.2.timer = some timer
  older : ∀ e' ∈ others, e' ∈ t.pending ∧ e'.2.generation ≠ ticket.seat.generation
  stays : ∀ e' ∈ t.pending, e' ∈ others ∨
    e'.2.generation = ticket.seat.generation ∧ e'.2.timer = replaced
  replaces : ∀ old ∈ replaced, ∃ e' ∈ t.pending,
    e'.2.generation = ticket.seat.generation ∧ e'.2.timer = some old
  distinct : (t'.pending.map (·.2.generation)).Nodup
  grown : t.generation ≤ t'.generation
  numbered : ticket.seat.generation ≤ t'.generation
  latest : ∀ ticket' time, .joined ticket' time ∈ events →
    ticket'.seat.generation = ticket.seat.generation → ticket'.seat.index < ticket.seat.index
  untaken : ∀ timer' b time, .flushed timer' (some b) time ∈ events →
    ticket.seat.generation ≠ b.generation

namespace Register

theorem rejoin (h : Register d t events) (ticket : BatchTicket) (func : F) (args : List Value)
    (promise : PromiseId) (seat : ticket.seat = (t.enqueue ticket.key func args promise).1)
    (timer : TaskId) :
    let armed :=
      (t.enqueue ticket.key func args promise).2.arm ticket.key ticket.seat.generation timer
    ∃ e others, Rejoined t armed.2 events ticket timer armed.1 e others := by
  intro armed
  have spec := BatchTable.rejoin h.apart ticket.key func args promise timer
  simp only [← seat] at spec
  obtain ⟨before, k, b, after, pending, agrees, generation, length, installs, apart, cases⟩ := spec
  have members (e' : BatchKey × PendingBatch F) :
      e' ∈ armed.2.pending ↔ e' = (k, b) ∨ e' ∈ before ++ after := by
    rw [show armed.2.pending = _ from pending]
    exact mem_place
  have perm : (armed.2.pending.map (·.2.generation)).Perm
      (ticket.seat.generation :: (before ++ after).map (·.2.generation)) := by
    rw [show armed.2.pending = _ from pending, ← generation]
    exact (List.perm_middle (a := (k, b))).map (·.2.generation)
  have seat : ticket.seat.index < b.args.length := length ▸ Nat.lt_succ_self _
  refine ⟨(k, b), before ++ after, ?_⟩
  rcases cases with ⟨old, new, count, none⟩ | ⟨b₀, old, same, index, count, replaces⟩
  · have later : ∀ e' ∈ before ++ after, e'.2.generation < ticket.seat.generation := by
      intro e' he
      rw [new]
      exact Nat.lt_succ_of_le (h.numbered e' (old ▸ he))
    exact
      { apart, pending := members, key := agrees, generation, seat, timer := installs
        older := fun e' he => ⟨old ▸ he, Nat.ne_of_lt (later e' he)⟩
        stays := fun e' he => .inl (old ▸ he)
        replaces := by
          rw [show armed.1 = _ from none]
          exact nofun
        distinct := by
          refine perm.nodup_iff.2 (List.nodup_cons.2 ⟨fun listed => ?_, old ▸ h.distinct⟩)
          obtain ⟨e', he, same⟩ := List.mem_map.1 listed
          exact Nat.ne_of_lt (later e' he) same
        grown := by
          rw [show armed.2.generation = _ from count]
          exact Nat.le_succ _
        numbered := Nat.le_of_eq (new.trans (show armed.2.generation = _ from count).symm)
        latest := fun ticket' time joined same => by
          have := h.joined ticket' time joined
          omega
        untaken := fun timer' b' time flushed => by
          have := (h.taken timer' b' time flushed).1
          omega }
  · have generation₀ : b₀.generation = ticket.seat.generation := same.trans generation
    have pending₀ : (k, b₀) ∈ t.pending := by
      rw [old]
      exact List.mem_append_right _ List.mem_cons_self
    have distinct := h.distinct
    rw [old] at distinct
    exact
      { apart, pending := members, key := agrees, generation, seat, timer := installs
        older := fun e' he =>
          ⟨old ▸ mem_of_rest he, fun equal => ne_of_rest distinct he (equal.trans generation₀.symm)⟩
        stays := by
          intro e' he
          rcases mem_place.1 (old ▸ he) with rfl | he
          · exact .inr ⟨generation₀, replaces.symm⟩
          · exact .inl he
        replaces := by
          rw [show armed.1 = _ from replaces]
          exact fun timer' same => ⟨_, pending₀, generation₀, same⟩
        distinct := by
          refine perm.nodup_iff.2 ?_
          rw [← generation₀]
          exact ((List.perm_middle.map _).nodup_iff.1 distinct :)
        grown := Nat.le_of_eq (show armed.2.generation = _ from count).symm
        numbered := by
          rw [show armed.2.generation = _ from count, ← generation₀]
          exact h.numbered _ pending₀
        latest := fun ticket' time joined same => by
          rw [index]
          exact h.seats ticket' time joined _ pending₀ (generation₀.trans same.symm)
        untaken := fun timer' b' time flushed => by
          rw [← generation₀]
          exact (h.taken timer' b' time flushed).2 _ pending₀ }

variable {t' : BatchTable F} {ticket : BatchTicket} {timer : TaskId} {replaced : Option TaskId}
  {e : BatchKey × PendingBatch F} {others : List (BatchKey × PendingBatch F)}

theorem join (h : Register d t events) (spec : Rejoined t t' events ticket timer replaced e others)
    (time : Nat) : Register d t' (events ++ [.joined ticket time] ++ [.forked ticket timer]) := by
  let events' := events ++ [.joined ticket time] ++ [.forked ticket timer]
  have old {x : BatchEvent F} (hx : x ∈ events) : x ∈ events' := by simp [events', hx]
  have joined {ticket' : BatchTicket} {time' : Nat} (joined : .joined ticket' time' ∈ events') :
      .joined ticket' time' ∈ events ∨ ticket' = ticket := by
    simp only [events', List.mem_append, List.mem_singleton, reduceCtorEq, or_false,
      BatchEvent.joined.injEq] at joined
    exact joined.imp_right And.left
  have flushed {timer' : TaskId} {b : Option (PendingBatch F)} {time' : Nat}
      (flushed : .flushed timer' b time' ∈ events') : .flushed timer' b time' ∈ events := by
    simpa [events'] using flushed
  exact
    { apart := spec.apart
      numbered := by
        intro e' he
        rcases (spec.pending e').1 he with rfl | he
        · exact spec.generation ▸ spec.numbered
        · exact Nat.le_trans (h.numbered e' (spec.older e' he).1) spec.grown
      distinct := spec.distinct
      joined := by
        intro ticket' time' happened
        rcases joined happened with old | rfl
        · exact Nat.le_trans (h.joined ticket' time' old) spec.grown
        · exact spec.numbered
      seats := by
        intro ticket' time' happened e' he same
        rcases (spec.pending e').1 he with rfl | he
        · rcases joined happened with old | rfl
          · have := spec.latest ticket' time' old (same.symm.trans spec.generation)
            exact Nat.lt_trans this spec.seat
          · exact spec.seat
        · obtain ⟨pending, other⟩ := spec.older e' he
          rcases joined happened with old | rfl
          · exact h.seats ticket' time' old e' pending same
          · exact absurd same other
      once := by
        intro generation
        rw [joins_snoc_other rfl]
        by_cases same : ticket.seat.generation = generation
        · subst same
          rw [joins_snoc, List.map_append]
          refine List.nodup_append.2 ⟨h.once _, List.nodup_singleton _, ?_⟩
          rintro _ listed _ new rfl
          obtain ⟨⟨ticket', time'⟩, earlier, rfl⟩ := List.mem_map.1 listed
          obtain rfl : ticket' = ticket := List.mem_singleton.1 new
          exact Nat.lt_irrefl _ (spec.latest ticket' time' (mem_joins.1 earlier).1 rfl)
        · have elsewhere : (.joined ticket time : BatchEvent F).joined? generation = none :=
            if_neg same
          rw [joins_snoc_other elsewhere]
          exact h.once generation
      accounted := by
        intro ticket' time' happened
        rcases joined happened with joined | rfl
        · refine (h.accounted ticket' time' joined).imp ?_ ?_
          · rintro ⟨e', he, same⟩
            rcases spec.stays e' he with he | ⟨generation, -⟩
            · exact ⟨e', (spec.pending e').2 (.inr he), same⟩
            · exact ⟨e, (spec.pending e).2 (.inl rfl),
                spec.generation.trans (generation.symm.trans same)⟩
          · exact fun ⟨timer', b, time'', flushed, same⟩ => ⟨timer', b, time'', old flushed, same⟩
        · exact .inl ⟨e, (spec.pending e).2 (.inl rfl), spec.generation⟩
      taken := by
        intro timer' b time' happened
        obtain ⟨bound, apart⟩ := h.taken timer' b time' (flushed happened)
        refine ⟨Nat.le_trans bound spec.grown, fun e' he => ?_⟩
        rcases (spec.pending e').1 he with rfl | he
        · exact spec.generation ▸ spec.untaken timer' b time' (flushed happened)
        · exact apart e' (spec.older e' he).1
      timely := by
        have joins : Timely d (events ++ [.joined ticket time]) := by
          refine h.timely.snoc (fun _ _ _ => nofun) fun _ _ timer' b time' joined flushed => ?_
          obtain ⟨rfl, -⟩ := BatchEvent.joined.inj joined
          exact spec.untaken timer' b time' flushed
        exact joins.snoc (fun _ _ _ => nofun) fun _ _ _ _ _ => nofun }

/-- A batch is taken by the timer of the last call that joined it. -/
theorem flush (h : Register d t events) {sooner later : List (BatchKey × PendingBatch F)}
    {k : BatchKey} {b : PendingBatch F} (pending : t.pending = sooner ++ (k, b) :: later)
    {ticket : BatchTicket} {timer : TaskId} {joined time : Nat}
    (forked : .forked ticket timer ∈ events)
    (last : lastJoin? events b.generation = some (ticket, joined)) (due : joined + d ≤ time) :
    Register d { t with pending := sooner ++ later }
      (events ++ [.flushed timer (some b) time]) := by
  have left {e : BatchKey × PendingBatch F} (he : e ∈ sooner ++ later) : e ∈ t.pending :=
    pending ▸ mem_of_rest he
  have present : (k, b) ∈ t.pending := pending ▸ mem_place.2 (.inl rfl)
  have distinct := h.distinct
  rw [pending] at distinct
  let events' := events ++ [.flushed timer (some b) time]
  have old {x : BatchEvent F} (hx : x ∈ events) : x ∈ events' := List.mem_append_left _ hx
  have joined {ticket' : BatchTicket} {time' : Nat} (joined : .joined ticket' time' ∈ events') :
      .joined ticket' time' ∈ events := by
    simpa [events'] using joined
  exact
    { apart := by
        have apart := h.apart
        rw [BatchTable.Apart, pending] at apart
        exact apart.sublist rest_sublist
      numbered := fun e he => h.numbered e (left he)
      distinct := distinct.sublist (rest_sublist.map _)
      joined := fun ticket' time' happened => h.joined ticket' time' (joined happened)
      seats :=
        fun ticket' time' happened e he => h.seats ticket' time' (joined happened) e (left he)
      once := by
        intro generation
        rw [joins_snoc_other rfl]
        exact h.once generation
      accounted := by
        intro ticket' time' happened
        rcases h.accounted ticket' time' (joined happened) with
          ⟨e, he, same⟩ | ⟨_, _, _, flushed, same⟩
        · rcases mem_place.1 (pending ▸ he) with rfl | he
          · exact .inr ⟨timer, b, time, List.mem_append_right _ (List.mem_singleton_self _), same⟩
          · exact .inl ⟨e, he, same⟩
        · exact .inr ⟨_, _, _, old flushed, same⟩
      taken := by
        intro timer' b' time' happened
        rcases List.mem_append.1 happened with flushed | new
        · obtain ⟨bound, untaken⟩ := h.taken timer' b' time' flushed
          exact ⟨bound, fun e he => untaken e (left he)⟩
        · obtain ⟨-, taken, -⟩ := BatchEvent.flushed.inj (List.mem_singleton.1 new)
          obtain rfl := Option.some.inj taken
          exact ⟨h.numbered _ present, fun e he same => ne_of_rest distinct he same⟩
      timely := h.timely.flushed forked last due }

end Register

theorem Alarm.uncanceled_of_cancelIf {replaced : Option TaskId}
    (h : (a.cancelIf replaced).canceled = false) :
    a.canceled = false ∧ replaced ≠ some a.task := by
  simpa [Alarm.cancelIf] using h

namespace Roster

theorem mono {n' : Nat} (h : Roster d n crew t events) (le : n ≤ n') :
    Roster d n' crew t events :=
  { h with known := fun ticket timer forked =>
      ⟨Nat.lt_of_lt_of_le (h.known ticket timer forked).1 le, (h.known ticket timer forked).2⟩ }

theorem empty (d n : Nat) : Roster d n [] (.empty : BatchTable F) [] := by
  refine ⟨⟨?_, ?_, ?_, ?_, ?_, ?_, ?_, ?_, ?_⟩, ?_, ?_, ?_, ?_, ?_, ?_, ?_⟩ <;>
    simp [BatchTable.empty, BatchTable.Apart, Timely, joins]

/-- Alarms of one task are one. -/
theorem eq_of_task (h : Roster d n crew t events) {a a' : Alarm} (ha : a ∈ crew) (ha' : a' ∈ crew)
    (same : a.task = a'.task) : a = a' :=
  List.inj_on_of_nodup_map h.tasks ha ha' (congrArg TaskId.index same)

/-- All flushes so far were made by timers that had been forked. -/
theorem known_of_flushed (h : Roster d n crew t events) {timer : TaskId}
    {batch : Option (PendingBatch F)} {time : Nat} (flushed : .flushed timer batch time ∈ events) :
    timer.index < n := by
  obtain ⟨earlier, later, rfl⟩ := List.append_of_mem flushed
  obtain ⟨_, ticket, _, -, forked, -⟩ := h.timely earlier later timer batch time rfl
  exact (h.known ticket timer (List.mem_append_left _ forked)).1

/-- Batches that have one timer are one. -/
theorem generation_of_timer (h : Roster d n crew t events) {e e' : BatchKey × PendingBatch F}
    (he : e ∈ t.pending) (he' : e' ∈ t.pending) {timer : TaskId} (timed : e.2.timer = some timer)
    (timed' : e'.2.timer = some timer) : e.2.generation = e'.2.generation := by
  obtain ⟨a, ha, serves, -⟩ := h.installed e he
  obtain ⟨a', ha', serves', -⟩ := h.installed e' he'
  have same := (serves.timer.symm.trans timed).trans (timed'.symm.trans serves'.timer)
  obtain rfl := h.eq_of_task ha ha' (Option.some.inj same)
  exact serves.generation.symm.trans serves'.generation

/-- A call joins, forks its timer and arms it. -/
theorem join (h : Roster d n crew t events) (ticket : BatchTicket) (func : F) (args : List Value)
    (promise : PromiseId) (seat : ticket.seat = (t.enqueue ticket.key func args promise).1)
    {timer : TaskId} (new : n ≤ timer.index) (thread : ThreadId) (identity time : Nat) :
    let armed :=
      (t.enqueue ticket.key func args promise).2.arm ticket.key ticket.seat.generation timer
    (∀ old ∈ armed.1, ∃ a ∈ crew, a.task = old) ∧
      Roster d (timer.index + 1)
        (crew.map (·.cancelIf armed.1) ++ [⟨ticket, timer, thread, identity, time, false⟩]) armed.2
        (events ++ [.joined ticket time] ++ [.forked ticket timer]) := by
  intro armed
  obtain ⟨e, others, spec⟩ := h.rejoin ticket func args promise seat timer
  have alarm : ∀ old ∈ armed.1, ∃ a ∈ crew, a.task = old := by
    intro old replaced
    obtain ⟨e₀, pending, -, timed⟩ := spec.replaces old replaced
    obtain ⟨a, ha, serves, -⟩ := h.installed e₀ pending
    exact ⟨a, ha, Option.some.inj (serves.timer.symm.trans timed)⟩
  let newest : Alarm := ⟨ticket, timer, thread, identity, time, false⟩
  let crew' := crew.map (·.cancelIf armed.1) ++ [newest]
  let events' := events ++ [.joined ticket time] ++ [.forked ticket timer]
  have old {x : BatchEvent F} (hx : x ∈ events) : x ∈ events' := by simp [events', hx]
  have forked {ticket' : BatchTicket} {timer' : TaskId}
      (forked : .forked ticket' timer' ∈ events') :
      .forked ticket' timer' ∈ events ∨ ticket' = ticket ∧ timer' = timer := by
    simpa [events'] using forked
  have flushed {timer' : TaskId} {b : Option (PendingBatch F)} {time' : Nat}
      (flushed : .flushed timer' b time' ∈ events') : .flushed timer' b time' ∈ events := by
    simpa [events'] using flushed
  have enlisted {a' : Alarm} (ha : a' ∈ crew') :
      (∃ a ∈ crew, a' = a.cancelIf armed.1) ∨ a' = newest := by
    rcases List.mem_append.1 ha with ha | ha
    · obtain ⟨a, member, rfl⟩ := List.mem_map.1 ha
      exact .inl ⟨a, member, rfl⟩
    · exact .inr (List.mem_singleton.1 ha)
  have present : newest ∈ crew' := by simp [crew']
  have stays {a : Alarm} (ha : a ∈ crew) : a.cancelIf armed.1 ∈ crew' :=
    List.mem_append_left _ (List.mem_map_of_mem ha)
  have fresh (ticket' : BatchTicket) (forked : .forked ticket' timer ∈ events) : False :=
    Nat.not_le_of_lt (h.known ticket' timer forked).1 new
  refine ⟨alarm, ?_⟩
  exact
    { toRegister := h.toRegister.join spec time
      tasks := by
        have same : crew'.map (·.task.index) = crew.map (·.task.index) ++ [timer.index] := by
          simp [crew', newest, Alarm.cancelIf, Function.comp_def]
        rw [show (crew.map (·.cancelIf armed.1) ++ [newest]).map (·.task.index) = _ from same]
        refine List.nodup_append.2 ⟨h.tasks, List.nodup_singleton _, ?_⟩
        intro i hi j hj
        obtain ⟨a, ha, rfl⟩ := List.mem_map.1 hi
        rw [List.mem_singleton.1 hj]
        exact Nat.ne_of_lt (Nat.lt_of_lt_of_le (h.known a.ticket a.task (h.forked a ha)).1 new)
      installed := by
        intro e' he
        rcases (spec.pending e').1 he with rfl | he
        · refine ⟨newest, present, ⟨rfl, spec.timer, spec.generation.symm, spec.key⟩, ?_⟩
          rw [spec.generation, lastJoin?_snoc_other rfl, lastJoin?_snoc]
        · obtain ⟨pending, other⟩ := spec.older e' he
          obtain ⟨a, ha, serves, last⟩ := h.installed e' pending
          have spared : armed.1 ≠ some a.task := by
            intro replaced
            obtain ⟨e₀, pending₀, generation, timed⟩ := spec.replaces a.task replaced
            have shared := h.generation_of_timer pending pending₀ serves.timer timed
            exact other (shared.trans generation)
          refine ⟨_, stays ha, ⟨?_, serves.timer, serves.generation, serves.key⟩, ?_⟩
          · simpa [Alarm.cancelIf, serves.uncanceled] using spared
          · have elsewhere : (.joined ticket time : BatchEvent F).joined? e'.2.generation = none :=
              if_neg other.symm
            rw [lastJoin?_snoc_other rfl, lastJoin?_snoc_other elsewhere]
            exact last
      live := by
        intro a' ha calm
        rcases enlisted ha with ⟨a, member, rfl⟩ | rfl
        · obtain ⟨calm, spared⟩ := Alarm.uncanceled_of_cancelIf calm
          obtain ⟨e', he, timed⟩ := h.live a member calm
          rcases spec.stays e' he with he | ⟨-, replaced⟩
          · exact ⟨e', (spec.pending e').2 (.inr he), timed⟩
          · exact absurd (replaced.symm.trans timed) spared
        · exact ⟨e, (spec.pending e).2 (.inl rfl), spec.timer⟩
      forked := by
        intro a' ha
        rcases enlisted ha with ⟨a, member, rfl⟩ | rfl
        · exact old (h.forked a member)
        · simp [newest]
      known := by
        intro ticket' timer' happened
        rcases forked happened with happened | ⟨rfl, rfl⟩
        · obtain ⟨bound, known⟩ := h.known ticket' timer' happened
          refine ⟨by omega, known.imp ?_ ?_⟩
          · exact fun ⟨a, ha, same⟩ => ⟨_, stays ha, same⟩
          · exact fun ⟨batch, time', flushed⟩ => ⟨batch, time', old flushed⟩
        · exact ⟨Nat.lt_succ_self _, .inl ⟨newest, present, rfl⟩⟩
      single := by
        intro ticket₁ ticket₂ timer' forked₁ forked₂
        rcases forked forked₁ with old₁ | ⟨rfl, rfl⟩
        · rcases forked forked₂ with old₂ | ⟨-, rfl⟩
          · exact h.single ticket₁ ticket₂ timer' old₁ old₂
          · exact (fresh ticket₁ old₁).elim
        · rcases forked forked₂ with old₂ | ⟨rfl, -⟩
          · exact (fresh ticket₂ old₂).elim
          · rfl
      unflushed := by
        intro a' ha batch time' happened
        rcases enlisted ha with ⟨a, member, rfl⟩ | rfl
        · exact h.unflushed a member batch time' (flushed happened)
        · exact Nat.not_le_of_lt (h.known_of_flushed (flushed happened)) new }

/-- An alarm that has not been cancelled takes its batch. -/
theorem flush (h : Roster d n crew t events) (split : crew = before ++ a :: after)
    (calm : a.canceled = false) {time : Nat} (due : a.time + d ≤ time) :
    ∃ b, (t.take a.ticket.key).1 = some b ∧
      Roster d n (before ++ after) (t.take a.ticket.key).2
        (events ++ [.flushed a.task (some b) time]) := by
  have member : a ∈ crew := split ▸ mem_place.2 (.inl rfl)
  have others {a' : Alarm} (ha : a' ∈ before ++ after) : a' ∈ crew := split ▸ mem_of_rest ha
  have other {a' : Alarm} (ha : a' ∈ crew) (different : a' ≠ a) : a' ∈ before ++ after :=
    (mem_place.1 (split ▸ ha)).resolve_left different
  have tasks := h.tasks
  rw [split] at tasks
  -- The batch that has this timer is the one pending under its key.
  obtain ⟨e, pending, timed⟩ := h.live a member calm
  obtain ⟨a', ha', serves, last⟩ := h.installed e pending
  obtain rfl : a' = a := h.eq_of_task ha' member (Option.some.inj (serves.timer.symm.trans timed))
  rcases BatchTable.take_split h.apart a'.ticket.key with
    ⟨-, none⟩ | ⟨sooner, k, b, later, pending', took, apart⟩
  · exact absurd (none e pending) (by simp [serves.key])
  obtain rfl : e = (k, b) := by
    refine (mem_place.1 (pending' ▸ pending)).resolve_right fun he => ?_
    exact absurd (apart e he) (by simp [serves.key])
  refine ⟨b, by rw [took], ?_⟩
  rw [took]
  have register := h.toRegister.flush pending' (h.forked a' member) last due
  have left {e : BatchKey × PendingBatch F} (he : e ∈ sooner ++ later) : e ∈ t.pending :=
    pending' ▸ mem_of_rest he
  let events' := events ++ [.flushed a'.task (some b) time]
  have old {x : BatchEvent F} (hx : x ∈ events) : x ∈ events' := List.mem_append_left _ hx
  have forked {ticket : BatchTicket} {timer : TaskId} (forked : .forked ticket timer ∈ events') :
      .forked ticket timer ∈ events := by
    simpa [events'] using forked
  exact
    { toRegister := register
      tasks := tasks.sublist (rest_sublist.map _)
      installed := by
        intro e he
        obtain ⟨a, ha, serves', last'⟩ := h.installed e (left he)
        refine ⟨a, other ha ?_, serves', (lastJoin?_snoc_other rfl).trans last'⟩
        rintro rfl
        have taken : .flushed a.task (some b) time ∈ events' :=
          List.mem_append_right _ (List.mem_singleton_self _)
        refine (register.taken a.task b time taken).2 e he ?_
        exact serves'.generation.symm.trans serves.generation
      live := by
        intro a ha calm
        obtain ⟨e, pending, timed'⟩ := h.live a (others ha) calm
        refine ⟨e, (mem_place.1 (pending' ▸ pending)).resolve_left ?_, timed'⟩
        rintro rfl
        have same := Option.some.inj (timed'.symm.trans timed)
        exact ne_of_rest tasks ha (congrArg TaskId.index same)
      forked := fun a ha => old (h.forked a (others ha))
      known := by
        intro ticket timer happened
        obtain ⟨bound, known⟩ := h.known ticket timer (forked happened)
        refine ⟨bound, ?_⟩
        rcases known with ⟨a, ha, rfl⟩ | ⟨batch, time', flushed⟩
        · by_cases same : a = a'
          · exact .inr ⟨some b, time, by simp [same]⟩
          · exact .inl ⟨a, other ha same, rfl⟩
        · exact .inr ⟨batch, time', old flushed⟩
      single := by
        exact fun ticket₁ ticket₂ timer forked₁ forked₂ =>
          h.single ticket₁ ticket₂ timer (forked forked₁) (forked forked₂)
      unflushed := by
        intro a ha batch time' happened
        rcases List.mem_append.1 happened with flushed | new
        · exact h.unflushed a (others ha) batch time' flushed
        · obtain ⟨same, -, -⟩ := BatchEvent.flushed.inj (List.mem_singleton.1 new)
          exact ne_of_rest tasks ha (congrArg TaskId.index same) }

end Roster

end Batch

end EffectEngine
