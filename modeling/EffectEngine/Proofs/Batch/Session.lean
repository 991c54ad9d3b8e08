import EffectEngine.Proofs.Batch.Sections
import Mathlib.Logic.Relation

/-!
# Sessions of batched calls

A `Session` is a world together with the generators of the batched calls and of the timers that
share a context. A `Step` runs one section of their code: a call is handled, a timer fires, a
generator is resumed, gets the outcome it waits for, or is dropped; or something else happens that
leaves the table of the context and the promises of its batches alone. `Session.Sound` says where
every generator stands, what the promise of its batch holds and that the `Book` of the session is in
order.
-/

namespace EffectEngine.Batch

/-- What a generator is doing: it rests until it is resumed, waits for an effect, or has been
dropped. -/
inductive Activity (S : Sig) where
  | resting (g : S.Gen)
  | busy (code : S.Code (S.Signal × S.Gen))
  | gone

/-- What a generator serves: a call that joined a batch, or a timer that fired and took a batch, if
there was one. -/
inductive Role (φ κ : Type) where
  | call (j : Joined φ κ)
  | timer (batch : Option (PendingBatch (GeneratorFn φ κ)))

namespace Role

variable {φ κ : Type}

def joined? : Role φ κ → Option (Joined φ κ)
  | call j => some j
  | timer _ => none

def batch? : Role φ κ → Option (PendingBatch (GeneratorFn φ κ))
  | call _ => none
  | timer batch => batch

end Role

/-- A generator of a session, with all that it was resumed with and all that it yielded so far. -/
structure Member (T : ClientSig) where
  role : Role T.Target T.Grouping
  activity : Activity T.sig
  inputs : List Resume
  yields : List T.sig.Yielded

/-- The member once its code has run until it ended or had to wait. -/
def Member.settle {T : ClientSig} (m : Member T) : T.sig.Code (T.sig.Signal × T.sig.Gen) → Member T
  | .done (.yielded y, g) => { m with activity := .resting g, yields := m.yields ++ [y] }
  | .done (.complete _, g) => { m with activity := .resting g }
  | .panic _ => { m with activity := .gone }
  | code => { m with activity := .busy code }

theorem Member.role_settle {T : ClientSig} (m : Member T)
    (code : T.sig.Code (T.sig.Signal × T.sig.Gen)) : (m.settle code).role = m.role := by
  unfold settle
  split <;> rfl

theorem Member.inputs_settle {T : ClientSig} (m : Member T)
    (code : T.sig.Code (T.sig.Signal × T.sig.Gen)) : (m.settle code).inputs = m.inputs := by
  unfold settle
  split <;> rfl

structure Session (T : ClientSig) where
  world : World T.sig
  members : List (Member T)

namespace Session

variable {T : ClientSig}

/-- The batches that timers took. -/
def taken (s : Session T) : List (PendingBatch T.Fn) := s.members.filterMap (·.role.batch?)

/-- The calls that joined batches, in the order in which they did. -/
def joined (s : Session T) : List (Joined T.Target T.Grouping) :=
  s.members.filterMap (·.role.joined?)

def book (s : Session T) (ctx : ContextId) : Book T.Target T.Grouping :=
  ⟨tableOf ctx s.world, s.taken, s.joined⟩

/-- All batches opened so far: the pending ones and those taken. -/
def batches (s : Session T) (ctx : ContextId) : List (PendingBatch T.Fn) := (s.book ctx).batches

/-- A session begins with a context without a table. -/
structure Opens (ctx : ContextId) (s : Session T) : Prop where
  context : ctx.index < s.world.state.contexts.size
  table : table? (ctx.slots s.world.state) = none
  members : s.members = []

/-- What other code can do to the world: the table and the promises of batches are private to the
batching code. -/
structure Spares (ctx : ContextId) (s : Session T) (w : World T.sig) : Prop where
  contexts : s.world.state.contexts.size ≤ w.state.contexts.size
  table : tableOf ctx w = tableOf ctx s.world
  promises : s.world.promises.size ≤ w.promises.size
  kept : ∀ b ∈ s.batches ctx, w.promises[b.promise.index]? = s.world.promises[b.promise.index]?

/-- The session with a new generator. -/
def enlist (s : Session T) (w : World T.sig) (role : Role T.Target T.Grouping)
    (opening : Opening T.sig.Gen T.Fn) : Session T :=
  ⟨w, s.members ++ [⟨role, .resting (.ofOpening opening), [], []⟩]⟩

/-- One section of the code of a session. -/
inductive Step (c : Client T) (ctx : ContextId) (s : Session T) : Session T → Prop
  /-- The middleware handles a call of a batched function with a truthy key. -/
  | call (func underlying : T.Fn) (grouping : T.Grouping) (args : List Value) (key : Value)
      (timeout : Nat) (ticket : BatchTicket) (w w' : World T.sig)
      (batched : func.batched? = some (underlying, grouping))
      (keyed : s.world.runSync (c.key grouping args) = (.ok key, w)) (spares : s.Spares ctx w)
      (truthy : key.isTruthy = true)
      (handled : s.world.runSync (c.handleMw (.batchCalls timeout) (.call func args) ctx) =
        (.ok (.ok (.ofOpening (.batch ticket))), w')) :
      Step c ctx s (s.enlist w' (.call ⟨underlying, key, args, ticket.seat⟩) (.batch ticket))
  /-- The operation of a timer that fires is handled. -/
  | fire (op : T.sig.Operation) (batch : Option (PendingBatch T.Fn)) (w : World T.sig)
      (handled : s.world.runSync (c.handleMw .executeBatch op ctx) =
        (.ok (.ok (.ofOpening (.executeBatch batch))), w)) :
      Step c ctx s (s.enlist w (.timer batch) (.executeBatch batch))
  | resume (before after : List (Member T)) (m : Member T) (g : T.sig.Gen) (input : Resume)
      (code : T.sig.Code (T.sig.Signal × T.sig.Gen)) (w : World T.sig)
      (members : s.members = before ++ m :: after) (resting : m.activity = .resting g)
      (ran : s.world.runAsks (c.resumeGen g input) = (code, w)) :
      Step c ctx s ⟨w, before ++ { m with inputs := m.inputs ++ [input] }.settle code :: after⟩
  /-- What a generator waits for has come. -/
  | answer (before after : List (Member T)) (m : Member T) (wait : Wait)
      (k : Outcome → T.sig.Code (T.sig.Signal × T.sig.Gen)) (outcome : Outcome)
      (code : T.sig.Code (T.sig.Signal × T.sig.Gen)) (w : World T.sig)
      (members : s.members = before ++ m :: after)
      (waiting : m.activity = .busy (.perform (.wait wait) k))
      (isOver : s.world.poll wait = .inl outcome)
      (ran : s.world.runAsks (k outcome) = (code, w)) :
      Step c ctx s ⟨w, before ++ m.settle code :: after⟩
  | drop (before after : List (Member T)) (m : Member T) (g : T.sig.Gen)
      (members : s.members = before ++ m :: after) (resting : m.activity = .resting g) :
      Step c ctx s ⟨(s.world.runSync (c.releaseGen g)).2,
        before ++ { m with activity := .gone } :: after⟩
  | dropWaiting (before after : List (Member T)) (m : Member T)
      (code : T.sig.Code (T.sig.Signal × T.sig.Gen)) (members : s.members = before ++ m :: after)
      (waiting : m.activity = .busy code) :
      Step c ctx s ⟨s.world, before ++ { m with activity := .gone } :: after⟩
  | elsewhere (w : World T.sig) (spares : s.Spares ctx w) : Step c ctx s ⟨w, s.members⟩

/-! ### Where a generator stands -/

/-- The stages of a call that joined a batch. -/
inductive CallAt (ctx : ContextId) (j : Joined T.Target T.Grouping) : Activity T.sig → Prop
  | joined (timeout : Nat) :
    CallAt ctx j (.resting (callGen (.created (.batch ⟨ctx, j.batchKey, j.seat, timeout⟩))))
  | arming (timeout : Nat) :
    CallAt ctx j (.resting (callGen (.suspended (.batch ⟨ctx, j.batchKey, j.seat, timeout⟩))))
  | waiting (k : Outcome → T.sig.Code (T.sig.Signal × T.sig.Gen))
      (answers : ∀ outcome,
        k outcome = .done (finished (selectFrom j.seat.index outcome) "batch")) :
    CallAt ctx j (.busy (.perform (.wait (.promise j.seat.promise)) k))
  | finished : CallAt ctx j (.resting (callGen .finished))
  | gone : CallAt ctx j .gone

/-- A timer has no more to do. -/
def Over (a : Activity T.sig) : Prop := a = .resting (timerGen .finished) ∨ a = .gone

/-- The stages of a timer that took a batch, with what it was resumed with, what it yielded and what
the promise of the batch holds. -/
inductive TimerAt (b : PendingBatch T.Fn) :
    Activity T.sig → List Resume → List T.sig.Yielded → Option Outcome → Prop
  | taken : TimerAt b (.resting (timerGen (.created (.executeBatch (some b))))) [] [] none
  | called (v : Value) :
    TimerAt b (.resting (timerGen (.suspended (.executeBatch b.promise)))) [.next v]
      [.operation (.call b.func b.args)] none
  | ended {a : Activity T.sig} (first input : Resume) (later : List Resume) (isOver : Over a) :
    TimerAt b a (first :: input :: later) [.operation (.call b.func b.args)] (some input.outcome)
  | stopped {a : Activity T.sig} (inputs : List Resume) (isOver : Over a) :
    TimerAt b a inputs [] (some (.error .cancelled))
  | dropped (v : Value) :
    TimerAt b .gone [.next v] [.operation (.call b.func b.args)] (some (.error .cancelled))

/-- A member has come as far as its inputs and the promise of its batch say. -/
def Abreast (ctx : ContextId) (promises : Array (Option Outcome)) (m : Member T) : Prop :=
  match m.role with
  | .call j => CallAt ctx j m.activity
  | .timer (some b) =>
    ∃ held, promises[b.promise.index]? = some held ∧ TimerAt b m.activity m.inputs m.yields held
  | .timer none =>
    m.activity = .resting (timerGen (.created (.executeBatch none))) ∨ Over m.activity

/-- A session is in order. -/
structure Sound (ctx : ContextId) (s : Session T) : Prop where
  context : ctx.index < s.world.state.contexts.size
  book : (s.book ctx).Kept
  pending : ∀ p ∈ (tableOf ctx s.world).pending.map (·.2.promise),
    s.world.promises[p.index]? = some none
  members : ∀ m ∈ s.members, Abreast ctx s.world.promises m

variable {c : Client T} {ctx : ContextId} {s s' : Session T} {w : World T.sig}
  {before after : List (Member T)} {m m' : Member T} {b : PendingBatch T.Fn}

theorem Abreast.congr {promises promises' : Array (Option Outcome)} (h : Abreast ctx promises m)
    (same : ∀ b, m.role = .timer (some b) →
      promises'[b.promise.index]? = promises[b.promise.index]?) : Abreast ctx promises' m := by
  obtain ⟨role, activity, inputs, yields⟩ := m
  cases role with
  | call j => exact h
  | timer batch =>
    cases batch with
    | none => exact h
    | some b =>
      obtain ⟨held, holds, stage⟩ := h
      exact ⟨held, (same b rfl).trans holds, stage⟩

theorem mem_taken_iff : b ∈ s.taken ↔ ∃ m ∈ s.members, m.role = .timer (some b) := by
  have batch_iff (role : Role T.Target T.Grouping) :
      role.batch? = some b ↔ role = .timer (some b) := by
    cases role <;> simp [Role.batch?]
  simp only [taken, List.mem_filterMap, batch_iff]

theorem mem_taken (hm : m ∈ s.members) (role : m.role = .timer (some b)) : b ∈ s.taken :=
  mem_taken_iff.2 ⟨m, hm, role⟩

theorem taken_update (members : s.members = before ++ m :: after) (role : m'.role = m.role) :
    (⟨w, before ++ m' :: after⟩ : Session T).taken = s.taken := by
  simp [taken, members, role, List.filterMap_cons]

theorem joined_update (members : s.members = before ++ m :: after) (role : m'.role = m.role) :
    (⟨w, before ++ m' :: after⟩ : Session T).joined = s.joined := by
  simp [joined, members, role, List.filterMap_cons]

theorem taken_enlist (role : Role T.Target T.Grouping) (opening : Opening T.sig.Gen T.Fn) :
    (s.enlist w role opening).taken = s.taken ++ role.batch?.toList := by
  cases h : role.batch? <;> simp [taken, enlist, h, List.filterMap_append]

theorem joined_enlist (role : Role T.Target T.Grouping) (opening : Opening T.sig.Gen T.Fn) :
    (s.enlist w role opening).joined = s.joined ++ role.joined?.toList := by
  cases h : role.joined? <;> simp [joined, enlist, h, List.filterMap_append]

namespace Sound

/-- The promises of all batches exist. -/
theorem promise_lt (h : Sound ctx s) {p : PromiseId} (hp : p ∈ (s.batches ctx).map (·.promise)) :
    p.index < s.world.promises.size := by
  obtain ⟨b, hb, rfl⟩ := List.mem_map.1 hp
  rcases List.mem_append.1 hb with hb | hb
  · obtain ⟨e, he, rfl⟩ := List.mem_map.1 hb
    exact (Array.getElem?_eq_some_iff.1 (h.pending _ (List.mem_map_of_mem he))).1
  · obtain ⟨m, hm, role⟩ := mem_taken_iff.1 hb
    have stands := h.members m hm
    rw [Abreast, role] at stands
    obtain ⟨held, holds, -⟩ := stands
    exact (Array.getElem?_eq_some_iff.1 holds).1

theorem elsewhere (h : Sound ctx s) (spares : s.Spares ctx w) : Sound ctx ⟨w, s.members⟩ := by
  refine ⟨Nat.lt_of_lt_of_le h.context spares.contexts, ?_, ?_, ?_⟩
  · have book := h.book
    rwa [Session.book, ← spares.table] at book
  · intro p hp
    simp only at hp ⊢
    rw [spares.table] at hp
    obtain ⟨e, he, rfl⟩ := List.mem_map.1 hp
    rw [spares.kept e.2 (List.mem_append_left _ (List.mem_map_of_mem he))]
    exact h.pending _ hp
  · intro m hm
    refine (h.members m hm).congr fun b role => ?_
    exact spares.kept b (List.mem_append_right _ (mem_taken hm role))

/-- A member goes on, and no promise is fulfilled. -/
theorem replace (h : Sound ctx s) (members : s.members = before ++ m :: after)
    (role : m'.role = m.role) {t : BatchTable T.Fn}
    (leaves : Leaves ctx s.world w t s.world.promises) (kept : Book.Kept ⟨t, s.taken, s.joined⟩)
    (pending : t.pending.map (·.2.promise) = (tableOf ctx s.world).pending.map (·.2.promise))
    (stands : Abreast ctx s.world.promises m') : Sound ctx ⟨w, before ++ m' :: after⟩ := by
  refine ⟨?_, ?_, ?_, ?_⟩
  · rw [leaves.contexts]
    exact h.context
  · rw [Session.book, taken_update members role, joined_update members role, leaves.table]
    exact kept
  · intro p hp
    simp only [leaves.table, leaves.promises] at hp ⊢
    rw [pending] at hp
    exact h.pending p hp
  · intro m₁ hm
    simp only [leaves.promises]
    rcases mem_place.1 hm with rfl | hm
    · exact stands
    · exact h.members m₁ (members ▸ mem_of_rest hm)

/-- A member goes on without touching the table or any promise. -/
theorem still (h : Sound ctx s) (members : s.members = before ++ m :: after)
    (role : m'.role = m.role)
    (leaves : Leaves ctx s.world w (tableOf ctx s.world) s.world.promises)
    (stands : Abreast ctx s.world.promises m') : Sound ctx ⟨w, before ++ m' :: after⟩ :=
  h.replace members role leaves h.book rfl stands

/-- A member arms the timer of a batch. -/
theorem arm (h : Sound ctx s) (members : s.members = before ++ m :: after)
    (role : m'.role = m.role) {key : BatchKey} {generation : Nat} {timer : TaskId}
    (leaves : Leaves ctx s.world w ((tableOf ctx s.world).arm key generation timer).2
      s.world.promises)
    (stands : Abreast ctx s.world.promises m') : Sound ctx ⟨w, before ++ m' :: after⟩ := by
  obtain ⟨kept, promises⟩ := h.book.arm key generation timer
  exact h.replace members role leaves kept promises stands

/-- The promise of a batch that has been taken is no other batch's. -/
theorem alone (h : Sound ctx s) (members : s.members = before ++ m :: after)
    (role : m.role = .timer (some b)) :
    b.promise ∉ (tableOf ctx s.world).pending.map (·.2.promise) ∧
    ∀ m' ∈ before ++ after, ∀ b', m'.role = .timer (some b') → b'.promise ≠ b.promise := by
  let others := (before ++ after).filterMap (·.role.batch?)
  have perm : s.taken.Perm (b :: others) := by
    simp only [Session.taken, others, members, List.filterMap_append, List.filterMap_cons, role,
      Role.batch?]
    exact List.perm_middle
  have whole : (s.batches ctx).Perm
      (b :: ((tableOf ctx s.world).pending.map (·.2) ++ others)) :=
    (perm.append_left _).trans List.perm_middle
  have distinct := (whole.map (·.promise)).nodup_iff.1 h.book.pledged
  rw [List.map_cons, List.nodup_cons] at distinct
  constructor
  · intro hp
    obtain ⟨e, he, same⟩ := List.mem_map.1 hp
    refine distinct.1 (List.mem_map.2 ⟨e.2, List.mem_append_left _ ?_, same⟩)
    exact List.mem_map_of_mem he
  · intro m' hm b' role' same
    refine distinct.1 (List.mem_map.2 ⟨b', List.mem_append_right _ ?_, same⟩)
    exact List.mem_filterMap.2 ⟨m', hm, by rw [role']; rfl⟩

/-- A timer fulfils the promise of its batch. -/
theorem fulfil (h : Sound ctx s) (members : s.members = before ++ m :: after)
    (role : m.role = .timer (some b)) (role' : m'.role = m.role)
    (open_ : s.world.promises[b.promise.index]? = some none) (outcome : Outcome)
    (stage : TimerAt b m'.activity m'.inputs m'.yields (some outcome)) :
    Sound ctx ⟨s.world.fulfil b.promise outcome, before ++ m' :: after⟩ := by
  have leaves : Leaves ctx s.world _ _ _ := leaves_fulfil open_ outcome
  obtain ⟨unpending, others⟩ := h.alone members role
  have bound := (Array.getElem?_eq_some_iff.1 open_).1
  have other {p : PromiseId} (hp : p ≠ b.promise) :
      (s.world.promises.modify b.promise.index fun _ => some outcome)[p.index]? =
        s.world.promises[p.index]? := by
    have ne : b.promise.index ≠ p.index := fun same => hp (by
      obtain ⟨i⟩ := p
      rw [show i = b.promise.index from same.symm])
    rw [Array.getElem?_modify, if_neg ne]
  refine ⟨?_, ?_, ?_, ?_⟩
  · rw [leaves.contexts]
    exact h.context
  · rw [Session.book, taken_update members role', joined_update members role', leaves.table]
    exact h.book
  · intro p hp
    simp only [leaves.table, leaves.promises] at hp ⊢
    rw [other fun same => unpending (same ▸ hp)]
    exact h.pending p hp
  · intro m₁ hm
    simp only [leaves.promises]
    rcases mem_place.1 hm with rfl | hm
    · have holds : (s.world.promises.modify b.promise.index fun _ => some outcome)[
          b.promise.index]? = some (some outcome) := by
        rw [Array.getElem?_modify, if_pos rfl, open_]
        rfl
      rw [Abreast, role', role]
      exact ⟨some outcome, holds, stage⟩
    · have stood := h.members m₁ (members ▸ mem_of_rest hm)
      exact stood.congr fun b' role => other (others m₁ hm b' role)

/-- The promise that the next call gets is no batch's. -/
theorem fresh (h : Sound ctx s) : ⟨s.world.promises.size⟩ ∉ (s.batches ctx).map (·.promise) :=
  fun hp => Nat.lt_irrefl _ (h.promise_lt hp)

/-- A call with a truthy key is handled: it gets a generator with its seat, and the book stays in
order. -/
theorem call (h : Sound ctx s) {func underlying : T.Fn} {grouping : T.Grouping} {args : List Value}
    {key : Value} {w : World T.sig} (batched : func.batched? = some (underlying, grouping))
    (keyed : s.world.runSync (c.key grouping args) = (.ok key, w)) (spares : s.Spares ctx w)
    (truthy : key.isTruthy = true) (timeout : Nat) :
    ∃ ticket w', s.world.runSync (c.handleMw (.batchCalls timeout) (.call func args) ctx) =
        (.ok (.ok (.ofOpening (.batch ticket))), w') ∧
      let s' := s.enlist w' (.call ⟨underlying, key, args, ticket.seat⟩) (.batch ticket)
      Sound ctx s' ∧ ∀ b ∈ s.taken,
        callsOf s'.joined b.generation = callsOf s.joined b.generation := by
  have spared : Sound ctx ⟨w, s.members⟩ := h.elsewhere spares
  obtain ⟨w', handled, leaves⟩ :=
    runSync_handleCall batched keyed truthy spared.context timeout
  obtain ⟨kept, settled, promises⟩ := spared.book.enqueue underlying key args spared.fresh
  have old {p : PromiseId} (hp : p.index < w.promises.size) :
      w'.promises[p.index]? = w.promises[p.index]? := by
    rw [leaves.promises, Array.getElem?_push, if_neg (Nat.ne_of_lt hp)]
  refine ⟨_, w', handled, ⟨?_, ?_, ?_, ?_⟩, ?_⟩
  · rw [Session.enlist, leaves.contexts]
    exact spared.context
  · rw [Session.book, taken_enlist, joined_enlist]
    simp only [Session.enlist, leaves.table, Role.batch?, Role.joined?, Option.toList,
      List.append_nil]
    exact kept
  · intro p hp
    simp only [Session.enlist, leaves.table] at hp ⊢
    rcases promises p hp with pending | rfl
    · have bound := (Array.getElem?_eq_some_iff.1 (spared.pending p pending)).1
      rw [old bound]
      exact spared.pending p pending
    · rw [leaves.promises]
      exact Array.getElem?_push_size
  · intro m hm
    rcases List.mem_append.1 hm with hm | hm
    · refine (spared.members m hm).congr fun b role => old ?_
      exact spared.promise_lt (List.mem_map_of_mem (List.mem_append_right _ (mem_taken hm role)))
    · rw [List.mem_singleton.1 hm]
      exact .joined timeout
  · intro b hb
    rw [joined_enlist]
    exact settled b hb

/-- Whatever ticket the call was handled with, it is that one. -/
theorem called (h : Sound ctx s) {func underlying : T.Fn} {grouping : T.Grouping}
    {args : List Value} {key : Value} {timeout : Nat} {ticket : BatchTicket} {w w' : World T.sig}
    (batched : func.batched? = some (underlying, grouping))
    (keyed : s.world.runSync (c.key grouping args) = (.ok key, w)) (spares : s.Spares ctx w)
    (truthy : key.isTruthy = true)
    (handled : s.world.runSync (c.handleMw (.batchCalls timeout) (.call func args) ctx) =
      (.ok (.ok (.ofOpening (.batch ticket))), w')) :
    let s' := s.enlist w' (.call ⟨underlying, key, args, ticket.seat⟩) (.batch ticket)
    Sound ctx s' ∧ ∀ b ∈ s.taken,
      callsOf s'.joined b.generation = callsOf s.joined b.generation := by
  obtain ⟨ticket', w'', handled', sound⟩ := h.call batched keyed spares truthy timeout
  obtain ⟨same, rfl⟩ := Prod.mk.inj (handled'.symm.trans handled)
  obtain rfl : ticket' = ticket := by simpa [Gen.ofOpening] using same
  exact sound

/-- A timer that fires takes a pending batch, or none. -/
theorem fire (h : Sound ctx s) {op : T.sig.Operation} {batch : Option (PendingBatch T.Fn)}
    (handled : s.world.runSync (c.handleMw .executeBatch op ctx) =
      (.ok (.ok (.ofOpening (.executeBatch batch))), w)) :
    Sound ctx (s.enlist w (.timer batch) (.executeBatch batch)) := by
  obtain ⟨key, gen, leaves⟩ := runSync_handleExecute h.context handled
  obtain rfl : batch = ((tableOf ctx s.world).take key).1 := by
    simpa [Gen.ofOpening] using gen
  obtain ⟨kept, pending, found⟩ := h.book.take key
  refine ⟨?_, ?_, ?_, ?_⟩
  · rw [Session.enlist, leaves.contexts]
    exact h.context
  · rw [Session.book, taken_enlist, joined_enlist]
    simp only [Session.enlist, leaves.table, Role.batch?, Role.joined?, Option.toList,
      List.append_nil]
    exact kept
  · intro p hp
    simp only [Session.enlist, leaves.table, leaves.promises] at hp ⊢
    obtain ⟨e, he, rfl⟩ := List.mem_map.1 hp
    exact h.pending _ (List.mem_map_of_mem (pending e he))
  · intro m hm
    simp only [Session.enlist, leaves.promises]
    rcases List.mem_append.1 hm with hm | hm
    · exact h.members m hm
    · rw [List.mem_singleton.1 hm]
      rcases took : ((tableOf ctx s.world).take key).1 with _ | b
      · exact .inl rfl
      · obtain ⟨k, hk⟩ := found b took
        refine ⟨none, ?_, .taken⟩
        exact h.pending _ (List.mem_map_of_mem hk)

section Generators

variable (h : Sound ctx s) (members : s.members = before ++ m :: after)
  {code : T.sig.Code (T.sig.Signal × T.sig.Gen)} {g : T.sig.Gen} {input : Resume}
include h members

theorem stands : Abreast ctx s.world.promises m := h.members m (by rw [members]; simp)

/-- The generator of a call goes on to its timer, to its promise, or to its end. -/
theorem resume_call {j : Joined T.Target T.Grouping} (role : m.role = .call j)
    (resting : m.activity = .resting g)
    (ran : s.world.runAsks (c.resumeGen g input) = (code, w)) :
    Sound ctx ⟨w, before ++ { m with inputs := m.inputs ++ [input] }.settle code :: after⟩ := by
  let m₁ : Member T := { m with inputs := m.inputs ++ [input] }
  have role₁ : (m₁.settle code).role = m.role := Member.role_settle m₁ code
  have stage : CallAt ctx j m.activity := by
    have stands := h.stands members
    rwa [Abreast, role] at stands
  have stands_of {a : Activity T.sig} (ha : (m₁.settle code).activity = a)
      (stage : CallAt ctx j a) : Abreast ctx s.world.promises (m₁.settle code) := by
    rw [Abreast, role₁, role]
    simpa only [ha] using stage
  have ends {outcome : Outcome} {w' : World T.sig}
      (leaves : Leaves ctx s.world w' (tableOf ctx s.world) s.world.promises)
      (ended : s.world.runAsks (c.resumeGen g input) = (.done (finished outcome "batch"), w')) :
      Sound ctx ⟨w, before ++ m₁.settle code :: after⟩ := by
    obtain ⟨rfl, rfl⟩ := Prod.mk.inj (ran.symm.trans ended)
    exact h.still members role₁ leaves (stands_of rfl .finished)
  rw [resting] at stage
  cases stage with
  | joined timeout =>
    obtain ⟨w', leaves, ⟨y, yielded⟩ | ⟨outcome, ended⟩⟩ :=
      runAsks_callGen_created ⟨ctx, j.batchKey, j.seat, timeout⟩ input
    · obtain ⟨rfl, rfl⟩ := Prod.mk.inj (ran.symm.trans yielded)
      exact h.still members role₁ leaves (stands_of rfl (.arming timeout))
    · exact ends leaves ended
  | arming timeout =>
    rcases runAsks_callGen_suspended ⟨ctx, j.batchKey, j.seat, timeout⟩ h.context input with
      ⟨outcome, ended⟩ | ⟨timer, w', k, waits, answers, leaves⟩
    · exact ends (leaves_refl _) ended
    · obtain ⟨rfl, rfl⟩ := Prod.mk.inj (ran.symm.trans waits)
      exact h.arm members role₁ leaves (stands_of rfl (.waiting k answers))
  | finished =>
    obtain ⟨outcome, ended⟩ := runAsks_finished "batch" input
    exact ends (leaves_refl _) ended

/-- The generator of a timer without a batch just ends. -/
theorem resume_idle (role : m.role = .timer none) (resting : m.activity = .resting g)
    (ran : s.world.runAsks (c.resumeGen g input) = (code, w)) :
    Sound ctx ⟨w, before ++ { m with inputs := m.inputs ++ [input] }.settle code :: after⟩ := by
  have stands := h.stands members
  obtain ⟨_, _, inputs, yields⟩ := m
  subst role resting
  have ends {outcome : Outcome}
      (ended : s.world.runAsks (c.resumeGen g input) =
        (.done (finished outcome "execute_batch"), s.world)) :
      Sound ctx ⟨w, before ++ Member.settle
        ⟨.timer none, .resting g, inputs ++ [input], yields⟩ code :: after⟩ := by
    obtain ⟨rfl, rfl⟩ := Prod.mk.inj (ran.symm.trans ended)
    exact h.still members rfl (leaves_refl _) (.inr (.inl rfl))
  rcases stands with created | finished | gone
  · obtain rfl := Activity.resting.inj created
    obtain ⟨outcome, ended⟩ := runAsks_timerGen_none input
    exact ends ended
  · obtain rfl := Activity.resting.inj finished
    obtain ⟨outcome, ended⟩ := runAsks_finished "execute_batch" input
    exact ends ended
  · cases gone

/-- The generator of a timer goes on to the call of its batch, or fulfils the promise. -/
theorem resume_timer (role : m.role = .timer (some b)) (resting : m.activity = .resting g)
    (ran : s.world.runAsks (c.resumeGen g input) = (code, w)) :
    Sound ctx ⟨w, before ++ { m with inputs := m.inputs ++ [input] }.settle code :: after⟩ := by
  have stands := h.stands members
  obtain ⟨_, _, inputs, yields⟩ := m
  subst role resting
  obtain ⟨held, holds, stage⟩ := stands
  -- A generator that has finished stays so.
  have rests (isOver : Over (.resting g : Activity T.sig))
      (later : ∀ a, Over a → TimerAt b a (inputs ++ [input]) yields held) :
      Sound ctx ⟨w, before ++ Member.settle
        ⟨.timer (some b), .resting g, inputs ++ [input], yields⟩ code :: after⟩ := by
    rcases isOver with finished | gone
    · obtain rfl := Activity.resting.inj finished
      obtain ⟨outcome, ended⟩ := runAsks_finished "execute_batch" input
      obtain ⟨rfl, rfl⟩ := Prod.mk.inj (ran.symm.trans ended)
      exact h.still members rfl (leaves_refl _) ⟨held, holds, later _ (.inl rfl)⟩
    · cases gone
  cases stage with
  | taken =>
    by_cases started : ∃ v, input = .next v
    · obtain ⟨v, rfl⟩ := started
      obtain ⟨rfl, rfl⟩ := Prod.mk.inj (ran.symm.trans (runAsks_timerGen_next b v))
      exact h.still members rfl (leaves_refl _) ⟨none, holds, .called v⟩
    · obtain ⟨outcome, ended⟩ :=
        runAsks_timerGen_stopped b fun v next => started ⟨v, next⟩
      obtain ⟨rfl, rfl⟩ := Prod.mk.inj (ran.symm.trans ended)
      refine h.fulfil members rfl ?_ holds _ ?_
      · rfl
      · exact .stopped [input] (.inl rfl)
  | called v =>
    obtain ⟨rfl, rfl⟩ := Prod.mk.inj (ran.symm.trans (runAsks_timerGen_suspended b.promise input))
    refine h.fulfil members rfl ?_ holds _ ?_
    · rfl
    · exact .ended (.next v) input [] (.inl rfl)
  | ended first second later isOver =>
    exact rests isOver fun a isOver => .ended first second (later ++ [input]) isOver
  | stopped _ isOver => exact rests isOver fun a isOver => .stopped _ isOver

/-- A call that waits gets what the promise of its batch holds, and ends. -/
theorem answer {wait : Wait} {k : Outcome → T.sig.Code (T.sig.Signal × T.sig.Gen)}
    {outcome : Outcome} (waiting : m.activity = .busy (.perform (.wait wait) k))
    (ran : s.world.runAsks (k outcome) = (code, w)) :
    Sound ctx ⟨w, before ++ m.settle code :: after⟩ := by
  have stands := h.stands members
  obtain ⟨role, _, inputs, yields⟩ := m
  subst waiting
  cases role with
  | timer batch =>
    cases batch with
    | none => rcases stands with created | finished | gone <;> contradiction
    | some b =>
      obtain ⟨held, -, stage⟩ := stands
      cases stage with
      | ended _ _ _ isOver | stopped _ isOver => rcases isOver with finished | gone <;> contradiction
  | call j =>
    cases stands with
    | waiting _ answers =>
      rw [answers outcome] at ran
      obtain ⟨rfl, rfl⟩ := Prod.mk.inj ran
      refine h.still members ?_ (leaves_refl _) ?_
      · rfl
      · exact CallAt.finished

/-- A generator that is dropped gives up the promise of its batch, if that is still to be
fulfilled. -/
theorem drop (resting : m.activity = .resting g) :
    Sound ctx ⟨(s.world.runSync (c.releaseGen g)).2,
      before ++ { m with activity := .gone } :: after⟩ := by
  have stands := h.stands members
  obtain ⟨role, _, inputs, yields⟩ := m
  subst resting
  have quiet (released : (s.world.runSync (c.releaseGen g)).2 = s.world)
      (stands : Abreast ctx s.world.promises (⟨role, .gone, inputs, yields⟩ : Member T)) :
      Sound ctx ⟨(s.world.runSync (c.releaseGen g)).2,
        before ++ ⟨role, .gone, inputs, yields⟩ :: after⟩ := by
    rw [released]
    refine h.still members ?_ (leaves_refl _) stands
    rfl
  cases role with
  | call j => cases stands <;> exact quiet rfl CallAt.gone
  | timer batch =>
    cases batch with
    | none =>
      have released : (s.world.runSync (c.releaseGen g)).2 = s.world := by
        rcases stands with created | finished | gone
        · obtain rfl := Activity.resting.inj created
          rfl
        · obtain rfl := Activity.resting.inj finished
          rfl
        · cases gone
      exact quiet released (.inr (.inr rfl))
    | some b =>
      obtain ⟨held, holds, stage⟩ := stands
      have rests (isOver : Over (.resting g : Activity T.sig))
          (later : ∀ a, Over a → TimerAt b a inputs yields held) :
          Sound ctx ⟨(s.world.runSync (c.releaseGen g)).2,
            before ++ ⟨.timer (some b), .gone, inputs, yields⟩ :: after⟩ := by
        rcases isOver with finished | gone
        · obtain rfl := Activity.resting.inj finished
          exact quiet rfl ⟨held, holds, later _ (.inr rfl)⟩
        · cases gone
      cases stage with
      | taken =>
        refine h.fulfil members rfl ?_ holds (.error .cancelled) ?_
        · rfl
        · exact .stopped [] (.inr rfl)
      | called v =>
        refine h.fulfil members rfl ?_ holds (.error .cancelled) ?_
        · rfl
        · exact .dropped v
      | ended first second later isOver =>
        exact rests isOver fun a isOver => .ended first second later isOver
      | stopped _ isOver => exact rests isOver fun a isOver => .stopped _ isOver

theorem dropWaiting (waiting : m.activity = .busy code) :
    Sound ctx ⟨s.world, before ++ { m with activity := .gone } :: after⟩ := by
  have stands := h.stands members
  obtain ⟨role, _, inputs, yields⟩ := m
  subst waiting
  refine h.still members ?_ (leaves_refl _) ?_
  · rfl
  · cases role with
    | call j => exact CallAt.gone
    | timer batch =>
      cases batch with
      | none => exact .inr (.inr rfl)
      | some b =>
        obtain ⟨held, -, stage⟩ := stands
        cases stage with
        | ended _ _ _ isOver | stopped _ isOver => rcases isOver with finished | gone <;> contradiction

end Generators

theorem step (h : Sound ctx s) (step : Step c ctx s s') : Sound ctx s' := by
  cases step with
  | call _ underlying _ args key timeout ticket w w' batched keyed spares truthy handled =>
    exact (h.called batched keyed spares truthy handled).1
  | fire op batch w handled => exact h.fire handled
  | resume before after m g input code w members resting ran =>
    have role : (∃ j, m.role = .call j) ∨ m.role = .timer none ∨ ∃ b, m.role = .timer (some b) := by
      rcases m.role with j | _ | b <;> simp
    rcases role with ⟨j, role⟩ | role | ⟨b, role⟩
    · exact h.resume_call members role resting ran
    · exact h.resume_idle members role resting ran
    · exact h.resume_timer members role resting ran
  | answer before after m wait k outcome code w members waiting isOver ran =>
    exact h.answer members waiting ran
  | drop before after m g members resting => exact h.drop members resting
  | dropWaiting before after m code members waiting => exact h.dropWaiting members waiting
  | elsewhere w spares => exact h.elsewhere spares

theorem opens (h : Opens ctx s) : Sound ctx s := by
  have empty : s.book ctx = ⟨.empty, [], []⟩ := by
    rw [Session.book, tableOf, h.table, taken, joined, h.members]
    rfl
  refine ⟨h.context, ?_, ?_, ?_⟩
  · rw [empty]
    exact Book.Kept.empty
  · rw [show tableOf ctx s.world = .empty from congrArg Book.table empty]
    simp [BatchTable.empty]
  · simp [h.members]

theorem run (h : Sound ctx s) (run : Relation.ReflTransGen (Step c ctx) s s') : Sound ctx s' := by
  induction run with
  | refl => exact h
  | tail _ step ih => exact ih.step step

end Sound

/-- Batches that have been taken stay taken, and get no further calls. -/
theorem Step.settled (h : Sound ctx s) (step : Step c ctx s s') : s.taken <+: s'.taken ∧
    ∀ b ∈ s.taken, callsOf s'.joined b.generation = callsOf s.joined b.generation := by
  cases step with
  | call _ underlying _ args key timeout ticket w w' batched keyed spares truthy handled =>
    refine ⟨?_, (h.called batched keyed spares truthy handled).2⟩
    rw [taken_enlist]
    exact List.prefix_append ..
  | fire op batch w handled =>
    rw [taken_enlist, joined_enlist]
    exact ⟨List.prefix_append .., fun b _ => by simp [Role.joined?]⟩
  | elsewhere w spares => exact ⟨List.prefix_refl _, fun b _ => rfl⟩
  | resume before after m g input code w members =>
    have role := Member.role_settle { m with inputs := m.inputs ++ [input] } code
    rw [taken_update members role, joined_update members role]
    exact ⟨List.prefix_refl _, fun b _ => rfl⟩
  | answer before after m wait k outcome code w members =>
    rw [taken_update members (m.role_settle code), joined_update members (m.role_settle code)]
    exact ⟨List.prefix_refl _, fun b _ => rfl⟩
  | drop before after m g members | dropWaiting before after m code members =>
    have role : ({ m with activity := .gone } : Member T).role = m.role := rfl
    rw [taken_update members role, joined_update members role]
    exact ⟨List.prefix_refl _, fun b _ => rfl⟩

theorem settled_run (h : Sound ctx s) (run : Relation.ReflTransGen (Step c ctx) s s') :
    s.taken <+: s'.taken ∧
    ∀ b ∈ s.taken, callsOf s'.joined b.generation = callsOf s.joined b.generation := by
  induction run with
  | refl => exact ⟨List.prefix_refl _, fun b _ => rfl⟩
  | tail run step ih =>
    obtain ⟨grows, stays⟩ := Step.settled (h.run run) step
    refine ⟨ih.1.trans grows, fun b hb => ?_⟩
    rw [stays b (ih.1.subset hb), ih.2 b hb]

end Session

end EffectEngine.Batch
