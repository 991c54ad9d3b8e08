import EffectEngine.Proofs.Batch.Session
import EffectEngine.Proofs.Task.Marks

/-!
# Coalesced calls are answered by position

What a sound session means for the calls and their batches: every call has one place in one batch,
a batch is taken once and called once, and once that call has ended every call that waits for it
gets the part of the result at its own index. `Session.answered_by_position` collects this for all
ways in which sections of code can follow each other.
-/

namespace EffectEngine

namespace Board

variable {G F : Type} {b : Board}

/-- A task that was cancelled stays so. -/
theorem canceled_note {e : StackEvent G F} (h : b.canceled = true) :
    (b.note e).canceled = true := by
  cases e with
  | resumed =>
    simp only [note, beginForcedReturn]
    split <;> exact h
  | cancelled => rfl
  | _ => exact h

theorem canceled_foldl {es : List (StackEvent G F)} (h : b.canceled = true) :
    (es.foldl note b).canceled = true := by
  induction es generalizing b with
  | nil => exact h
  | cons e es ih => exact ih (canceled_note h)

end Board

/-- In a task that has not been cancelled every frame is resumed with what it is due. -/
theorem Run.delivers_uncancelled {G F M : Type} [Named G] (registry : Registry M) (id : TaskId)
    (root : Yielded G F) (impulses : List (Impulse G F)) :
    let r : Run G F M := (start id root).after registry impulses
    r.task.canceled = false → ∀ input, .resumed input ∈ r.history →
      ∃ outcome, input = .deliver outcome := by
  let P (r : Run G F M) : Prop := Standing r.task.canceled r.task.footings ∧
    (r.task.canceled = false → ∀ input, .resumed input ∈ r.history →
      ∃ outcome, input = .deliver outcome)
  have both : P ((start id root).after registry impulses) := by
    refine turn_induction (P := P) ⟨.nil, nofun⟩ ?_ impulses
    rintro t history es t' - turn ⟨standing, delivers⟩
    refine ⟨Task.standing_turn standing turn, fun uncanceled input resumed => ?_⟩
    have before : t.canceled = false := by
      by_contra canceled
      have canceled : t.canceled = true := by simpa using canceled
      have after : (es.foldl Board.note t.board).canceled = true :=
        Board.canceled_foldl canceled
      rw [Task.board_turn turn] at after
      cases after.symm.trans uncanceled
    rcases List.mem_append.1 resumed with old | new
    · exact delivers before input old
    · obtain ⟨f, rest, frames, rfl⟩ := Task.resumed_turn turn new
      refine ⟨f.result, if_neg fun pending => ?_⟩
      simp only [Task.footings, frames, List.map_cons, before] at standing
      have admitted := standing.admitted
      rw [show f.footing.mark = .pending from beq_iff_eq.1 pending] at admitted
      cases admitted.1
  exact both.2

namespace Batch

variable {φ κ : Type} {joined : List (Joined φ κ)} {j : Joined φ κ} {k : BatchKey}
  {b : PendingBatch (GeneratorFn φ κ)}

/-- The argument of a batch at the index of a call is the list of the arguments of that call. -/
theorem Serves.argument (h : Serves joined k b) (hj : j ∈ callsOf joined b.generation) :
    b.args[j.seat.index]? = some (.list j.args) := by
  obtain ⟨i, hi, rfl⟩ := List.mem_iff_getElem.1 hj
  have index : (callsOf joined b.generation)[i].seat.index = i := by
    have at_i := congrArg (·[i]?) h.index
    have bound : i < b.args.length := by
      rw [h.args, List.length_map]
      exact hi
    simpa [hi, bound] using at_i
  rw [index, h.args]
  simp [hi]

/-- What a call gets of the result of its batch. -/
inductive Part (index : Nat) : Resume → Outcome → Prop
  | element (items : List Value) :
    Part index (.next (.list items)) (.ok ((items[index]?).getD .null))
  | noList (v : Value) (e : Error) (scalar : v.list? = none) (usage : e.isUsage = true) :
    Part index (.next v) (.error e)
  | failure (e : Error) : Part index (.throw e) (.error e)

theorem part_selectFrom (index : Nat) {input : Resume} (h : input ≠ .forcedReturn) :
    Part index input (selectFrom index input.outcome) := by
  cases input with
  | forcedReturn => exact absurd rfl h
  | throw e => exact .failure e
  | next v =>
    cases v with
    | list items => exact .element items
    | _ => exact .noList _ _ rfl rfl

namespace Session

variable {T : ClientSig} {c : Client T} {ctx : ContextId} {s s₀ : Session T}

/-- Calls are coalesced into batches, each with its place. -/
structure Coalesced (c : Client T) (ctx : ContextId) (s : Session T) : Prop where
  /-- A call with a truthy key joins a batch. -/
  joins : ∀ func underlying grouping args key w timeout,
    func.batched? = some (underlying, grouping) →
    s.world.runSync (c.key grouping args) = (.ok key, w) → s.Spares ctx w → key.isTruthy = true →
    ∃ ticket w', s.world.runSync (c.handleMw (.batchCalls timeout) (.call func args) ctx) =
        (.ok (.ok (.ofOpening (.batch ticket))), w') ∧
      Step c ctx s (s.enlist w' (.call ⟨underlying, key, args, ticket.seat⟩) (.batch ticket))
  /-- Every call that joined is in exactly one batch. -/
  placed : ∀ j ∈ s.joined, ∃ b, (s.batches ctx).filter (·.generation == j.seat.generation) = [b]
  distinct : ((s.batches ctx).map (·.generation)).Nodup
  grouped : ∀ j ∈ s.joined, ∀ j' ∈ s.joined, j.seat.generation = j'.seat.generation →
    j.func.same j'.func = true ∧ (j.key.key == j'.key.key) = true
  /-- A batch is for the function of its calls and has one argument for each, at its index. -/
  arguments : ∀ b ∈ s.batches ctx,
    let calls := callsOf s.joined b.generation
    b.args = calls.map (.list ·.args) ∧ calls.map (·.seat.index) = List.range calls.length ∧
    ∀ j ∈ calls, b.func.same j.func = true ∧ b.args[j.seat.index]? = some (.list j.args)
  /-- A batch that has been taken stays so, and no call joins it any more. -/
  closed : ∀ s', Relation.ReflTransGen (Step c ctx) s s' → s.taken <+: s'.taken ∧
    ∀ b ∈ s.taken, callsOf s'.joined b.generation = callsOf s.joined b.generation
  /-- The timer that took a batch calls its function at most once, with its arguments. -/
  called : ∀ m ∈ s.members, ∀ b, m.role = .timer (some b) →
    m.yields = [] ∨ m.yields = [.operation (.call b.func b.args)]
  /-- Once that call has ended, unless by a forced return, every call that waits for the batch gets
  its part. -/
  answered : ∀ m ∈ s.members, ∀ b, m.role = .timer (some b) → m.yields ≠ [] →
    ∀ first input later, m.inputs = first :: input :: later → input ≠ .forcedReturn →
    ∀ n ∈ s.members, ∀ j code, n.role = .call j → j.seat.generation = b.generation →
      n.activity = .busy code →
      ∃ wait k part g, code = .perform (.wait wait) k ∧ s.world.poll wait = .inl input.outcome ∧
        k input.outcome = .done (.complete part, g) ∧ Part j.seat.index input part
  /-- No waiting call gets anything else, unless the batch was given up. -/
  faithful : ∀ n ∈ s.members, ∀ j wait k outcome, n.role = .call j →
    n.activity = .busy (.perform (.wait wait) k) → s.world.poll wait = .inl outcome →
    outcome = .error .cancelled ∨
    ∃ m ∈ s.members, ∃ b first input later, m.role = .timer (some b) ∧
      b.generation = j.seat.generation ∧ m.inputs = first :: input :: later ∧
      outcome = input.outcome

namespace TimerAt

variable {b : PendingBatch T.Fn} {a : Activity T.sig} {inputs : List Resume}
  {yields : List T.sig.Yielded} {held : Option Outcome}

theorem yields_eq (h : TimerAt b a inputs yields held) :
    yields = [] ∨ yields = [.operation (.call b.func b.args)] := by cases h <;> simp

/-- A timer whose call has ended has fulfilled the promise with the outcome of the call. -/
theorem held_eq {first input : Resume} {later : List Resume}
    (h : TimerAt b a (first :: input :: later) yields held) (started : yields ≠ []) :
    held = some input.outcome := by
  cases h with
  | ended => rfl
  | stopped => exact absurd rfl started

theorem of_held {outcome : Outcome} (h : TimerAt b a inputs yields (some outcome)) :
    outcome = .error .cancelled ∨
      ∃ first input later, inputs = first :: input :: later ∧ outcome = input.outcome := by
  cases h with
  | ended first input later => exact .inr ⟨first, input, later, rfl, rfl⟩
  | stopped | dropped => exact .inl rfl

end TimerAt

theorem batch_unique {F : Type} {batches : List (PendingBatch F)} {generation : Nat}
    (distinct : (batches.map (·.generation)).Nodup)
    (h : generation ∈ batches.map (·.generation)) :
    ∃ b, batches.filter (·.generation == generation) = [b] := by
  obtain ⟨b, hb, rfl⟩ := List.mem_map.1 h
  obtain ⟨before, after, rfl⟩ := List.append_of_mem hb
  rw [List.map_append, List.map_cons, List.nodup_middle, List.nodup_cons, List.mem_append,
    not_or] at distinct
  have others {l : List (PendingBatch F)} (hl : b.generation ∉ l.map (·.generation)) :
      l.filter (·.generation == b.generation) = [] := by
    refine List.filter_eq_nil_iff.2 fun b' hb' same => hl ?_
    rw [← beq_iff_eq.1 same]
    exact List.mem_map_of_mem hb'
  refine ⟨b, ?_⟩
  rw [List.filter_append, List.filter_cons_of_pos (by simp), others distinct.1.1,
    others distinct.1.2, List.nil_append]

namespace Sound

variable {m n : Member T} {j : Joined T.Target T.Grouping} {b : PendingBatch T.Fn}

theorem serves (h : Sound ctx s) (hb : b ∈ s.batches ctx) : ∃ k, Serves s.joined k b := by
  rcases List.mem_append.1 hb with hb | hb
  · obtain ⟨e, he, rfl⟩ := List.mem_map.1 hb
    exact ⟨e.1, h.book.pending e he⟩
  · exact h.book.taken b hb

theorem timerAt (h : Sound ctx s) (hm : m ∈ s.members) (role : m.role = .timer (some b)) :
    ∃ held, s.world.promises[b.promise.index]? = some held ∧
      TimerAt b m.activity m.inputs m.yields held := by
  have stands := h.members m hm
  rwa [Abreast, role] at stands

theorem callAt (h : Sound ctx s) (hn : n ∈ s.members) (role : n.role = .call j) :
    CallAt ctx j n.activity := by
  have stands := h.members n hn
  rwa [Abreast, role] at stands

theorem mem_joined (hn : n ∈ s.members) (role : n.role = .call j) : j ∈ s.joined :=
  List.mem_filterMap.2 ⟨n, hn, by rw [role]; rfl⟩

/-- A call that waits for its batch waits for the promise of that batch. -/
theorem waits_for (h : Sound ctx s) (hb : b ∈ s.batches ctx) (hn : n ∈ s.members)
    (role : n.role = .call j) (generation : j.seat.generation = b.generation) :
    j.seat.promise = b.promise := by
  obtain ⟨k, serves⟩ := h.serves hb
  exact (serves.calls j (mem_callsOf.2 ⟨mem_joined hn role, generation⟩)).2

theorem coalesced (h : Sound ctx s) : Coalesced c ctx s where
  joins func underlying grouping args key w timeout batched keyed spares truthy := by
    obtain ⟨ticket, w', handled, -⟩ := h.call batched keyed spares truthy timeout
    exact ⟨ticket, w', handled, .call func underlying grouping args key timeout ticket w w' batched
      keyed spares truthy handled⟩
  placed j hj := batch_unique h.book.distinct (h.book.seated j hj)
  distinct := h.book.distinct
  grouped j hj j' hj' same := by
    obtain ⟨func, key⟩ := BatchKey.beq_iff.1 (h.book.grouped hj hj' same)
    exact ⟨beq_iff_eq.2 func, key⟩
  arguments b hb := by
    intro calls
    obtain ⟨k, serves⟩ := h.serves hb
    have length : b.args.length = calls.length := by rw [serves.args, List.length_map]
    refine ⟨serves.args, ?_, fun j hj => ⟨?_, serves.argument hj⟩⟩
    · rw [← length]
      exact serves.index
    · obtain ⟨func, -⟩ := BatchKey.beq_iff.1 (serves.calls j hj).1
      exact beq_iff_eq.2 (serves.func.symm.trans func)
  closed s' run := settled_run h run
  called m hm b role := by
    obtain ⟨held, -, stage⟩ := h.timerAt hm role
    exact stage.yields_eq
  answered m hm b role started first input later inputs unforced n hn j code role' generation
      waiting := by
    obtain ⟨held, holds, stage⟩ := h.timerAt hm role
    have fulfilled : s.world.promises[b.promise.index]? = some (some input.outcome) := by
      rw [inputs] at stage
      rw [holds, stage.held_eq started]
    have promise := h.waits_for (List.mem_append_right _ (mem_taken hm role)) hn role' generation
    have stage := h.callAt hn role'
    rw [waiting] at stage
    cases stage with
    | waiting k answers =>
      refine ⟨_, k, _, _, rfl, ?_, answers _, part_selectFrom _ unforced⟩
      rw [World.poll, promise, fulfilled]
  faithful n hn j wait k outcome role waiting isOver := by
    have stage := h.callAt hn role
    rw [waiting] at stage
    obtain ⟨b, hb, generation⟩ := List.mem_map.1 (h.book.seated j (mem_joined hn role))
    have promise := h.waits_for hb hn role generation.symm
    have holds : s.world.promises[b.promise.index]? = some (some outcome) := by
      cases stage with
      | waiting =>
        rw [World.poll, promise] at isOver
        split at isOver
        · rename_i found
          rw [found, Sum.inl.inj isOver]
        · cases isOver
    rcases List.mem_append.1 hb with pending | taken
    · obtain ⟨e, he, rfl⟩ := List.mem_map.1 pending
      cases holds.symm.trans (h.pending _ (List.mem_map_of_mem he))
    · obtain ⟨m, hm, role'⟩ := mem_taken_iff.1 taken
      obtain ⟨held, holds', stage'⟩ := h.timerAt hm role'
      obtain rfl : held = some outcome := Option.some.inj (holds'.symm.trans holds)
      rcases stage'.of_held with given_up | ⟨first, input, later, inputs, same⟩
      · exact .inl given_up
      · exact .inr ⟨m, hm, b, first, input, later, role', generation, inputs, same⟩

end Sound

/-- The types of a client whose own generators do nothing. -/
def stubSig : ClientSig where
  Gen := Stub
  Target := Unit
  Grouping := Unit
  Mw := Unit
  Key := Unit
  User := Unit
  Note := Unit
  Listener := Unit
  Seed := Unit

/-- A client all of whose calls have the key true. -/
def stubClient : Client stubSig where
  resume g _ := .done (.complete (.ok .null), g)
  release _ := .done ()
  filter _ _ _ := .done true
  handle _ _ _ := .done (.error .cancelled)
  invoke _ _ _ := .done (.error .cancelled)
  key _ _ := .done (.bool true)
  hook _ _ _ := .done (.ok ())
  start _ := .done (.ok .null)
  crash _ := ()

def stubSession : Session stubSig :=
  ⟨.start 0 { contexts := #[.empty], counters := #[], allocations := 0, user := () } false, []⟩

/-- Coalesced calls are answered by position, with no loss or duplication, whatever calls there are
and however they, the timers and all other code take turns. Every call with a truthy key is in
exactly one batch, together with calls of the same function whose keys agree; a batch is taken at
most once and closed from then on; its function is called at most once, with the arguments of every
call at the index of that call. When that call ends with anything but a forced return, which a task
that has not been cancelled never makes, every call that waits gets the part at its index. -/
theorem answered_by_position (c : Client T) (ctx : ContextId) (opens : Opens ctx s₀)
    (run : Relation.ReflTransGen (Step c ctx) s₀ s) :
    Coalesced c ctx s ∧
    ∀ registry id root impulses, let r : Run T.sig.Gen T.sig.Fn T.sig.Mw :=
        (Run.start id root).after registry impulses
      r.task.canceled = false → .resumed .forcedReturn ∉ r.history := by
  refine ⟨((Sound.opens opens).run run).coalesced, ?_⟩
  intro registry id root impulses r uncanceled forced
  obtain ⟨outcome, delivered⟩ :=
    Run.delivers_uncancelled registry id root impulses uncanceled _ forced
  cases outcome <;> cases delivered

/-- Two calls share a batch, its timer fires, and the second call waits. The call of the timer ends
with a list, and the call that waits gets the second item. -/
theorem answered_by_position_second :
    ∃ s, Opens ⟨0⟩ stubSession ∧ Relation.ReflTransGen (Step stubClient ⟨0⟩) stubSession s ∧
      s.taken.map (·.args) = [[.list [.bool true], .list [.bool false]]] ∧
      (∃ wait k g, (s.members.map (·.activity))[1]? = some (.busy (.perform (.wait wait) k)) ∧
        s.world.poll wait = .inl (.ok (.list [.bool false, .bool true])) ∧
        k (.ok (.list [.bool false, .bool true])) = .done (.complete (.ok (.bool true)), g)) ∧
      Coalesced stubClient ⟨0⟩ s ∧
      let timer : stubSig.sig.Gen := .ofOpening (.executeBatch none)
      let r : Run stubSig.sig.Gen stubSig.sig.Fn stubSig.sig.Mw :=
        (Run.start default (.generator timer)).after default (.replicate 4 .move)
      r.task.canceled = false ∧ .resumed (.next .null) ∈ r.history ∧
        .resumed .forcedReturn ∉ r.history := by
  have opens : Opens ⟨0⟩ stubSession := ⟨Nat.one_pos, rfl, rfl⟩
  have spares (s : Session stubSig) : s.Spares ⟨0⟩ s.world :=
    ⟨Nat.le_refl _, rfl, Nat.le_refl _, fun _ _ => rfl⟩
  have call (s : Session stubSig) (arg : Value) {ticket w} :=
    Step.call (c := stubClient) (s := s) (.batched 2 default (.plain "f" 1 default ()) ()) _ ()
      [arg] (.bool true) 5 ticket s.world w rfl rfl (spares s) rfl
  obtain ⟨s, run, took, waits⟩ :
      ∃ s, Relation.ReflTransGen (Step stubClient ⟨0⟩) stubSession s ∧
        s.taken.map (·.args) = [[.list [.bool true], .list [.bool false]]] ∧
        ∃ wait k g, (s.members.map (·.activity))[1]? = some (.busy (.perform (.wait wait) k)) ∧
          s.world.poll wait = .inl (.ok (.list [.bool false, .bool true])) ∧
          k (.ok (.list [.bool false, .bool true])) = .done (.complete (.ok (.bool true)), g) :=
    -- Both calls join; the timer fires and starts its call; the second call asks for a timer of its
    -- own and, once it has that, waits; the call of the timer ends.
    ⟨_,
      .head (call _ (.bool true) rfl) <|
      .head (call _ (.bool false) rfl) <|
      .head (.fire (.custom executeKind (.sealed 0 (.batch ⟨1, .bool true⟩))) _ _ rfl) <|
      .head (.resume [_, _] [] _ _ (.next .null) _ _ rfl rfl rfl) <|
      .head (.resume [_] [_] _ _ (.next .null) _ _ rfl rfl rfl) <|
      .head (.resume [_] [_] _ _ (.next (.task default)) _ _ rfl rfl rfl) <|
      .head (.resume [_, _] [] _ _ (.next (.list [.bool false, .bool true])) _ _ rfl rfl rfl) .refl,
      rfl, _, _, _, rfl, rfl, rfl⟩
  obtain ⟨coalesced, unforced⟩ := answered_by_position stubClient ⟨0⟩ opens run
  refine ⟨s, opens, run, took, waits, coalesced, rfl, ?_, ?_⟩
  · exact List.mem_of_getElem? (i := 1) rfl
  · exact unforced default default (.generator (.ofOpening (.executeBatch none))) _ rfl

end Session

end Batch

end EffectEngine
