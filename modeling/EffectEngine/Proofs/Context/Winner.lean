import EffectEngine.Proofs.Context.Orderly

/-!
# One winner for each slot

Any number of threads call `ContextId.getOrInsertWith` for one slot of a context, and their sections
may be interleaved in any way, those of the initialisers included. `ContextId.Course` says what the
sections of one call do, however far it has come: it looks into the slot, and if that is empty it
runs its initialiser and offers the slot what that has made. If nothing else is stored in the slot
or removed from it, then all calls return the value that was stored first
(`ContextId.one_winner`).
-/

namespace EffectEngine

variable {E σ N K α : Type} {V : K → Type} [DecidableEq K] [HasContexts σ V]

namespace ContextId

/-! ### One call -/

/-- The last section of a call that has made the value `v`; the call returns `w`. -/
inductive Settles (ctx : ContextId) (k : K) (v : V k) : V k → σ → σ → Prop
  | kept {w : V k} {s s' : σ} (had : ctx.slot? k s = some w)
      (same : HasContexts.contexts s' = HasContexts.contexts s) : Settles ctx k v w s s'
  | stored {s s' : σ} (empty : ctx.slot? k s = none) (now : ctx.slot? k s' = some v)
      (others : ∀ (ctx' : ContextId) (k' : K), ¬ (ctx' = ctx ∧ k' = k) →
        ctx'.slot? k' s' = ctx'.slot? k' s) : Settles ctx k v v s s'

/-- How far a call has come, followed by `next`: what its sections have done that its thread has
had since the call began, what the call has returned, if it has, and what the thread is left with.
All sections but the first and the last are those of the initialiser. -/
inductive Course (ctx : ContextId) (k : K) (init : Code E σ N (V k)) (next : V k → Code E σ N α) :
    List (σ × σ) → Option (V k) → Code E σ N α → Prop
  | waiting : Course ctx k init next [] none ((ctx.getOrInsertWith k init).bind next)
  | found {s s' : σ} {v : V k} {later : List (σ × σ)} {rest : Code E σ N α}
      (same : HasContexts.contexts s' = HasContexts.contexts s) (had : ctx.slot? k s = some v)
      (on : (next v).Trace later rest) : Course ctx k init next ((s, s') :: later) (some v) rest
  | making {s s' : σ} {made : List (σ × σ)} {d : Code E σ N (V k)}
      (same : HasContexts.contexts s' = HasContexts.contexts s) (empty : ctx.slot? k s = none)
      (begun : init.Trace made d) :
      Course ctx k init next ((s, s') :: made) none (d.bind fun v => (ctx.offer k v).bind next)
  | settled {s s' t t' : σ} {made later : List (σ × σ)} {v w : V k} {rest : Code E σ N α}
      (same : HasContexts.contexts s' = HasContexts.contexts s) (empty : ctx.slot? k s = none)
      (ended : init.Trace made (.done v)) (settles : ctx.Settles k v w t t')
      (on : (next w).Trace later rest) :
      Course ctx k init next ((s, s') :: (made ++ (t, t') :: later)) (some w) rest

variable {ctx : ContextId} {k : K} {init : Code E σ N (V k)} {next : V k → Code E σ N α}
  {own : List (σ × σ)} {rest : Code E σ N α}

theorem getOrInsertWith_bind (ctx : ContextId) (k : K) (init : Code E σ N (V k))
    (next : V k → Code E σ N α) :
    (ctx.getOrInsertWith k init).bind next = (ctx.get? k).bind fun
      | some v => next v
      | none => init.bind fun v => (ctx.offer k v).bind next := by
  refine (Code.bind_bind _ _ next).trans (congrArg _ (funext fun found => ?_))
  cases found with
  | some v => rfl
  | none => exact Code.bind_bind _ _ next

theorem settles_offer [LawfulContexts σ V] {s : σ} (there : ctx.OpenIn s) (v : V k) :
    ctx.Settles k v ((ctx.slots s).offer k v).1 s
      (ctx.setSlots ((ctx.slots s).offer k v).2 s) := by
  rcases found : ctx.slot? k s with _ | w
  · rw [TypeMap.offer_of_none found]
    refine .stored found ((slot?_setSlots there _).trans (TypeMap.get?_insert _ k v)) ?_
    intro ctx' k' other
    exact slot?_setSlots_elsewhere (fun same => other ⟨same.1.symm, same.2.symm⟩) fun apart =>
      TypeMap.get?_insert_of_ne apart v
  · rw [TypeMap.offer_of_some found]
    exact .kept found (contexts_setSlots_slots ctx s)

/-- Every call keeps to its course, whatever other threads do between its sections. -/
theorem course_of_trace [LawfulContexts σ V] (there : ∀ p ∈ own, ctx.OpenIn p.1)
    (trace : ((ctx.getOrInsertWith k init).bind next).Trace own rest) :
    ∃ returned, ctx.Course k init next own returned rest := by
  rw [getOrInsertWith_bind] at trace
  obtain ⟨rfl, rfl⟩ | ⟨s, later, rfl, on⟩ := trace.of_modifyGet_bind
  · exact ⟨none, getOrInsertWith_bind ctx k init next ▸ .waiting⟩
  · -- the first look
    have same := contexts_setSlots_slots ctx s
    rcases found : ctx.slot? k s with _ | v
    · have empty : (ctx.slots s).get? k = none := found
      simp only [empty] at on
      obtain ⟨d, begun, rfl⟩ | ⟨v, made, later, rfl, ended, on⟩ := on.of_bind fun _ _ => rfl
      · exact ⟨none, .making same found begun⟩
      · -- the initialiser has ended, and the offer may not have been made yet
        obtain ⟨rfl, rfl⟩ | ⟨t, later, rfl, after⟩ := on.of_modifyGet_bind
        · rw [List.append_nil]
          exact ⟨none, .making (d := .done v) same found ended⟩
        · have isOpen : ctx.OpenIn t :=
            there (t, _) (List.mem_cons_of_mem _ (List.mem_append_right _ List.mem_cons_self))
          exact ⟨_, .settled same found ended (settles_offer isOpen v) after⟩
    · have had : (ctx.slots s).get? k = some v := found
      simp only [had] at on
      exact ⟨some v, .found same found on⟩

/-- A thread does not end before its call has returned. -/
theorem Course.ne_done (course : ctx.Course k init next own none rest) (a : α) :
    rest ≠ .done a := by
  intro finished
  cases course with
  | waiting => cases finished
  | @making _ _ _ d => cases d <;> cases finished

/-- A call returns what is in the slot before or after one of its sections. -/
theorem Course.seen {w : V k} (course : ctx.Course k init next own (some w) rest) :
    ∃ p ∈ own, ctx.slot? k p.1 = some w ∨ ctx.slot? k p.2 = some w := by
  cases course with
  | found _ had => exact ⟨_, List.mem_cons_self, .inl had⟩
  | @settled _ _ t t' _ _ _ _ _ _ _ _ settles =>
    refine ⟨(t, t'), by simp, ?_⟩
    cases settles with
    | kept had => exact .inl had
    | stored _ now => exact .inr now

end ContextId

/-! ### Runs -/

namespace Crowd

variable {ctx : ContextId} {k : K} {x y z : Crowd E σ N α} {es : List (Entry E σ N α)}

/-- A thread comes to some code at a moment of a run that has `later` still before it. -/
def Reaches (x : Crowd E σ N α) (es : List (Entry E σ N α)) (y : Crowd E σ N α) (thread : Nat)
    (code : Code E σ N α) (later : List (Entry E σ N α)) : Prop :=
  ∃ earlier z, es = earlier ++ later ∧ x.Run earlier z ∧ z.Run later y ∧
    z.threads[thread]? = some code

namespace Entry

/-- The section inserts a value by hand. -/
def Inserts (ctx : ContextId) (k : K) (e : Entry E σ N α) : Prop :=
  ∃ (v : V k) (next : Option (V k) → Code E σ N α), e.code = (ctx.insert k v).bind next

def Removes (ctx : ContextId) (k : K) (e : Entry E σ N α) : Prop :=
  ∃ next : Option (V k) → Code E σ N α, e.code = (ctx.remove k).bind next

/-- The section is the last one of a call, and stores what the call has made. -/
structure Stores (ctx : ContextId) (k : K) (v : V k) (e : Entry E σ N α) : Prop where
  call : ∃ next : V k → Code E σ N α, e.code = (ctx.offer k v).bind next
  empty : ctx.slot? k e.before = none
  now : ctx.slot? k e.after = some v

/-- The section leaves the slot as it is, unless a call stores the first value. -/
def Keeps (ctx : ContextId) (k : K) (e : Entry E σ N α) : Prop :=
  ctx.slot? k e.after = ctx.slot? k e.before ∨ ∃ v, e.Stores ctx k v

theorem Keeps.some {e : Entry E σ N α} {v : V k} (h : e.Keeps ctx k)
    (had : ctx.slot? k e.before = some v) : ctx.slot? k e.after = some v := by
  obtain same | ⟨w, stores⟩ := h
  · exact same.trans had
  · cases stores.empty.symm.trans had

end Entry

theorem Run.deeds [LawfulContexts σ V] (run : x.Run es y) (there : ∀ e ∈ es, ctx.OpenIn e.before)
    (orderly : ∀ c ∈ x.threads, c.Orderly) : ∀ e ∈ es, Deed ctx k e.code e.before e.after := by
  induction run with
  | nil => exact fun e among => nomatch among
  | @cons s s' threads i code rest es y running turn later ih =>
    have ordered : code.Orderly := orderly code (List.mem_of_getElem? running)
    have orderly' : ∀ c ∈ threads.set i rest, c.Orderly := fun c among => by
      obtain old | rfl := List.mem_or_eq_of_mem_set among
      · exact orderly c old
      · exact ordered.next turn
    intro e among
    rcases List.mem_cons.mp among with rfl | among
    · exact ordered.deed (there _ List.mem_cons_self) turn
    · exact ih (fun e among => there e (List.mem_cons_of_mem _ among)) orderly' e among

theorem Run.slot?_of_keeps {v : V k} (run : x.Run es y) (keeps : ∀ e ∈ es, e.Keeps ctx k)
    (had : ctx.slot? k x.state = some v) : ctx.slot? k y.state = some v := by
  induction run with
  | nil => exact had
  | cons running turn later ih =>
    exact ih (fun e among => keeps e (List.mem_cons_of_mem _ among))
      ((keeps _ List.mem_cons_self).some had)

/-- What is in the slot before or after a section is in it still at the end. -/
theorem Run.slot?_of_entry {v : V k} {e : Entry E σ N α} (run : x.Run es y)
    (keeps : ∀ e ∈ es, e.Keeps ctx k) (among : e ∈ es)
    (had : ctx.slot? k e.before = some v ∨ ctx.slot? k e.after = some v) :
    ctx.slot? k y.state = some v := by
  obtain ⟨earlier, later, rfl⟩ := List.append_of_mem among
  obtain ⟨z, -, run⟩ := run.split
  have after : ctx.slot? k e.after = some v := had.elim (keeps e among).some id
  cases run with
  | cons running turn run =>
    exact run.slot?_of_keeps (fun e among => keeps e (by simp [among])) after

/-- The value at the end has been there from the beginning or is the first that was stored. -/
theorem Run.first {v : V k} (run : x.Run es y) (keeps : ∀ e ∈ es, e.Keeps ctx k)
    (now : ctx.slot? k y.state = some v) :
    ctx.slot? k x.state = some v ∨ ctx.slot? k x.state = none ∧
      ∃ earlier e later, es = earlier ++ e :: later ∧
        (∀ e' ∈ earlier, ctx.slot? k e'.after = none) ∧ e.Stores ctx k v := by
  induction run with
  | nil => exact .inl now
  | @cons s s' threads i code rest es y running turn run ih =>
    have keeps' : ∀ e ∈ es, e.Keeps ctx k := fun e among => keeps e (List.mem_cons_of_mem _ among)
    rcases start : ctx.slot? k s with _ | w
    · refine .inr ⟨rfl, ?_⟩
      obtain same | ⟨w, stores⟩ := keeps _ List.mem_cons_self
      · have empty : ctx.slot? k s' = none := same.trans start
        obtain had | ⟨-, earlier, e, later, rfl, before, stores⟩ := ih keeps' now
        · cases empty.symm.trans had
        · refine ⟨_ :: earlier, e, later, rfl, fun e' among => ?_, stores⟩
          rcases List.mem_cons.mp among with rfl | among
          · exact empty
          · exact before e' among
      · obtain rfl : w = v :=
          Option.some.inj ((run.slot?_of_keeps keeps' stores.now).symm.trans now)
        exact ⟨[], _, es, rfl, (fun e' among => nomatch among), stores⟩
    · have kept := run.slot?_of_keeps keeps' ((keeps _ List.mem_cons_self).some start)
      exact .inl (kept.symm.trans now)

/-- What becomes of a slot in a run. -/
structure OneWinner (ctx : ContextId) (k : K) (x : Crowd E σ N α) (es : List (Entry E σ N α))
    (y : Crowd E σ N α) : Prop where
  stays : ∀ e ∈ es, ∀ v : V k, ctx.slot? k e.before = some v → ctx.slot? k e.after = some v
  first : ∀ v : V k, ctx.slot? k y.state = some v →
    ctx.slot? k x.state = some v ∨ ctx.slot? k x.state = none ∧
      ∃ earlier e later, es = earlier ++ e :: later ∧
        (∀ e' ∈ earlier, ctx.slot? k e'.after = none) ∧ e.Stores ctx k v
  /-- All calls that have returned have returned what is in the slot at the end. -/
  returned : ∀ {i init next later rest} {w : V k},
    x.Reaches es y i ((ctx.getOrInsertWith k init).bind next) later →
    ctx.Course k init next (own i later) (some w) rest → ctx.slot? k y.state = some w

end Crowd

open Crowd in
/-- Calls for one slot, nested ones included, in any interleaving of any threads. Each keeps to its
course, and goes on until it has returned or panicked. If the threads touch contexts only through
their operations, and nothing is inserted into the slot by hand or removed from it, then the first
value that is stored stays, and is what all calls return. -/
theorem ContextId.one_winner [LawfulContexts σ V] {ctx : ContextId} {k : K} {x y : Crowd E σ N α}
    {es : List (Entry E σ N α)} (run : x.Run es y) (there : ∀ e ∈ es, ctx.OpenIn e.before) :
    (∀ i init next later, x.Reaches es y i ((ctx.getOrInsertWith k init).bind next) later →
      ∃ returned rest, y.threads[i]? = some rest ∧
        ctx.Course k init next (own i later) returned rest ∧
        (returned = none → (∃ message, rest = .panic message) ∨
          ∀ s, ∃ rest' s', rest.Section s rest' s')) ∧
    ((∀ c ∈ x.threads, c.Orderly) → (∀ e ∈ es, ¬ e.Inserts ctx k ∧ ¬ e.Removes ctx k) →
      OneWinner ctx k x es y) := by
  constructor
  · rintro i init next later ⟨earlier, z, rfl, -, run, calls⟩
    obtain ⟨rest, left, trace⟩ := run.trace calls
    have there' : ∀ p ∈ own i later, ctx.OpenIn p.1 := fun p among => by
      obtain ⟨e, ahead, -, rfl⟩ := mem_own.mp among
      exact there e (List.mem_append_right _ ahead)
    obtain ⟨returned, course⟩ := course_of_trace there' trace
    refine ⟨returned, rest, left, course, ?_⟩
    rintro rfl
    obtain ⟨a, finished⟩ | ahead := rest.over_or_goes_on
    · exact absurd finished (course.ne_done a)
    · exact ahead
  · intro orderly untouched
    have keeps : ∀ e ∈ es, e.Keeps ctx k := fun e among => by
      cases run.deeds (k := k) there orderly e among with
      | spares same => exact .inl same
      | inserts v next begins => exact absurd ⟨v, next, begins⟩ (untouched e among).1
      | removes next begins => exact absurd ⟨next, begins⟩ (untouched e among).2
      | stores v next begins empty now => exact .inr ⟨v, ⟨next, begins⟩, empty, now⟩
    refine ⟨fun e among v => (keeps e among).some, fun v => run.first keeps, ?_⟩
    rintro i init next later rest w ⟨earlier, z, rfl, -, -, -⟩ course
    obtain ⟨p, among, seen⟩ := course.seen
    obtain ⟨e, ahead, -, rfl⟩ := mem_own.mp among
    exact run.slot?_of_entry keeps (List.mem_append_right _ ahead) seen

/-! ### A race -/

/-- A section that leaves whatever is in the slot neither inserts into it nor removes from it. -/
theorem Crowd.Entry.untouched [LawfulContexts σ V] {ctx : ContextId} {k : K} {e : Entry E σ N α}
    {filled : V k → σ} {v w : V k} (apart : v ≠ w) (there : ∀ u, ctx.OpenIn (filled u))
    (spares : ∀ u, ∃ rest s', e.code.Section (filled u) rest s' ∧ ctx.slot? k s' = some u) :
    ¬ e.Inserts ctx k ∧ ¬ e.Removes ctx k := by
  constructor
  · rintro ⟨put, next, begins⟩
    have all (u : V k) : put = u := by
      obtain ⟨rest, s', turn, now⟩ := spares u
      rw [begins] at turn
      obtain ⟨-, rfl⟩ := Code.section_modifyGet_bind.mp turn
      have inserted := ContextId.slot?_setSlots (k := k) (there u)
        ((ctx.slots (filled u)).insert k put)
      rw [TypeMap.get?_insert] at inserted
      exact Option.some.inj (inserted.symm.trans now)
    exact apart ((all v).symm.trans (all w))
  · rintro ⟨next, begins⟩
    obtain ⟨rest, s', turn, now⟩ := spares v
    rw [begins] at turn
    obtain ⟨-, rfl⟩ := Code.section_modifyGet_bind.mp turn
    have removed := ContextId.slot?_setSlots (k := k) (there v) ((ctx.slots (filled v)).erase k)
    rw [TypeMap.get?_erase] at removed
    cases removed.symm.trans now

namespace Race

def ctx : ContextId := ⟨0⟩

def key : Slot Bool := .user true

abbrev State := Shared Bool Unit Unit

def holding (m : Slots Bool Unit) : State := ⟨#[m], #[], 0, ()⟩

/-- An initialiser that stores under another key, and calls for the slot itself. -/
def init : Code Empty State Unit Value :=
  (ctx.insert (.user false) (.int 0)).bind fun _ =>
    (ctx.getOrInsertWith key (.done (.int 1))).bind fun _ => .done (.int 2)

def start : Crowd Empty State Unit Value where
  state := holding .empty
  threads := [(ctx.getOrInsertWith key init).bind .done,
    (ctx.getOrInsertWith key (.done (.int 3))).bind .done]

theorem orderly : ∀ c ∈ start.threads, c.Orderly := by
  have inner : init.Orderly :=
    .insert ctx _ _ fun _ => (Code.Orderly.getOrInsertWith (.done _)).bind fun _ => .done _
  intro c among
  simp only [start, List.mem_cons, List.not_mem_nil, or_false] at among
  rcases among with rfl | rfl
  · exact inner.getOrInsertWith.bind .done
  · exact (Code.Orderly.getOrInsertWith (.done _)).bind .done

/-- All three calls find the slot empty. The second thread stores its value first. -/
theorem run : ∃ es y, start.Run es y ∧ y.threads = [.done (.int 3), .done (.int 3)] ∧
    (∀ e ∈ es, ctx.OpenIn e.before) ∧ ∀ e ∈ es, ¬ e.Inserts ctx key ∧ ¬ e.Removes ctx key := by
  have spared {e : Crowd.Entry Empty State Unit Value}
      (spares : ∀ v, ∃ rest s', e.code.Section (holding (TypeMap.empty.insert key v)) rest s' ∧
        ctx.slot? key s' = some v) : ¬ e.Inserts ctx key ∧ ¬ e.Removes ctx key := by
    have apart : (.int 1 : Value) ≠ .int 2 := nofun
    have there (v : Value) : ctx.OpenIn (holding (TypeMap.empty.insert key v)) := Nat.zero_lt_one
    exact Crowd.Entry.untouched apart there spares
  refine ⟨_, _,
    .cons (i := 0) rfl (.read rfl) <| .cons (i := 0) rfl (.read rfl) <|
    .cons (i := 0) rfl (.read rfl) <| .cons (i := 1) rfl (.read rfl) <|
    .cons (i := 1) rfl (.read rfl) <| .cons (i := 0) rfl (.read rfl) <|
    .cons (i := 0) rfl (.read rfl) <| .nil _, rfl, fun e among => ?_, fun e among => ?_⟩ <;>
  simp only [List.mem_cons, List.not_mem_nil, or_false] at among
  · rcases among with rfl | rfl | rfl | rfl | rfl | rfl | rfl <;> exact Nat.zero_lt_one
  · rcases among with rfl | rfl | rfl | rfl | rfl | rfl | rfl <;>
      exact spared fun _ => ⟨_, _, .read rfl, rfl⟩

end Race

theorem ContextId.one_winner_of_race : ∃ es y, Race.start.Run es y ∧
    y.threads = [.done (.int 3), .done (.int 3)] ∧
    Crowd.OneWinner Race.ctx Race.key Race.start es y := by
  obtain ⟨es, y, run, ended, there, untouched⟩ := Race.run
  exact ⟨es, y, run, ended, (one_winner run there).2 Race.orderly untouched⟩

end EffectEngine
