import EffectEngine.Proofs.Coroutine.Mailbox

/-!
# Sections of threads, interleaved

A `Code.Section` is what a thread does while no other thread gets in between: a query, an effect, or
a read together with the write that follows it, as under a lock. `Code.Trace` lists the sections of
one thread, and `Crowd.Run` those of any number of threads that share a state and take turns in any
order. What one thread does in a run is a trace of its own (`Crowd.Run.trace`).
-/

namespace EffectEngine

variable {E σ N α β : Type}

/-- The state that a query leaves behind. -/
def Query.leaves : Query σ N → σ → σ
  | put s', _ => s'
  | _, s => s

theorem Query.nonempty_answer {q : Query σ N} (other : q ≠ .get) : Nonempty q.Answer := by
  cases q with
  | get => exact absurd rfl other
  | now => exact ⟨(0 : Nat)⟩
  | isSettled | requestCancel => exact ⟨false⟩
  | newPromise => exact ⟨(⟨0⟩ : PromiseId)⟩
  | recorded => exact ⟨([] : List Diagnostic)⟩
  | put | fulfil | note | log | clearRecorded => exact ⟨()⟩

namespace Code

/-- Carries out a write, if that is what comes next. -/
def written : Code E σ N α → σ → Code E σ N α × σ
  | ask (.put s') k, _ => (k (), s')
  | code, s => (code, s)

/-- One section of a thread: its code and the state, before and after. Answers and outcomes that do
not come from the state may be any. -/
inductive Section : Code E σ N α → σ → Code E σ N α → σ → Prop
  | read {k : σ → Code E σ N α} {s s' : σ} {rest : Code E σ N α}
      (written : (k s).written s = (rest, s')) : Section (ask .get k) s rest s'
  | answer {q : Query σ N} {k : q.Answer → Code E σ N α} (s : σ) (a : q.Answer)
      (other : q ≠ .get) : Section (ask q k) s (k a) (q.leaves s)
  | outcome {e : E} {k : Outcome → Code E σ N α} (s : σ) (r : Outcome) :
      Section (perform e k) s (k r) s

variable {c d rest : Code E σ N α} {s s' : σ}

theorem section_modifyGet_bind {f : σ → β × σ} {next : β → Code E σ N α} :
    ((modifyGet f).bind next).Section s rest s' ↔ rest = next (f s).1 ∧ s' = (f s).2 := by
  constructor
  · intro turn
    cases turn with
    | read written => cases written; exact ⟨rfl, rfl⟩
    | answer _ a other => exact absurd rfl other
  · rintro ⟨rfl, rfl⟩
    exact .read rfl

/-- A thread that has neither ended nor panicked can go on, whatever the state. -/
theorem over_or_goes_on (c : Code E σ N α) :
    (∃ a, c = done a) ∨ (∃ message, c = panic message) ∨
      ∀ s, ∃ rest s', c.Section s rest s' := by
  cases c with
  | done a => exact .inl ⟨a, rfl⟩
  | panic message => exact .inr (.inl ⟨message, rfl⟩)
  | ask q k =>
    refine .inr (.inr fun s => ?_)
    by_cases reads : q = .get
    · subst reads
      exact ⟨_, _, .read rfl⟩
    · obtain ⟨a⟩ := Query.nonempty_answer reads
      exact ⟨_, _, .answer s a reads⟩
  | perform e k => exact .inr (.inr fun s => ⟨_, _, .outcome s (.ok .null)⟩)

/-- A section of code that is followed by more is one of that code, unless it is at its end. What
follows must not begin by a write, for that would belong to the section before it. -/
theorem Section.of_bind {c : Code E σ N β} {f : β → Code E σ N α}
    (starts : ∀ b s, (f b).written s = (f b, s)) (turn : (c.bind f).Section s rest s') :
    (∃ b, c = done b) ∨ ∃ d, c.Section s d s' ∧ rest = d.bind f := by
  cases c with
  | done b => exact .inl ⟨b, rfl⟩
  | panic message => cases turn
  | ask q k =>
    refine .inr ?_
    cases turn with
    | read written =>
      -- the write that belongs to the section is one of `c`, even where `c` ends with the read
      have both (d : Code E σ N β) :
          (d.bind f).written s = ((d.written s).1.bind f, (d.written s).2) := by
        cases d with
        | done b => exact starts b s
        | ask q k => cases q <;> rfl
        | panic | perform => rfl
      have eq := (both _).symm.trans written
      rw [Prod.mk.injEq] at eq
      exact ⟨_, .read (Prod.ext rfl eq.2), eq.1.symm⟩
    | answer _ a other => exact ⟨_, .answer s a other, rfl⟩
  | perform e k =>
    cases turn with
    | outcome _ r => exact .inr ⟨_, .outcome s r, rfl⟩

/-- The sections of one thread, each with the state before and after it. In between, other threads
may have made of the state what they like. -/
inductive Trace : Code E σ N α → List (σ × σ) → Code E σ N α → Prop
  | nil (c : Code E σ N α) : Trace c [] c
  | cons {c d e : Code E σ N α} {s s' : σ} {later : List (σ × σ)} (turn : c.Section s d s')
      (rest : Trace d later e) : Trace c ((s, s') :: later) e

theorem Trace.of_modifyGet_bind {f : σ → β × σ} {next : β → Code E σ N α} {own : List (σ × σ)}
    (trace : ((modifyGet f).bind next).Trace own rest) :
    (own = [] ∧ rest = (modifyGet f).bind next) ∨
      ∃ s later, own = (s, (f s).2) :: later ∧ (next (f s).1).Trace later rest := by
  cases trace with
  | nil => exact .inl ⟨rfl, rfl⟩
  | cons turn trace =>
    obtain ⟨rfl, rfl⟩ := section_modifyGet_bind.mp turn
    exact .inr ⟨_, _, rfl, trace⟩

/-- What a thread does in code that is followed by more it does in that code, until it has ended. -/
theorem Trace.of_bind {c : Code E σ N β} {f : β → Code E σ N α} {own : List (σ × σ)}
    (starts : ∀ b s, (f b).written s = (f b, s)) (trace : (c.bind f).Trace own rest) :
    (∃ d, c.Trace own d ∧ rest = d.bind f) ∨
      ∃ b made later, own = made ++ later ∧ c.Trace made (done b) ∧ (f b).Trace later rest := by
  generalize whole : c.bind f = code at trace
  induction trace generalizing c with
  | nil => exact .inl ⟨c, .nil c, whole.symm⟩
  | cons turn trace ih =>
    subst whole
    obtain ⟨b, rfl⟩ | ⟨d, turn', rfl⟩ := turn.of_bind starts
    · exact .inr ⟨b, [], _, rfl, .nil _, .cons turn trace⟩
    · obtain ⟨e, trace', rfl⟩ | ⟨b, made, later, rfl, trace', after⟩ := ih rfl
      · exact .inl ⟨e, .cons turn' trace', rfl⟩
      · exact .inr ⟨b, _ :: made, later, rfl, .cons turn' trace', after⟩

end Code

/-! ### Threads that share a state -/

structure Crowd (E σ N α : Type) where
  state : σ
  threads : List (Code E σ N α)

/-- A section in the history of a crowd: whose it was, the code that it is the beginning of, and the
state before and after it. -/
structure Crowd.Entry (E σ N α : Type) where
  thread : Nat
  code : Code E σ N α
  before : σ
  after : σ

namespace Crowd

variable {x y z : Crowd E σ N α} {es es₁ es₂ : List (Entry E σ N α)} {i : Nat}

/-- The threads take turns in any order, for one section each. -/
inductive Run : Crowd E σ N α → List (Entry E σ N α) → Crowd E σ N α → Prop
  | nil (x : Crowd E σ N α) : Run x [] x
  | cons {s s' : σ} {threads : List (Code E σ N α)} {i : Nat} {code rest : Code E σ N α}
      {es : List (Entry E σ N α)} {y : Crowd E σ N α} (running : threads[i]? = some code)
      (turn : code.Section s rest s') (later : Run ⟨s', threads.set i rest⟩ es y) :
      Run ⟨s, threads⟩ (⟨i, code, s, s'⟩ :: es) y

/-- The sections of one thread. -/
def own (i : Nat) (es : List (Entry E σ N α)) : List (σ × σ) :=
  es.filterMap fun e => if e.thread = i then some (e.before, e.after) else none

theorem own_cons_self (e : Entry E σ N α) (es : List (Entry E σ N α)) :
    own e.thread (e :: es) = (e.before, e.after) :: own e.thread es :=
  List.filterMap_cons_some (if_pos rfl)

theorem own_cons_of_ne {e : Entry E σ N α} (other : e.thread ≠ i) (es : List (Entry E σ N α)) :
    own i (e :: es) = own i es :=
  List.filterMap_cons_none (if_neg other)

theorem mem_own {p : σ × σ} :
    p ∈ own i es ↔ ∃ e ∈ es, e.thread = i ∧ (e.before, e.after) = p := by
  simp only [own, List.mem_filterMap, Option.ite_none_right_eq_some, Option.some.injEq]

theorem Run.split (run : x.Run (es₁ ++ es₂) y) : ∃ z, x.Run es₁ z ∧ z.Run es₂ y := by
  induction es₁ generalizing x with
  | nil => exact ⟨x, .nil x, run⟩
  | cons e es₁ ih =>
    cases run with
    | cons running turn later =>
      obtain ⟨z, before, after⟩ := ih later
      exact ⟨z, .cons running turn before, after⟩

/-- What one thread does in a run is a trace of its own. -/
theorem Run.trace {c : Code E σ N α} (run : x.Run es y) (running : x.threads[i]? = some c) :
    ∃ rest, y.threads[i]? = some rest ∧ c.Trace (own i es) rest := by
  induction run generalizing c with
  | nil x => exact ⟨c, running, .nil c⟩
  | @cons s s' threads j code rest es y running' turn later ih =>
    have inside : j < threads.length := (List.getElem?_eq_some_iff.mp running').1
    by_cases same : j = i
    · subst same
      obtain rfl : code = c := Option.some.inj (running'.symm.trans running)
      obtain ⟨d, there, trace⟩ := ih (List.getElem?_set_self inside)
      exact ⟨d, there, (own_cons_self ⟨j, code, s, s'⟩ es).symm ▸ .cons turn trace⟩
    · obtain ⟨d, there, trace⟩ := ih ((List.getElem?_set_ne same).trans running)
      exact ⟨d, there, (own_cons_of_ne (e := ⟨j, code, s, s'⟩) same es).symm ▸ trace⟩

end Crowd

end EffectEngine
