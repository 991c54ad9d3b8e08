import EffectEngine.Lifecycle
import Mathlib.Logic.Function.Iterate

/-!
# The course of a root task

A `Course` is the life of a root task with all that happened in it: the hooks that were called, what
they answered, and the beginning and the end of the task. `Course.after` lets it go on with any
answers. `Protocol` says in which order the hooks are called and which of their failures count, and
`Course.protocol_iff` that the courses which come to an end are those that follow it.
-/

namespace EffectEngine

variable {L : Type}

/-- What happens in the life of a root task. -/
inductive Occasion (L : Type) where
  | called (listener : L) (hook : Hook)
  /-- The hook that was called has ended. -/
  | answered (result : Except Error Unit)
  | started
  | settled (outcome : Outcome)

/-- Code begins to run: that of a hook, or the task. -/
def Occasion.isOpening : Occasion L → Bool
  | called .. | started => true
  | _ => false

/-! ### The protocol -/

section Protocol

open Occasion

/-- The hooks of these listeners are called in turn up to the first failure, which is the result. -/
inductive Heard (hook : Hook) : List L → List (Occasion L) → Except Error Unit → Prop
  | all : Heard hook [] [] (.ok ())
  | failed (l : L) (ls : List L) (e : Error) :
    Heard hook (l :: ls) [called l hook, answered (.error e)] (.error e)
  | next (l : L) {ls : List L} {es : List (Occasion L)} {result : Except Error Unit}
    (rest : Heard hook ls es result) :
    Heard hook (l :: ls) (called l hook :: answered (.ok ()) :: es) result

/-- The hooks of these listeners are called in turn, whatever they answer. -/
inductive Told (hook : Hook) : List L → List (Occasion L) → Prop
  | all : Told hook [] []
  | next (l : L) (result : Except Error Unit) {ls : List L} {es : List (Occasion L)}
    (rest : Told hook ls es) : Told hook (l :: ls) (called l hook :: answered result :: es)

/-- The hooks that are called once the result is certain. -/
inductive Closes (ls : List L) : Outcome → List (Occasion L) → Prop
  | well {es : List (Occasion L)} (v : Value) (finalized : Told (.finalize none) ls es) :
    Closes ls (.ok v) es
  | ill {es fs : List (Occasion L)} (e : Error) (told : Told (.error e) ls es)
    (finalized : Told (.finalize (some e)) ls fs) : Closes ls (.error e) (es ++ fs)

/-- All that happens in the life of a root task with these listeners, and its result: the task
starts if all listeners have been set up, and the first failure of a hook up to the completion is
the result. -/
inductive Protocol (ls : List L) : List (Occasion L) → Outcome → Prop
  | uninitialized {es fs : List (Occasion L)} {e : Error} (setUp : Heard .setUp ls es (.error e))
    (closes : Closes ls (.error e) fs) : Protocol ls (es ++ fs) (.error e)
  | failed {es fs : List (Occasion L)} {e : Error} (setUp : Heard .setUp ls es (.ok ()))
    (closes : Closes ls (.error e) fs) :
    Protocol ls (es ++ started :: settled (.error e) :: fs) (.error e)
  | unprepared {es fs gs : List (Occasion L)} {v : Value} {e : Error}
    (setUp : Heard .setUp ls es (.ok ())) (preComplete : Heard (.preComplete v) ls fs (.error e))
    (closes : Closes ls (.error e) gs) :
    Protocol ls (es ++ started :: settled (.ok v) :: (fs ++ gs)) (.error e)
  | incomplete {es fs gs hs : List (Occasion L)} {v : Value} {e : Error}
    (setUp : Heard .setUp ls es (.ok ())) (preComplete : Heard (.preComplete v) ls fs (.ok ()))
    (complete : Heard (.complete v) ls gs (.error e)) (closes : Closes ls (.error e) hs) :
    Protocol ls (es ++ started :: settled (.ok v) :: (fs ++ (gs ++ hs))) (.error e)
  | completed {es fs gs hs : List (Occasion L)} {v : Value}
    (setUp : Heard .setUp ls es (.ok ())) (preComplete : Heard (.preComplete v) ls fs (.ok ()))
    (complete : Heard (.complete v) ls gs (.ok ())) (closes : Closes ls (.ok v) hs) :
    Protocol ls (es ++ started :: settled (.ok v) :: (fs ++ (gs ++ hs))) (.ok v)

end Protocol

/-! ### Courses -/

/-- What a course goes on with. -/
inductive Stimulus where
  | move
  /-- The hook that was called ends. -/
  | answered (result : Except Error Unit)
  /-- The task ends. -/
  | settled (outcome : Outcome)

/-- The life of a root task and all that happened in it; `calling` says whether a hook has been
called and has not ended. -/
structure Course (L : Type) where
  life : Lifecycle L
  calling : Bool
  occasions : List (Occasion L)

namespace Course

def begin (ls : List L) : Course L := ⟨.begin ls, false, []⟩

/-- The result that a run is about to return. -/
def result? (c : Course L) : Option Outcome :=
  match c.calling, c.life.step.2 with
  | false, .finish result => some result
  | _, _ => none

/-- What does not come now is ignored. -/
def take (c : Course L) : Stimulus → Course L
  | .move =>
    match c.calling, c.life.step with
    | false, (life, .silent) => { c with life }
    | false, (life, .call l hook) => ⟨life, true, c.occasions ++ [.called l hook]⟩
    | false, (life, .runTask) => ⟨life, false, c.occasions ++ [.started]⟩
    | _, _ => c
  | .answered result =>
    if c.calling then ⟨c.life.hookEnded result, false, c.occasions ++ [.answered result]⟩ else c
  | .settled outcome =>
    match c.calling, c.life.phase with
    | false, .running => ⟨c.life.taskEnded outcome, false, c.occasions ++ [.settled outcome]⟩
    | _, _ => c

def after (c : Course L) (stimuli : List Stimulus) : Course L := stimuli.foldl take c

/-- What a course waits for: `answer` and `settle` say what hooks and the task end with. -/
def awaited (answer : Course L → Except Error Unit) (settle : Course L → Outcome) (c : Course L) :
    Stimulus :=
  match c.calling, c.life.phase with
  | true, _ => .answered (answer c)
  | false, .running => .settled (settle c)
  | false, _ => .move

def next (answer : Course L → Except Error Unit) (settle : Course L → Outcome) (c : Course L) :
    Course L :=
  c.take (c.awaited answer settle)

/-! ### What lies ahead -/

section Ahead

variable {ls todo : List L} {hook : Hook} {es fs : List (Occasion L)} {r : Outcome} {e : Error}

/-- The run fails: the error hooks of `todo` are called, and then all are finalized. -/
inductive Fails (ls todo : List L) (e : Error) : List (Occasion L) → Outcome → Prop
  | told {es fs : List (Occasion L)} (told : Told (.error e) todo es)
    (finalized : Told (.finalize (some e)) ls fs) : Fails ls todo e (es ++ fs) (.error e)

inductive Finalizes (todo : List L) (result : Outcome) : List (Occasion L) → Outcome → Prop
  | told {es : List (Occasion L)}
    (finalized : Told (.finalize (Lifecycle.errorOf result)) todo es) :
    Finalizes todo result es result

/-- The hooks of `todo` are heard before the rest happens, or the run fails. -/
inductive Stretch (ls todo : List L) (hook : Hook)
    (rest : List (Occasion L) → Outcome → Prop) : List (Occasion L) → Outcome → Prop
  | passed {es fs : List (Occasion L)} {r : Outcome} (heard : Heard hook todo es (.ok ()))
    (goesOn : rest fs r) : Stretch ls todo hook rest (es ++ fs) r
  | failed {es fs : List (Occasion L)} {e : Error} {r : Outcome}
    (heard : Heard hook todo es (.error e)) (fails : Fails ls ls e fs r) :
    Stretch ls todo hook rest (es ++ fs) r

abbrev Completes (ls todo : List L) (v : Value) : List (Occasion L) → Outcome → Prop :=
  Stretch ls todo (.complete v) (Finalizes ls (.ok v))

abbrev Prepares (ls todo : List L) (v : Value) : List (Occasion L) → Outcome → Prop :=
  Stretch ls todo (.preComplete v) (Completes ls ls v)

inductive Runs (ls : List L) : List (Occasion L) → Outcome → Prop
  | failed {es : List (Occasion L)} {e : Error} {r : Outcome} (fails : Fails ls ls e es r) :
    Runs ls (.settled (.error e) :: es) r
  | passed {es : List (Occasion L)} {v : Value} {r : Outcome} (prepares : Prepares ls ls v es r) :
    Runs ls (.settled (.ok v) :: es) r

inductive Starts (ls : List L) : List (Occasion L) → Outcome → Prop
  | started {es : List (Occasion L)} {r : Outcome} (runs : Runs ls es r) :
    Starts ls (.started :: es) r

/-- What happens from a phase on in which no hook has been called, and the result. -/
def AheadOf (ls : List L) : Phase L → List (Occasion L) → Outcome → Prop
  | .settingUp todo => Stretch ls todo .setUp (Starts ls)
  | .running => Runs ls
  | .preCompleting v todo => Prepares ls todo v
  | .completing v todo => Completes ls todo v
  | .failing e todo => Fails ls todo e
  | .finalizing result todo => Finalizes todo result
  | .over result => Finalizes [] result

/-- What happens from now on, and the result. -/
inductive Ahead (c : Course L) : List (Occasion L) → Outcome → Prop
  | idle {es : List (Occasion L)} {r : Outcome} (calling : c.calling = false)
    (ahead : AheadOf c.life.listeners c.life.phase es r) : Ahead c es r
  | calling {es : List (Occasion L)} {r : Outcome} (result : Except Error Unit)
    (calling : c.calling = true)
    (ahead : AheadOf c.life.listeners (c.life.hookEnded result).phase es r) :
    Ahead c (.answered result :: es) r

theorem fails_iff : Fails ls ls e es r ↔ r = .error e ∧ Closes ls (.error e) es := by
  constructor
  · rintro ⟨told, finalized⟩
    exact ⟨rfl, .ill e told finalized⟩
  · rintro ⟨rfl, closes⟩
    cases closes with
    | ill e told finalized => exact .told told finalized

/-- The protocol is what lies ahead at the beginning. -/
theorem protocol_iff_ahead : Protocol ls es r ↔ Ahead (begin ls) es r := by
  constructor
  · intro protocol
    refine .idle rfl ?_
    cases protocol with
    | uninitialized setUp closes => exact .failed setUp (fails_iff.2 ⟨rfl, closes⟩)
    | failed setUp closes =>
      exact .passed setUp (.started (.failed (fails_iff.2 ⟨rfl, closes⟩)))
    | unprepared setUp preComplete closes =>
      exact .passed setUp (.started (.passed (.failed preComplete (fails_iff.2 ⟨rfl, closes⟩))))
    | incomplete setUp preComplete complete closes =>
      exact .passed setUp (.started (.passed (.passed preComplete
        (.failed complete (fails_iff.2 ⟨rfl, closes⟩)))))
    | completed setUp preComplete complete closes =>
      cases closes with
      | well v finalized =>
        exact .passed setUp (.started (.passed (.passed preComplete
          (.passed complete (.told finalized)))))
  · rintro (⟨-, ahead⟩ | ⟨-, ⟨⟩, -⟩)
    rcases ahead with ⟨setUp, ⟨⟨fails⟩ | ⟨prepares⟩⟩⟩ | ⟨setUp, fails⟩
    · obtain ⟨rfl, closes⟩ := fails_iff.1 fails
      exact .failed setUp closes
    · rcases prepares with ⟨preComplete, completes⟩ | ⟨preComplete, fails⟩
      · rcases completes with ⟨complete, ⟨finalized⟩⟩ | ⟨complete, fails⟩
        · exact .completed setUp preComplete complete (.well _ finalized)
        · obtain ⟨rfl, closes⟩ := fails_iff.1 fails
          exact .incomplete setUp preComplete complete closes
      · obtain ⟨rfl, closes⟩ := fails_iff.1 fails
        exact .unprepared setUp preComplete closes
    · obtain ⟨rfl, closes⟩ := fails_iff.1 fails
      exact .uninitialized setUp closes

/-! ### One step ahead -/

variable {l : L} {rest : List (Occasion L) → Outcome → Prop}

theorem stretch_nil : Stretch ls [] hook rest es r ↔ rest es r := by
  constructor
  · rintro (⟨⟨⟩, goesOn⟩ | ⟨⟨⟩, -⟩)
    exact goesOn
  · exact .passed .all

theorem stretch_cons : Stretch ls (l :: todo) hook rest es r ↔
    ∃ result fs, es = .called l hook :: .answered result :: fs ∧
      match result with
      | .ok _ => Stretch ls todo hook rest fs r
      | .error e => Fails ls ls e fs r := by
  constructor
  · rintro (⟨heard, goesOn⟩ | ⟨heard, fails⟩)
    · cases heard with
      | next l heard => exact ⟨.ok (), _, rfl, .passed heard goesOn⟩
    · cases heard with
      | failed => exact ⟨.error _, _, rfl, fails⟩
      | next l heard => exact ⟨.ok (), _, rfl, .failed heard fails⟩
  · rintro ⟨result, fs, rfl, ahead⟩
    cases result with
    | ok =>
      rcases ahead with ⟨heard, goesOn⟩ | ⟨heard, fails⟩
      · exact .passed (.next l heard) goesOn
      · exact .failed (.next l heard) fails
    | error e => exact .failed (.failed l todo e) ahead

theorem fails_nil : Fails ls [] e es r ↔ Finalizes ls (.error e) es r := by
  constructor
  · rintro ⟨⟨⟩, finalized⟩
    exact .told finalized
  · rintro ⟨finalized⟩
    exact .told .all finalized

theorem fails_cons : Fails ls (l :: todo) e es r ↔
    ∃ result fs, es = .called l (.error e) :: .answered result :: fs ∧ Fails ls todo e fs r := by
  constructor
  · rintro ⟨told, finalized⟩
    cases told with
    | next l result told => exact ⟨result, _, rfl, .told told finalized⟩
  · rintro ⟨result, fs, rfl, ⟨told, finalized⟩⟩
    exact .told (.next l result told) finalized

theorem finalizes_nil {result : Outcome} :
    Finalizes ([] : List L) result es r ↔ es = [] ∧ r = result := by
  constructor
  · rintro ⟨⟨⟩⟩
    exact ⟨rfl, rfl⟩
  · rintro ⟨rfl, rfl⟩
    exact .told .all

theorem finalizes_cons {result : Outcome} : Finalizes (l :: todo) result es r ↔
    ∃ answer fs, es = .called l (.finalize (Lifecycle.errorOf result)) :: .answered answer :: fs ∧
      Finalizes todo result fs r := by
  constructor
  · rintro ⟨finalized⟩
    cases finalized with
    | next l answer finalized => exact ⟨answer, _, rfl, .told finalized⟩
  · rintro ⟨answer, fs, rfl, ⟨finalized⟩⟩
    exact .told (.next l answer finalized)

/-- What lies ahead is what comes next, and what lies ahead after that. -/
theorem aheadOf_step (c : Lifecycle L) : AheadOf c.listeners c.phase es r ↔
    match c.step with
    | (c', .silent) => AheadOf c.listeners c'.phase es r
    | (_, .call l hook) => ∃ result fs, es = .called l hook :: .answered result :: fs ∧
        AheadOf c.listeners (c.hookEnded result).phase fs r
    | (_, .runTask) => ∃ fs, es = .started :: fs ∧ Runs c.listeners fs r
    | (_, .finish result) => es = [] ∧ r = result := by
  obtain ⟨ls, phase⟩ := c
  have answers {hook : Hook} {todo : List L} {l : L} {p : List L → Phase L}
      {rest : List (Occasion L) → Outcome → Prop}
      (ahead : AheadOf ls (p (l :: todo)) = Stretch ls (l :: todo) hook rest)
      (ok : AheadOf ls ((⟨ls, p (l :: todo)⟩ : Lifecycle L).hookEnded (.ok ())).phase =
        Stretch ls todo hook rest)
      (error : ∀ e, AheadOf ls ((⟨ls, p (l :: todo)⟩ : Lifecycle L).hookEnded (.error e)).phase =
        Fails ls ls e) :
      AheadOf ls (p (l :: todo)) es r ↔
        ∃ result fs, es = .called l hook :: .answered result :: fs ∧
          AheadOf ls ((⟨ls, p (l :: todo)⟩ : Lifecycle L).hookEnded result).phase fs r := by
    rw [ahead, stretch_cons]
    refine exists_congr fun result => exists_congr fun fs => and_congr_right fun _ => ?_
    cases result with
    | ok => rw [ok]
    | error e => rw [error]
  cases phase with
  | running => rfl
  | settingUp todo =>
    cases todo with
    | nil =>
      refine stretch_nil.trans ⟨?_, ?_⟩
      · rintro ⟨runs⟩
        exact ⟨_, rfl, runs⟩
      · rintro ⟨fs, rfl, runs⟩
        exact .started runs
    | cons => exact answers (p := .settingUp) rfl rfl fun _ => rfl
  | preCompleting v todo =>
    cases todo with
    | nil => exact stretch_nil
    | cons => exact answers (p := .preCompleting v) rfl rfl fun _ => rfl
  | completing v todo =>
    cases todo with
    | nil => exact stretch_nil
    | cons => exact answers (p := .completing v) rfl rfl fun _ => rfl
  | failing e todo =>
    cases todo with
    | nil => exact fails_nil
    | cons =>
      refine fails_cons.trans (exists_congr fun result => ?_)
      cases result <;> rfl
  | finalizing result todo =>
    cases todo with
    | nil => exact finalizes_nil
    | cons =>
      refine finalizes_cons.trans (exists_congr fun answer => ?_)
      cases answer <;> rfl
  | _ => exact finalizes_nil

end Ahead

/-! ### Courses follow the protocol -/

section Follows

variable {c : Course L} {es : List (Occasion L)} {r : Outcome}

/-- The steps of a course. -/
inductive Taken (c : Course L) : Course L → Prop
  | ignored : Taken c c
  | went {life : Lifecycle L} (idle : c.calling = false) (step : c.life.step = (life, .silent)) :
    Taken c { c with life }
  | called {l : L} {hook : Hook} (idle : c.calling = false)
    (step : c.life.step = (c.life, .call l hook)) :
    Taken c ⟨c.life, true, c.occasions ++ [.called l hook]⟩
  | started (idle : c.calling = false)
    (step : c.life.step = ({ c.life with phase := .running }, .runTask)) :
    Taken c ⟨{ c.life with phase := .running }, false, c.occasions ++ [.started]⟩
  | answered (result : Except Error Unit) (calling : c.calling = true) :
    Taken c ⟨c.life.hookEnded result, false, c.occasions ++ [.answered result]⟩
  | settled (outcome : Outcome) (idle : c.calling = false) (running : c.life.phase = .running) :
    Taken c ⟨c.life.taskEnded outcome, false, c.occasions ++ [.settled outcome]⟩

theorem step_call {c c' : Lifecycle L} {l : L} {hook : Hook} (h : c.step = (c', .call l hook)) :
    c' = c := by
  unfold Lifecycle.step at h
  split at h <;> cases h <;> rfl

theorem step_runTask {c c' : Lifecycle L} (h : c.step = (c', .runTask)) :
    c' = { c with phase := .running } := by
  unfold Lifecycle.step at h
  split at h <;> cases h
  rfl

theorem taken (c : Course L) (i : Stimulus) : Taken c (c.take i) := by
  cases i with
  | move =>
    simp only [take]
    split
    · exact .went ‹_› ‹_›
    · rename_i idle step
      obtain rfl := step_call step
      exact .called idle step
    · rename_i idle step
      obtain rfl := step_runTask step
      exact .started idle step
    · exact .ignored
  | answered result =>
    simp only [take]
    split
    · exact .answered result ‹_›
    · exact .ignored
  | settled outcome =>
    simp only [take]
    split
    · exact .settled outcome ‹_› ‹_›
    · exact .ignored

theorem result?_eq_some :
    c.result? = some r ↔ c.calling = false ∧ c.life.step.2 = .finish r := by
  unfold result?
  split
  · rename_i calling finish
    simp [calling, finish]
  · rename_i other
    exact ⟨nofun, fun ⟨calling, finish⟩ => absurd finish (other r calling)⟩

/-- A course that returns has nothing ahead but its result. -/
theorem ahead_of_result (h : c.result? = some r) : Ahead c [] r := by
  obtain ⟨calling, finish⟩ := result?_eq_some.1 h
  refine .idle calling ((aheadOf_step c.life).2 ?_)
  rcases step : c.life.step with ⟨life, move⟩
  obtain rfl : move = .finish r := by rw [← finish, step]
  exact ⟨rfl, rfl⟩

theorem listeners_hookEnded (c : Lifecycle L) (result : Except Error Unit) :
    (c.hookEnded result).listeners = c.listeners := by
  unfold Lifecycle.hookEnded
  split <;> rfl

theorem listeners_step (c : Lifecycle L) : c.step.1.listeners = c.listeners := by
  unfold Lifecycle.step
  split <;> rfl

theorem listeners_taskEnded (c : Lifecycle L) (outcome : Outcome) :
    (c.taskEnded outcome).listeners = c.listeners := by
  cases outcome <;> rfl

theorem aheadOf_taskEnded (c : Lifecycle L) (outcome : Outcome) :
    AheadOf c.listeners (c.taskEnded outcome).phase es r ↔
      Runs c.listeners (.settled outcome :: es) r := by
  cases outcome with
  | ok v => exact ⟨.passed, fun | .passed h => h⟩
  | error e => exact ⟨.failed, fun | .failed h => h⟩

/-- What lay ahead before a step is what happened and what lies ahead now. -/
theorem Taken.ahead {c' : Course L} (h : Taken c c') (ahead : Ahead c' es r) :
    ∃ fs, c'.occasions = c.occasions ++ fs ∧ Ahead c (fs ++ es) r := by
  cases h with
  | ignored => exact ⟨[], (List.append_nil _).symm, ahead⟩
  | @went life idle step =>
    refine ⟨[], (List.append_nil _).symm, ?_⟩
    rcases ahead with ⟨-, ahead⟩ | ⟨_, calling, -⟩
    · refine .idle idle ((aheadOf_step c.life).2 ?_)
      rw [step]
      rwa [← listeners_step c.life, step]
    · cases idle.symm.trans calling
  | called idle step =>
    refine ⟨_, rfl, ?_⟩
    rcases ahead with ⟨⟨⟩, -⟩ | ⟨result, -, ahead⟩
    refine .idle idle ((aheadOf_step c.life).2 ?_)
    rw [step]
    exact ⟨result, _, rfl, ahead⟩
  | started idle step =>
    refine ⟨_, rfl, ?_⟩
    rcases ahead with ⟨-, ahead⟩ | ⟨_, ⟨⟩, -⟩
    refine .idle idle ((aheadOf_step c.life).2 ?_)
    rw [step]
    exact ⟨_, rfl, ahead⟩
  | answered result calling =>
    refine ⟨_, rfl, ?_⟩
    rcases ahead with ⟨-, ahead⟩ | ⟨_, ⟨⟩, -⟩
    refine .calling result calling ?_
    rwa [← listeners_hookEnded]
  | settled outcome idle running =>
    refine ⟨_, rfl, ?_⟩
    rcases ahead with ⟨-, ahead⟩ | ⟨_, ⟨⟩, -⟩
    refine .idle idle ?_
    rw [listeners_taskEnded] at ahead
    rw [running]
    exact (aheadOf_taskEnded c.life outcome).1 ahead

theorem follows {stimuli : List Stimulus} (h : (c.after stimuli).result? = some r) :
    ∃ fs, (c.after stimuli).occasions = c.occasions ++ fs ∧ Ahead c fs r := by
  induction stimuli generalizing c with
  | nil => exact ⟨[], (List.append_nil _).symm, ahead_of_result h⟩
  | cons i is ih =>
    obtain ⟨fs, later, ahead⟩ := ih h
    obtain ⟨gs, now, ahead⟩ := (taken c i).ahead ahead
    exact ⟨gs ++ fs, by rw [← List.append_assoc, ← now]; exact later, ahead⟩

end Follows

/-! ### Courses come to an end -/

section Ends

variable {c : Course L} {es : List (Occasion L)} {r : Outcome}

/-- A hook has been called only when one was due. -/
def Poised (c : Course L) : Prop :=
  c.calling = true → ∃ l hook, c.life.step = (c.life, .call l hook)

theorem Taken.poised {c' : Course L} (h : Taken c c') (poised : c.Poised) : c'.Poised := by
  cases h with
  | ignored => exact poised
  | went idle => exact fun calling => absurd (idle.symm.trans calling) nofun
  | called idle step => exact fun _ => ⟨_, _, step⟩
  | started | answered | settled => nofun

/-- How many stimuli a run with `n` listeners still takes at most. -/
def dueOf (n : Nat) : Phase L → Nat
  | .settingUp todo => 2 * todo.length + 8 * n + 5
  | .running => 8 * n + 4
  | .preCompleting _ todo => 2 * todo.length + 6 * n + 3
  | .completing _ todo => 2 * todo.length + 4 * n + 2
  | .failing _ todo => 2 * todo.length + 2 * n + 1
  | .finalizing _ todo => 2 * todo.length
  | .over _ => 0

def due (c : Course L) : Nat :=
  dueOf c.life.listeners.length c.life.phase - if c.calling then 1 else 0

theorem dueOf_hookEnded {c : Lifecycle L} {l : L} {hook : Hook} (h : c.step = (c, .call l hook))
    (result : Except Error Unit) : dueOf c.listeners.length (c.hookEnded result).phase + 1 <
      dueOf c.listeners.length c.phase := by
  obtain ⟨ls, phase⟩ := c
  cases phase with
  | settingUp todo | preCompleting _ todo | completing _ todo | failing _ todo
  | finalizing _ todo =>
    cases todo with
    | nil => cases h
    | cons =>
      cases result <;> simp only [Lifecycle.hookEnded, dueOf, List.tail_cons, List.length_cons] <;>
        omega
  | _ => cases h

theorem dueOf_taskEnded {c : Lifecycle L} (running : c.phase = .running) (outcome : Outcome) :
    dueOf c.listeners.length (c.taskEnded outcome).phase < dueOf c.listeners.length c.phase := by
  rw [running]
  cases outcome <;> simp only [Lifecycle.taskEnded, dueOf] <;> omega

theorem dueOf_step {c : Lifecycle L} (working : c.phase ≠ .running) :
    match c.step with
    | (c', .silent) | (c', .runTask) =>
      dueOf c.listeners.length c'.phase < dueOf c.listeners.length c.phase
    | (_, .call ..) => 0 < dueOf c.listeners.length c.phase
    | (_, .finish _) => True := by
  obtain ⟨ls, phase⟩ := c
  cases phase with
  | running => exact absurd rfl working
  | settingUp todo | preCompleting _ todo | completing _ todo | failing _ todo
  | finalizing _ todo =>
    cases todo <;> simp only [Lifecycle.step, dueOf, List.length_cons, List.length_nil] <;> omega
  | _ => trivial

theorem due_begin (ls : List L) : (begin ls).due = 10 * ls.length + 5 := by
  show 2 * ls.length + 8 * ls.length + 5 - 0 = _
  omega

variable (answer : Course L → Except Error Unit) (settle : Course L → Outcome)

theorem due_next (poised : c.Poised) (going : c.result? = none) :
    (c.next answer settle).due < c.due := by
  unfold next awaited
  split
  · rename_i calling
    obtain ⟨l, hook, step⟩ := poised calling
    have fewer := dueOf_hookEnded step (answer c)
    simp only [take, calling, due, listeners_hookEnded, if_true]
    simp only [Bool.false_eq_true, if_false]
    omega
  · rename_i idle running
    have fewer := dueOf_taskEnded running (settle c)
    simp only [take, idle, running, due, listeners_taskEnded, Bool.false_eq_true, if_false,
      Nat.sub_zero]
    rwa [running] at fewer
  · rename_i idle working
    have fewer := dueOf_step (c := c.life) working
    have listeners := listeners_step c.life
    have returns (r : Outcome) : c.life.step.2 ≠ .finish r := fun finish =>
      absurd (result?_eq_some.2 ⟨idle, finish⟩) (going ▸ nofun)
    rcases step : c.life.step with ⟨life, _ | _ | _ | _⟩ <;>
      simp only [step] at fewer listeners returns <;>
      simp only [take, idle, step, due, listeners, Bool.false_eq_true, if_false, if_true,
        Nat.sub_zero]
    · exact fewer
    · obtain rfl := step_call step
      omega
    · exact fewer
    · exact absurd rfl (returns _)

/-- Whatever hooks and the task end with, a run comes to its end. -/
theorem comes_to_end (poised : c.Poised) :
    ∃ k ≤ c.due, (((next answer settle)^[k] c).result?).isSome = true := by
  induction due : c.due using Nat.strongRecOn generalizing c with
  | ind n ih =>
    cases result : c.result? with
    | some r => exact ⟨0, Nat.zero_le _, by simp [result]⟩
    | none =>
      have fewer := due_next answer settle poised result
      have poised : (c.next answer settle).Poised := (taken c _).poised poised
      obtain ⟨k, few, ends⟩ := ih _ (due ▸ fewer) poised rfl
      exact ⟨k + 1, by omega, ends⟩

/-- The end of the task can come when it lies ahead. -/
theorem next_of_runs (idle : c.calling = false) (running : c.life.phase = .running)
    {outcome : Outcome} (runs : Runs c.life.listeners (.settled outcome :: es) r) :
    ∃ answer settle fs gs, .settled outcome :: es = fs ++ gs ∧
      (c.next answer settle).occasions = c.occasions ++ fs ∧
      Ahead (c.next answer settle) gs r := by
  refine ⟨fun _ => .ok (), fun _ => outcome, [.settled outcome], es, rfl, ?_⟩
  have goes : c.next (fun _ => .ok ()) (fun _ => outcome) =
      ⟨c.life.taskEnded outcome, false, c.occasions ++ [.settled outcome]⟩ := by
    simp only [Course.next, awaited, take, idle, running]
  rw [goes]
  refine ⟨rfl, .idle rfl ?_⟩
  rw [listeners_taskEnded]
  exact (aheadOf_taskEnded c.life outcome).2 runs

/-- A course can go on with what lies ahead. -/
theorem Ahead.next (h : Ahead c es r) (going : c.result? = none) : ∃ answer settle fs gs,
    es = fs ++ gs ∧ (c.next answer settle).occasions = c.occasions ++ fs ∧
      Ahead (c.next answer settle) gs r := by
  rcases h with ⟨idle, ahead⟩ | ⟨result, calling, ahead⟩
  · by_cases running : c.life.phase = .running
    · rw [running] at ahead
      cases ahead with
      | failed fails => exact next_of_runs idle running (.failed fails)
      | passed prepares => exact next_of_runs idle running (.passed prepares)
    · refine ⟨fun _ => .ok (), fun _ => .ok .null, ?_⟩
      have moves : c.next (fun _ => .ok ()) (fun _ => .ok .null) = c.take .move := by
        unfold Course.next awaited
        split
        · rename_i calling
          cases idle.symm.trans calling
        · exact absurd ‹_› running
        · rfl
      rw [moves]
      have next := (aheadOf_step c.life).1 ahead
      have listeners := listeners_step c.life
      rcases step : c.life.step with ⟨life, _ | ⟨l, hook⟩ | _ | result⟩ <;>
        simp only [step] at next listeners <;> simp only [take, idle, step]
      · exact ⟨[], es, rfl, (List.append_nil _).symm, .idle rfl (listeners.symm ▸ next)⟩
      · obtain ⟨result, gs, rfl, later⟩ := next
        obtain rfl := step_call step
        exact ⟨[_], _, rfl, rfl, .calling result rfl later⟩
      · obtain ⟨gs, rfl, runs⟩ := next
        obtain rfl := step_runTask step
        exact ⟨[_], _, rfl, rfl, .idle rfl runs⟩
      · exact absurd (result?_eq_some.2 ⟨idle, congrArg Prod.snd step⟩) (going ▸ nofun)
  · refine ⟨fun _ => result, fun _ => .ok .null, [.answered result], _, rfl, ?_⟩
    have goes : c.next (fun _ => result) (fun _ => .ok .null) =
        ⟨c.life.hookEnded result, false, c.occasions ++ [.answered result]⟩ := by
      simp only [Course.next, awaited, take, calling, if_true]
    rw [goes]
    refine ⟨rfl, .idle rfl ?_⟩
    rwa [listeners_hookEnded]

/-- All that lies ahead can come. -/
theorem Ahead.reached (h : Ahead c es r) (poised : c.Poised) : ∃ stimuli,
    (c.after stimuli).occasions = c.occasions ++ es ∧ (c.after stimuli).result? = some r := by
  induction due : c.due using Nat.strongRecOn generalizing c es with
  | ind n ih =>
    cases result : c.result? with
    | some r' =>
      obtain ⟨idle, finish⟩ := result?_eq_some.1 result
      rcases h with ⟨-, ahead⟩ | ⟨_, calling, -⟩
      · have next := (aheadOf_step c.life).1 ahead
        rcases step : c.life.step with ⟨life, move⟩
        obtain rfl : move = .finish r' := by rw [← finish, step]
        rw [step] at next
        obtain ⟨rfl, rfl⟩ := next
        exact ⟨[], (List.append_nil _).symm, result⟩
      · exact absurd (idle.symm.trans calling) nofun
    | none =>
      obtain ⟨answer, settle, fs, gs, rfl, now, ahead⟩ := h.next result
      have fewer := due_next answer settle poised result
      have poised : (c.next answer settle).Poised := (taken c _).poised poised
      obtain ⟨is, later, ends⟩ := ih _ (due ▸ fewer) ahead poised rfl
      refine ⟨c.awaited answer settle :: is, ?_, ends⟩
      rw [← List.append_assoc, ← now]
      exact later

theorem poised_begin (ls : List L) : (begin ls).Poised := nofun

theorem poised_after {stimuli : List Stimulus} (poised : c.Poised) : (c.after stimuli).Poised := by
  induction stimuli generalizing c with
  | nil => exact poised
  | cons i is ih => exact ih ((taken c i).poised poised)

theorem after_append (c : Course L) (is js : List Stimulus) :
    c.after (is ++ js) = (c.after is).after js := List.foldl_append

theorem exists_after (c : Course L) (k : Nat) :
    ∃ is, (Course.next answer settle)^[k] c = c.after is := by
  induction k generalizing c with
  | zero => exact ⟨[], rfl⟩
  | succ k ih =>
    obtain ⟨is, reached⟩ := ih (c.next answer settle)
    exact ⟨c.awaited answer settle :: is, reached⟩

theorem step_silent {c c' : Lifecycle L} (h : c.step = (c', .silent))
    (running : c'.phase = .running) : c' = c := by
  unfold Lifecycle.step at h
  split at h <;> cases h
  · rfl
  all_goals cases running

theorem hookEnded_ne_running {c : Lifecycle L} {l : L} {hook : Hook}
    (h : c.step = (c, .call l hook)) (result : Except Error Unit) :
    (c.hookEnded result).phase ≠ .running := by
  obtain ⟨ls, phase⟩ := c
  cases phase with
  | settingUp | preCompleting | completing | failing | finalizing => cases result <;> nofun
  | _ => cases h

/-- Code of a hook or of the task is running. -/
def Open (c : Course L) : Prop := c.calling = true ∨ c.life.phase = .running

theorem Taken.last {c' : Course L} (h : Taken c c') (poised : c.Poised)
    (last : c.Open → ∃ o ∈ c.occasions.getLast?, o.isOpening = true) (running : c'.Open) :
    ∃ o ∈ c'.occasions.getLast?, o.isOpening = true := by
  cases h with
  | ignored => exact last running
  | went idle step =>
    rcases running with calling | running
    · cases idle.symm.trans calling
    · obtain rfl := step_silent step running
      exact last (.inr running)
  | called => exact ⟨_, List.getLast?_concat .., rfl⟩
  | started => exact ⟨_, List.getLast?_concat .., rfl⟩
  | answered result calling =>
    obtain ⟨l, hook, step⟩ := poised calling
    rcases running with ⟨⟨⟩⟩ | running
    exact absurd running (hookEnded_ne_running step result)
  | settled outcome =>
    rcases running with ⟨⟨⟩⟩ | running
    cases outcome <;> cases running

/-- While code is running, nothing has happened since it began to. -/
theorem last_of_open {stimuli : List Stimulus} (poised : c.Poised)
    (last : c.Open → ∃ o ∈ c.occasions.getLast?, o.isOpening = true)
    (running : (c.after stimuli).Open) :
    ∃ o ∈ (c.after stimuli).occasions.getLast?, o.isOpening = true := by
  induction stimuli generalizing c with
  | nil => exact last running
  | cons i is ih =>
    exact ih ((taken c i).poised poised) ((taken c i).last poised last) running

/-- The courses that come to an end are those that follow the protocol. -/
theorem protocol_iff (ls : List L) (es : List (Occasion L)) (r : Outcome) :
    Protocol ls es r ↔ ∃ stimuli, ((begin ls).after stimuli).occasions = es ∧
      ((begin ls).after stimuli).result? = some r := by
  rw [protocol_iff_ahead]
  constructor
  · exact fun ahead => ahead.reached (poised_begin ls)
  · rintro ⟨stimuli, rfl, ends⟩
    obtain ⟨fs, same, ahead⟩ := follows ends
    exact same ▸ ahead

/-- Whatever has happened in a course is the beginning of something that follows the protocol. -/
theorem protocol_of_after (ls : List L) (stimuli : List Stimulus) :
    ∃ more r, Protocol ls (((begin ls).after stimuli).occasions ++ more) r := by
  have poised : ((begin ls).after stimuli).Poised := poised_after (poised_begin ls)
  obtain ⟨k, -, ends⟩ := comes_to_end (fun _ => .ok ()) (fun _ => .ok .null) poised
  obtain ⟨r, ends⟩ := Option.isSome_iff_exists.1 ends
  obtain ⟨is, reached⟩ := exists_after (fun _ => .ok ()) (fun _ => .ok .null) _ k
  rw [reached] at ends
  obtain ⟨fs, same, -⟩ := follows ends
  rw [← after_append] at same ends
  exact ⟨fs, r, (protocol_iff ls _ r).2 ⟨_, same, ends⟩⟩

end Ends

end Course

end EffectEngine
