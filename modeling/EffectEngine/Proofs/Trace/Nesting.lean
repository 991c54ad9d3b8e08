import EffectEngine.Proofs.Trace.Brackets
import EffectEngine.Proofs.Task.Lineup
import EffectEngine.Proofs.World.Moves
import EffectEngine.Proofs.Task.Observers
import EffectEngine.Proofs.World.StationMoves

/-!
# Trace events are well bracketed

The frames of a task are numbered in the order in which they come. `Mode` says what has been heard
from its trace frames, whatever the task does at the moment: a frame of the line has a bracket open
if its generator is suspended, and the one that is being resumed is about to open its bracket, to
close it, or to yield or return afterwards. Every step of a station keeps this (`Mode.step`). When
the task settles no frame is left, so that the word is bracketed.
-/

namespace EffectEngine.Trace

variable {T : ClientSig}

/-- The label of a place in a chain that is that of a trace middleware. -/
def label? (slot : Option (HandlerSlot T.sig.Mw)) : Option String :=
  match slot.bind (·.handler?) with
  | some (.trace label) => some label
  | _ => none

abbrev FramePlace (T : ClientSig) := Place T.sig.Gen T.sig.Mw

/-- Where a frame stands, and the bracket it has open. -/
inductive HoldsOpen (word : List Letter) (n : Nat) : FramePlace T → List Bracket → Prop
  | other {x : FramePlace T} (foreign : label? x.1 = none) : HoldsOpen word n x []
  | unbegun {slot : Option (HandlerSlot T.sig.Mw)} {label : String}
    (serves : label? slot = some label) (name : String) (op : T.sig.Operation)
    (new : ∀ l ∈ word, l.1 ≠ n) :
    HoldsOpen word n (slot, .library name (.created (.trace label op)), false) []
  | begun {slot : Option (HandlerSlot T.sig.Mw)} {label : String}
    (serves : label? slot = some label) (name kind : String) :
    HoldsOpen word n (slot, .library name (.suspended (.trace label kind)), false)
      [⟨n, label, kind⟩]
  | ended {slot : Option (HandlerSlot T.sig.Mw)} {label : String}
    (serves : label? slot = some label) (name : String) (done : Bool) :
    HoldsOpen word n (slot, .library name .finished, done) []

/-- What the code still does that resumes the generator of a frame, and the bracket the frame has
open. One that has to return does not begin. -/
inductive Speaks (word : List Letter) (n : Nat) (slot : Option (HandlerSlot T.sig.Mw))
    (done returning : Bool) : Flow T.sig (T.sig.Signal × T.sig.Gen) → List Bracket → Prop
  | other (foreign : label? slot = none) (flow : Flow T.sig (T.sig.Signal × T.sig.Gen)) :
    Speaks word n slot done returning flow []
  | begins {label : String} (serves : label? slot = some label) (running : done = false)
    (stays : returning = false) (name : String) (op : T.sig.Operation)
    (new : ∀ l ∈ word, l.1 ≠ n) :
    Speaks word n slot done returning (.going (.ask (.log (beginning label op.kind)) fun _ =>
      .done (.yielded (.operation (.next op)), .library name (.suspended (.trace label op.kind)))))
      []
  | begun {label : String} (serves : label? slot = some label) (running : done = false)
    (stays : returning = false) (name kind : String) (y : T.sig.Yielded) :
    Speaks word n slot done returning
      (.going (.done (.yielded y, .library name (.suspended (.trace label kind)))))
      [⟨n, label, kind⟩]
  | ends {label : String} (serves : label? slot = some label) (name kind : String)
    (outcome : Outcome) :
    Speaks word n slot done returning (.going (.ask (.log (ending label kind outcome)) fun _ =>
      .done (.complete outcome, .library name .finished))) [⟨n, label, kind⟩]
  | said {label : String} (serves : label? slot = some label) (name : String)
    (outcome : Outcome) :
    Speaks word n slot done returning (.going (.done (.complete outcome, .library name .finished)))
      []

/-- Where the frames of a line stand, with their numbers. -/
inductive Lined (word : List Letter) (count : Nat) :
    List Nat → List (FramePlace T) → List Bracket → Prop
  | nil : Lined word count [] [] []
  | cons {n : Nat} {roster : List Nat} {x : FramePlace T}
    {line : List (FramePlace T)} {bs cs : List Bracket} (stands : HoldsOpen word n x bs)
    (known : n < count) (new : n ∉ roster) (below : Lined word count roster line cs) :
    Lined word count (n :: roster) (x :: line) (bs ++ cs)

/-- What has been heard from the frames of a task. -/
inductive Mode (word : List Letter) (count : Nat) : List Nat → Station T.sig → Prop
  | unborn (silent : word = []) : Mode word count [] ⟨none, []⟩
  | rests {t : T.sig.Task} {p : Post T.sig} {roster : List Nat} {bs : List Bracket}
    (calm : p = .reserved ∨ p = .driven none) (coherent : t.Coherent)
    (lined : Lined word count roster t.line bs) (begun : Begun word bs) :
    Mode word count roster ⟨some t, [p]⟩
  | runs {t : T.sig.Task} {returning : Bool} {slot : Option (HandlerSlot T.sig.Mw)} {g : T.sig.Gen}
    {done : Bool} {rest : List (FramePlace T)} {n : Nat} {roster : List Nat}
    {flow : Flow T.sig (T.sig.Signal × T.sig.Gen)} {bs cs : List Bracket} (coherent : t.Coherent)
    (stage : t.stage.returning? = some returning) (line : t.line = (slot, g, done) :: rest)
    (speaks : Speaks word n slot done returning flow bs) (known : n < count) (new : n ∉ roster)
    (below : Lined word count roster rest cs) (begun : Begun word (bs ++ cs)) :
    Mode word count (n :: roster) ⟨some t, [.driven (some flow)]⟩
  | gone (t : T.sig.Task) {roster : List Nat} {bs : List Bracket} (begun : Begun word bs) :
    Mode word count roster ⟨some t, []⟩

variable {c : Client T} {registry : Registry T.sig.Mw} {listeners : List T.Listener}
  {word : List Letter} {count n : Nat} {slot : Option (HandlerSlot T.sig.Mw)} {done : Bool}
  {g : T.sig.Gen} {bs cs : List Bracket} {roster : List Nat}
  {line : List (FramePlace T)}

/-! ### What a frame does when it is resumed -/

theorem HoldsOpen.resume (h : HoldsOpen word n (slot, g, done) bs) (input : Resume) :
    Speaks word n slot done false (.going ((c.host registry listeners).resume g input)) bs := by
  cases h with
  | other foreign => exact .other foreign _
  | unbegun serves name op new =>
    cases input with
    | next v => exact .begins serves rfl rfl name op new
    | throw e => exact .said serves name (.error e)
    | forcedReturn => exact .said serves name (.ok .null)
  | begun serves name kind => exact .ends serves name kind input.outcome
  | ended serves name =>
    cases input with
    | next v => exact .said serves name (.ok .null)
    | throw e => exact .said serves name (.error e)
    | forcedReturn => exact .said serves name (.ok .null)

theorem HoldsOpen.retire (h : HoldsOpen word n (slot, g, done) bs) :
    Speaks word n slot done true (.going ((c.host registry listeners).retire g)) bs := by
  cases h with
  | other foreign => exact .other foreign _
  | unbegun serves name => exact .said serves name (.ok .null)
  | begun serves name kind => exact .ends serves name kind (.error .interrupted)
  | ended serves name => exact .said serves name (.ok .null)

/-! ### The line of a task -/

namespace Lined

theorem mono (h : Lined word count roster line bs) {count' : Nat} (grown : count ≤ count') :
    Lined word count' roster line bs := by
  induction h with
  | nil => exact .nil
  | cons stands known new _ ih => exact .cons stands (known.trans_le grown) new ih

/-- Another frame is heard from. -/
theorem hears (h : Lined word count roster line bs) {l : Letter} (other : l.1 ∉ roster) :
    Lined (word ++ [l]) count roster line bs := by
  induction h with
  | nil => exact .nil
  | cons stands known new _ ih =>
    obtain ⟨apart, other⟩ := not_or.1 fun mem => other (List.mem_cons.2 mem)
    refine .cons ?_ known new (ih other)
    cases stands with
    | other foreign => exact .other foreign
    | unbegun serves name op silent =>
      refine .unbegun serves name op fun l' hl' => ?_
      rcases List.mem_append.1 hl' with old | last
      · exact silent l' old
      · exact List.mem_singleton.1 last ▸ apart
    | begun serves name kind => exact .begun serves name kind
    | ended serves name done => exact .ended serves name done

theorem lt_count (h : Lined word count roster line bs) : ∀ n ∈ roster, n < count := by
  induction h with
  | nil => exact nofun
  | cons _ known _ _ ih => exact List.forall_mem_cons.2 ⟨known, ih⟩

theorem count_notMem (h : Lined word count roster line bs) : count ∉ roster :=
  fun mem => Nat.lt_irrefl _ (h.lt_count _ mem)

/-- A frame that comes to the line gets the next number. -/
theorem push (h : Lined word count roster line bs) {x : FramePlace T}
    (stands : HoldsOpen word count x []) :
    Lined word (count + 1) (count :: roster) (x :: line) bs :=
  .cons stands (Nat.lt_succ_self _) h.count_notMem (h.mono (Nat.le_succ _))

end Lined

/-- The numbers of the frames after as many have come or gone as the length of the line tells. -/
def follow (roster : List Nat) (count before after : Nat) : List Nat :=
  if before < after then count :: roster else roster.drop (before - after)

/-- How many frames have come. -/
def counted (count before after : Nat) : Nat := if before < after then count + 1 else count

def lengthOf (t : Option T.sig.Task) : Nat := t.elim 0 (·.line.length)

/-- What is heard from the trace frame that stands first. -/
def letters (roster : List Nat) (t : Option T.sig.Task) (es : List Event) : List Letter :=
  match roster, t.map (·.line) with
  | n :: _, some (x :: _) => if (label? x.1).isSome then es.map (n, ·) else []
  | _, _ => []

theorem letters_nil (roster : List Nat) (t : Option T.sig.Task) : letters roster t [] = [] := by
  unfold letters
  split
  · split <;> rfl
  · rfl

theorem letters_cons {t : T.sig.Task} {x : FramePlace T} (first : t.line = x :: line) (n : Nat)
    (roster : List Nat) (es : List Event) : letters (n :: roster) (some t) es =
      if (label? x.1).isSome then es.map (n, ·) else [] := by
  simp only [letters, Option.map_some, first]

/-- The roster and the brackets that are open follow the line. -/
inductive Keeps (word : List Letter) (count : Nat) (roster : List Nat)
    (line line' : List (FramePlace T)) : Prop
  | intro {bs : List Bracket} (begun : Begun word bs)
    (lined : Lined word (counted count line.length line'.length)
      (follow roster count line.length line'.length) line' bs)

namespace Keeps

variable (lined : Lined word count roster line bs) (begun : Begun word bs)
include lined begun

theorem same : Keeps word count roster line line := by
  refine .intro begun ?_
  rw [counted, follow, if_neg (Nat.lt_irrefl _), if_neg (Nat.lt_irrefl _), Nat.sub_self]
  exact lined

theorem pushed {x : FramePlace T} (stands : HoldsOpen word count x []) :
    Keeps word count roster line (x :: line) := by
  have grown : line.length < (x :: line).length := Nat.lt_succ_self _
  refine .intro begun ?_
  rw [counted, follow, if_pos grown, if_pos grown]
  exact lined.push stands

omit lined begun in
theorem popped (below : Lined word count roster line bs) (begun : Begun word bs) (n : Nat)
    (x : FramePlace T) : Keeps word count (n :: roster) (x :: line) line := by
  have shrunk : ¬ (x :: line).length < line.length := Nat.not_lt.2 (Nat.le_succ _)
  refine .intro begun ?_
  rw [counted, follow, if_neg shrunk, if_neg shrunk, List.length_cons, Nat.add_sub_cancel_left]
  exact below

omit lined begun in
/-- The first frame changes. -/
theorem changed {x x' : FramePlace T} (stands : HoldsOpen word n x' bs) (known : n < count)
    (new : n ∉ roster) (below : Lined word count roster line cs) (begun : Begun word (bs ++ cs)) :
    Keeps word count (n :: roster) (x :: line) (x' :: line) := by
  cases same (.cons stands known new below) begun with
  | intro begun lined => exact .intro begun lined

theorem shift {request : Request T.sig.Gen T.sig.Fn T.sig.Mw} {line' : List (FramePlace T)}
    (shift : Task.Shift request line line') : Keeps word count roster line line' := by
  cases shift with
  | same => exact .same lined begun
  | pushed g => exact .pushed lined begun (.other rfl)
  | popped slot g =>
    cases lined with
    | cons stands known new below =>
      cases stands <;> exact .popped below begun _ _

end Keeps

/-! ### Steps of a station -/

theorem follow_same (roster : List Nat) (count k : Nat) : follow roster count k k = roster := by
  rw [follow, if_neg (Nat.lt_irrefl _), Nat.sub_self]
  rfl

theorem counted_same (count k : Nat) : counted count k k = count := if_neg (Nat.lt_irrefl _)

namespace Mode

variable {s s' : Station T.sig} {es : List Event} {t t' u : T.sig.Task}

/-- The mode after a step. -/
abbrev After (word : List Letter) (count : Nat) (roster : List Nat) (s : Station T.sig)
    (es : List Event) (s' : Station T.sig) : Prop :=
  Mode (word ++ letters roster s.task es) (counted count (lengthOf s.task) (lengthOf s'.task))
    (follow roster count (lengthOf s.task) (lengthOf s'.task)) s'

/-- Nothing is heard, and the line stays as long. -/
theorem after_quiet (same : lengthOf s'.task = lengthOf s.task)
    (h : Mode word count roster s') : After word count roster s [] s' := by
  rw [After, letters_nil, List.append_nil, same, counted_same, follow_same]
  exact h

/-- The task goes on by itself. -/
theorem after_rests {ps : List (Post T.sig)} (coherent : t'.Coherent)
    (keeps : Keeps word count roster t.line t'.line) :
    After word count roster ⟨some t, ps⟩ [] ⟨some t', [.driven none]⟩ := by
  rw [After, letters_nil, List.append_nil]
  cases keeps with
  | intro begun lined => exact .rests (.inr rfl) coherent lined begun

theorem after_gone (begun : Begun word bs) (s : Station T.sig) (t : T.sig.Task) :
    After word count roster s [] ⟨some t, []⟩ := by
  rw [After, letters_nil, List.append_nil]
  exact .gone t begun

theorem heeds_some {t' : Option T.sig.Task} (heeds : World.Heeds (some t) t')
    (coherent : t.Coherent) :
    ∃ u, t' = some u ∧ u.line = t.line ∧ u.stage = t.stage ∧ u.Coherent := by
  rcases heeds with rfl | rfl
  · exact ⟨t, rfl, rfl, rfl, coherent⟩
  · exact ⟨_, rfl, t.line_requestCancel, Task.stage_requestCancel,
      (coherent.take .cancel : (t.take ⟨[]⟩ .cancel).Coherent)⟩

theorem left_some {t' : Option T.sig.Task} (left : World.Left (some t) t') :
    ∃ u, t' = some u := by
  obtain ⟨u, rfl | rfl, rfl | ⟨message, rfl⟩⟩ := left <;> exact ⟨_, rfl⟩

/-- Nothing but time passes, or the task is asked to cancel. -/
theorem after_heeds (h : Mode word count roster s) (heeds : World.Heeds s.task s'.task)
    (heard : List.Forall₂ Post.Heard s.posts s'.posts) : After word count roster s [] s' := by
  obtain ⟨t', ps'⟩ := s'
  cases h with
  | unborn silent =>
    obtain rfl : t' = none := by rcases heeds with rfl | rfl <;> rfl
    obtain rfl : ps' = [] := List.forall₂_nil_left_iff.1 heard
    exact after_quiet rfl (.unborn silent)
  | rests calm coherent lined begun =>
    obtain ⟨u, rfl, same, -, coherent'⟩ := heeds_some heeds coherent
    obtain ⟨p', rest, first, empty, rfl⟩ := List.forall₂_cons_left_iff.1 heard
    obtain rfl := List.forall₂_nil_left_iff.1 empty
    refine after_quiet (congrArg List.length same) (.rests ?_ coherent' (same ▸ lined) begun)
    rcases calm with rfl | rfl <;> cases first
    · exact .inl rfl
    · exact .inr rfl
  | runs coherent stage line speaks known new below begun =>
    obtain ⟨u, rfl, same, same', coherent'⟩ := heeds_some heeds coherent
    obtain ⟨p', rest, first, empty, rfl⟩ := List.forall₂_cons_left_iff.1 heard
    obtain rfl := List.forall₂_nil_left_iff.1 empty
    refine after_quiet (congrArg List.length same) ?_
    cases first with
    | nothing =>
      exact .runs coherent' (same' ▸ stage) (same.trans line) speaks known new below begun
    | delivered k outcome =>
      cases speaks with
      | other foreign =>
        exact .runs coherent' (same' ▸ stage) (same.trans line) (.other foreign _) known new below
          begun
  | gone t begun =>
    obtain rfl : ps' = [] := List.forall₂_nil_left_iff.1 heard
    obtain ⟨u, rfl⟩ : ∃ u, t' = some u := by rcases heeds with rfl | rfl <;> exact ⟨_, rfl⟩
    exact after_gone begun _ u

section Rests

variable {p : Post T.sig} (coherent : t.Coherent) (lined : Lined word count roster t.line bs)
  (begun : Begun word bs) {request : Request T.sig.Gen T.sig.Fn T.sig.Mw}
  (steps : t.step registry = (t', request))
include coherent lined begun steps

/-- The generator of the first frame is resumed. -/
theorem after_resumes {flow : Flow T.sig (T.sig.Signal × T.sig.Gen)} {g : T.sig.Gen}
    (resumes : (∃ input, request = .resume g input) ∨ request = .retire g)
    (speaks : ∀ n slot done bs returning, (returning = true ↔ request = .retire g) →
      HoldsOpen word n (slot, g, done) bs → Speaks word n slot done returning flow bs) :
    After word count roster ⟨some t, [p]⟩ [] ⟨some t', [.driven (some flow)]⟩ := by
  have asks : request ≠ .silent := by
    rcases resumes with ⟨input, rfl⟩ | rfl <;> nofun
  have same := Task.line_step_of_request coherent steps asks
  obtain ⟨returning, stage, which, slot, done, rest, line⟩ := Task.step_returning steps resumes
  have coherent' := (Task.stepped coherent steps).1
  refine after_quiet (congrArg List.length same) ?_
  rw [same.symm.trans line] at lined
  cases lined with
  | cons stands known new below =>
    exact .runs coherent' stage line (speaks _ _ _ _ returning which stands) known new below begun

/-- A request is answered at once. -/
theorem after_answered {ps : List (Post T.sig)} {answer : Impulse T.sig.Gen T.sig.Fn}
    (heard : ∀ l ∈ word, l.1 < count) (heeds : World.Heeds (some t') (some u))
    (answers : Answers (c.host registry listeners) request answer) :
    After word count roster ⟨some t, ps⟩ [] ⟨some (u.take registry answer), [.driven none]⟩ := by
  have asks : request ≠ .silent := by
    rintro rfl
    cases answers
  have still := Task.line_step_of_request coherent steps asks
  obtain ⟨_, known, same, stage, coherent'⟩ := heeds_some heeds (Task.stepped coherent steps).1
  obtain rfl := Option.some.inj known
  have lined : Lined word count roster u.line bs := by rwa [same, still]
  refine after_rests (coherent'.take answer) ?_
  rw [← still, ← same]
  cases answers with
  | filter m op ctx accepts =>
    rw [Task.take, Task.line_filtered]
    exact .same lined begun
  | fork root child =>
    rw [Task.take, Task.line_forked]
    exact .same lined begun
  | invoke func args result =>
    rw [Task.take]
    rcases Task.line_invoked (t := u) result with unchanged | ⟨g, pushed⟩
    · rw [unchanged]
      exact .same lined begun
    · rw [pushed]
      exact .pushed lined begun (.other rfl)
  | handle m op ctx result gives =>
    obtain ⟨slot, p, before, serves⟩ := Task.stage_of_handle (congrArg Prod.snd steps)
    have held := Task.step_handle (congrArg Prod.snd steps)
    obtain rfl : t = t' := congrArg Prod.fst (held.symm.trans steps)
    rw [Task.take, Task.line_handled (stage.trans before)]
    cases result with
    | error e => exact .same lined begun
    | ok g =>
      refine .pushed lined begun ?_
      cases m with
      | trace label =>
        cases gives
        refine .unbegun ?_ "trace" op fun l hl => Nat.ne_of_lt (heard l hl)
        simp only [label?, Option.bind_some, serves]
      | metrics | batchCalls | executeBatch | client =>
        refine .other ?_
        simp only [label?, Option.bind_some, serves]

end Rests

theorem step (h : Mode word count roster s) (heard : ∀ l ∈ word, l.1 < count)
    (step : Station.Next (c.host registry listeners) s es s') :
    After word count roster s es s' := by
  cases step with
  | rests heeds heard => exact h.after_heeds heeds heard
  | born id root new =>
    cases h with
    | unborn silent =>
      have fresh := Task.coherent_fresh (M := T.sig.Mw) id root
      exact after_quiet rfl (.rests new fresh .nil (silent ▸ .nil))
  | begins t =>
    cases h with
    | rests calm coherent lined begun =>
      exact after_quiet rfl (.rests (.inr rfl) coherent lined begun)
  | leaves p left =>
    cases h with
    | rests _ _ _ begun | runs _ _ _ _ _ _ _ begun =>
      obtain ⟨u, rfl⟩ := left_some left
      exact after_gone begun _ u
  | settles steps settled =>
    cases h with
    | rests _ _ _ begun => exact after_gone begun _ _
  | fails steps left =>
    cases h with
    | rests _ _ _ begun =>
      obtain ⟨u, rfl⟩ := left_some left
      exact after_gone begun _ u
  | moves steps unsettled idle =>
    cases h with
    | rests _ coherent lined begun =>
      obtain ⟨coherent', shift⟩ := Task.stepped coherent steps
      exact after_rests coherent' (.shift lined begun shift)
  | resumes steps unsettled =>
    cases h with
    | rests _ coherent lined begun =>
      refine after_resumes coherent lined begun steps (.inl ⟨_, rfl⟩)
        fun n slot done bs returning which stands => ?_
      obtain rfl : returning = false := by simpa using which
      exact stands.resume _
  | retires steps unsettled =>
    cases h with
    | rests _ coherent lined begun =>
      refine after_resumes coherent lined begun steps (.inr rfl)
        fun n slot done bs returning which stands => ?_
      obtain rfl : returning = true := which.2 rfl
      exact stands.retire
  | answered steps unsettled heeds answers =>
    cases h with
    | rests _ coherent lined begun =>
      exact after_answered coherent lined begun steps heard heeds answers
  | asks heeds q k answer =>
    cases h with
    | rests calm => rcases calm with calm | calm <;> cases calm
    | @runs _ _ _ _ _ _ n _ _ _ _ coherent stage line speaks known new below begun =>
      obtain ⟨u, rfl, same, same', coherent'⟩ := heeds_some heeds coherent
      have quiet := congrArg List.length same
      rw [After, letters_cons line, lengthOf, lengthOf, Option.elim_some, Option.elim_some, quiet,
        counted_same, follow_same]
      have line' := same.trans line
      cases speaks with
      | other foreign =>
        rw [foreign, Option.isSome_none, if_neg nofun, List.append_nil]
        exact .runs coherent' (same' ▸ stage) line' (.other foreign _) known new below begun
      | begins serves running stays name op silent =>
        rw [serves, Option.isSome_some, if_pos rfl]
        exact .runs coherent' (same' ▸ stage) line' (.begun serves running stays name op.kind _)
          known new (below.hears new) (begun.opens ⟨n, _, op.kind⟩ silent)
      | ends serves name kind outcome =>
        rw [serves, Option.isSome_some, if_pos rfl]
        exact .runs coherent' (same' ▸ stage) line' (.said serves name outcome) known new
          (below.hears new) (begun.closes outcome)
  | performs t e k outcome =>
    cases h with
    | rests calm => rcases calm with calm | calm <;> cases calm
    | runs coherent stage line speaks known new below begun =>
      cases speaks with
      | other foreign =>
        exact after_quiet rfl (.runs coherent stage line (.other foreign _) known new below begun)
  | waits t e k =>
    cases h with
    | rests calm => rcases calm with calm | calm <;> cases calm
    | runs coherent stage line speaks known new below begun =>
      cases speaks with
      | other foreign =>
        exact after_quiet rfl (.runs coherent stage line (.other foreign _) known new below begun)
  | ends t signal g =>
    cases h with
    | rests calm => rcases calm with calm | calm <;> cases calm
    | @runs _ returning _ _ _ _ _ _ _ _ _ coherent stage line speaks known new below begun =>
      have coherent' : (t.take registry (.resumed signal g)).Coherent := coherent.take _
      refine after_rests coherent' ?_
      rw [Task.line_resumed stage line, line]
      cases returning with
      | true =>
        cases speaks with
        | other | said => exact .popped below begun _ _
        | begun _ _ stays => cases stays
      | false =>
        cases speaks with
        | other foreign => exact .changed (.other foreign) known new below begun
        | begun serves running _ name kind =>
          rw [running]
          exact .changed (.begun serves name kind) known new below begun
        | said serves name => exact .changed (.ended serves name _) known new below begun

/-- Only frames that have come are heard from. -/
theorem letters_lt (h : Mode word count roster s)
    (step : Station.Next (c.host registry listeners) s es s') :
    ∀ l ∈ letters roster s.task es, l.1 < count := by
  intro l hl
  have known : ∀ n ∈ roster.head?, n < count ∨ es = [] := by
    intro n first
    cases h with
    | unborn => cases first
    | rests _ _ lined => exact .inl (lined.lt_count n (List.mem_of_mem_head? first))
    | runs _ _ _ _ known => exact .inl (Option.some.inj first ▸ known)
    | gone =>
      cases step
      exact .inr rfl
  unfold letters at hl
  split at hl
  · rename_i n rest x line first
    split at hl
    · obtain ⟨e, there, rfl⟩ := List.mem_map.1 hl
      exact (known n rfl).resolve_right (List.ne_nil_of_mem there)
    · cases hl
  · cases hl

end Mode

/-! ### What is heard in a run -/

/-- A world with what has been heard from the trace frames of a task. -/
structure Hearing (T : ClientSig) where
  world : World T.sig
  /-- The numbers of the frames in line. -/
  roster : List Nat
  /-- How many frames have come so far. -/
  count : Nat
  word : List Letter
  /-- Whether the task has settled, other than in a panic. -/
  settled : Bool

namespace Hearing

def begin (w : World T.sig) : Hearing T := ⟨w, [], 0, [], false⟩

def tick (host : Host T.sig) (i : Nat) (r : Hearing T) : Hearing T :=
  let world := r.world.step host
  let before := lengthOf (r.world.taskAt i)
  let after := lengthOf (world.taskAt i)
  { world
    roster := follow r.roster r.count before after
    count := counted r.count before after
    word := r.word ++ letters r.roster (r.world.taskAt i) (r.world.emissions i)
    settled := r.settled || (r.world.settlement? host i).isSome }

/-- What has been heard fits with where the task stands. -/
structure Sound (i : Nat) (r : Hearing T) : Prop where
  upright : r.world.Upright
  heard : ∀ l ∈ r.word, l.1 < r.count
  mode : ∃ s : Station T.sig, s.In i r.world ∧ Mode r.word r.count r.roster s ∧
    (r.settled = true → s.posts = [] ∧ s.task.isSome = true ∧ Bracketed r.word)

/-- When the task settles, its word is bracketed. -/
theorem Sound.bracketed {i : Nat} {r : Hearing T} {s : Station T.sig} (up : r.world.Upright)
    (stands : s.In i r.world) (mode : Mode r.word r.count r.roster s)
    (settles : (r.world.settlement? (c.host registry listeners) i).isSome = true) :
    ∃ t, s = ⟨some t, [.driven none]⟩ ∧ Bracketed r.word ∧
      ∀ j, (r.world.step (c.host registry listeners)).postsAt i j = [] := by
  obtain ⟨w, roster, count, word, settled⟩ := r
  obtain ⟨outcome, settles⟩ := Option.isSome_iff_exists.1 settles
  obtain ⟨⟨t, rfl, settled⟩, vacant⟩ := World.posts_of_settlement up stands settles
  refine ⟨t, rfl, ?_, vacant⟩
  cases mode with
  | rests _ coherent lined begun =>
    rw [Task.line_of_settles coherent settled] at lined
    cases lined
    exact begun.bracketed

theorem le_counted (count before after : Nat) : count ≤ counted count before after := by
  unfold counted
  split
  · exact Nat.le_succ _
  · exact Nat.le_refl _

theorem Sound.tick {i : Nat} {r : Hearing T} (h : r.Sound i) :
    (r.tick (c.host registry listeners) i).Sound i := by
  obtain ⟨up, heard, s, stands, mode, settled⟩ := h
  obtain ⟨⟨s', stands', step⟩, -, -⟩ := World.step_station (c.host registry listeners) up stands
  obtain ⟨j, turns⟩ := World.step_passes (c.host registry listeners) up
  have lt := mode.letters_lt step
  have mode' := mode.step heard step
  rw [Mode.After, ← stands.task, ← stands'.task] at mode'
  rw [← stands.task] at lt
  refine ⟨turns.upright, fun l hl => ?_, s', stands', mode', fun ended => ?_⟩
  · refine Nat.lt_of_lt_of_le ?_ (le_counted ..)
    rcases List.mem_append.1 hl with old | new
    · exact heard l old
    · exact lt l new
  · have silent (idle : s.posts = [] ∨ s.posts = [.driven none]) :
        (r.tick (c.host registry listeners) i).word = r.word := by
      simp only [Hearing.tick, step.silent idle, letters_nil, List.append_nil]
    rcases Bool.or_eq_true_iff.1 ended with before | now
    · obtain ⟨vacant, born, bracketed⟩ := settled before
      exact ⟨step.vacant born vacant, step.alive born, silent (.inl vacant) ▸ bracketed⟩
    · obtain ⟨t, rfl, bracketed, vacant⟩ := Sound.bracketed up stands mode now
      exact ⟨stands'.vacant_iff.2 vacant, step.alive rfl, silent (.inr rfl) ▸ bracketed⟩

theorem Sound.run {i : Nat} {r : Hearing T} (h : r.Sound i) (c : Client T)
    (registry : Registry T.sig.Mw) (listeners : List T.Listener) (n : Nat) :
    ((Hearing.tick (c.host registry listeners) i)^[n] r).Sound i := by
  induction n generalizing r with
  | zero => exact h
  | succ n ih => exact ih h.tick

end Hearing

/-- The events that the trace frames of a task log until it settles, other than in a panic, form a
bracketed word. -/
theorem events_bracketed (c : Client T) (registry : Registry T.sig.Mw)
    (listeners : List T.Listener) (tag : UInt64) (state : T.sig.State) (recording : Bool)
    (body : T.sig.Code Outcome) (i n : Nat) :
    let start := (World.start tag state recording).addMain body
    let heard := (Hearing.tick (c.host registry listeners) i)^[n] (.begin start)
    heard.settled = true → Bracketed heard.word := by
  intro start heard settled
  obtain ⟨up, stands⟩ := World.start_station tag state recording body i
  have begun : (Hearing.begin start).Sound i :=
    ⟨up, nofun, ⟨none, []⟩, stands, .unborn rfl, nofun⟩
  obtain ⟨s, -, -, ended⟩ := (begun.run c registry listeners n).mode
  exact (ended settled).2.2

/-- Calls pass through two trace middlewares. -/
def tracedTwice : Registry Watcher.scriptSig.sig.Mw :=
  ⟨[⟨callKind, .trace "outer"⟩, ⟨callKind, .trace "inner"⟩]⟩

/-- A world in which a task is about to be spawned whose script defers a call and then fails. -/
def deferring : World Watcher.scriptSig.sig :=
  World.addMain (.start 0 (Shared.start ()) false)
    (.perform (.spawn ⟨0⟩ (.operation (.call (Watcher.scriptFn 0) []))) .done)

/-- The frames of the deferred call open and close their brackets within those of the call that
deferred it. -/
theorem events_bracketed_deferred :
    let heard := (Hearing.tick (Watcher.scripts.host tracedTwice []) 0)^[72] (.begin deferring)
    heard.settled = true ∧ heard.word.map (·.1) = [0, 1, 3, 4, 4, 3, 1, 0] ∧
      Bracketed heard.word := by
  intro heard
  have settled : heard.settled = true := rfl
  exact ⟨settled, rfl, events_bracketed Watcher.scripts tracedTwice [] 0 _ false _ 0 72 settled⟩

end EffectEngine.Trace
