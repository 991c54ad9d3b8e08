import EffectEngine.Proofs.Task.Settlement
import EffectEngine.Proofs.Task.Tally

/-!
# The frames of a task in line

The `lineup` of a task is its stack of frames, with one that is being replaced before all others.
`Task.line` keeps of each frame only what does not change while it is neither resumed nor replaced.
A move leaves the line as it is, puts a plain frame in front or takes a completed one away
(`Task.shift_step`); the other impulses concern the first frame of the line.
-/

namespace EffectEngine

abbrev Place (G M : Type) := Option (HandlerSlot M) × G × Bool

section

variable {G F M : Type}

/-- Whether the generator that is being resumed is that of a replaced frame, if one is. -/
def Stage.returning? : Stage G F M → Option Bool
  | resuming => some false
  | retiring .. => some true
  | _ => none

def Signal.completes : Signal G F → Bool
  | complete _ => true
  | yielded _ => false

end

namespace Task

variable {G F M : Type} {t t' : Task G F M}

def lineup (t : Task G F M) : List (Frame G F M) := t.stage.replacedFrame?.toList ++ t.frames

def line (t : Task G F M) : List (Place G M) := t.lineup.map Frame.identity

theorem line_of_plain (plain : t.stage.replacedFrame? = none) :
    t.line = t.frames.map Frame.identity := by
  rw [line, lineup, plain]
  rfl

theorem line_congr (frames : t'.frames.map Frame.identity = t.frames.map Frame.identity)
    (replaced : t'.stage.replacedFrame? = t.stage.replacedFrame?) : t'.line = t.line := by
  rw [line, line, lineup, lineup, replaced, List.map_append, List.map_append, frames]

theorem line_requestCancel (t : Task G F M) : t.requestCancel.2.line = t.line := by
  unfold requestCancel
  split
  · rfl
  · refine line_congr ?_ rfl
    rw [List.map_map]
    rfl

theorem line_push (plain : t.stage.replacedFrame? = none) (g : G) (name : String)
    (slot : Option (HandlerSlot M)) (p : Purpose) :
    (t.push g name slot p).line = (slot, g, false) :: t.line := by
  rw [line_of_plain plain]
  rfl

/-- What a move with a request can make of the line. -/
inductive Shift : Request G F M → List (Place G M) → List (Place G M) → Prop
  | same (request : Request G F M) (line : List (Place G M)) : Shift request line line
  | pushed (g : G) (line : List (Place G M)) : Shift .silent line ((none, g, false) :: line)
  | popped (slot : Option (HandlerSlot M)) (g : G) (line : List (Place G M)) :
    Shift .silent ((slot, g, true) :: line) line

theorem shift_congr (request : Request G F M)
    (frames : t'.frames.map Frame.identity = t.frames.map Frame.identity)
    (replaced : t'.stage.replacedFrame? = t.stage.replacedFrame?) :
    Shift request t.line t'.line := by
  rw [line_congr frames replaced]
  exact .same request _

variable [Named G] {registry : Registry M} {origin : Option (HandlerSlot M)} {p : Purpose}

theorem shift_pushPlain (plain : t.stage.replacedFrame? = none) (g : G) :
    Shift (.silent : Request G F M) t.line (t.pushPlain g p).line := by
  rw [pushPlain, line_push plain]
  exact .pushed g _

theorem shift_dispatch (y : Yielded G F) (plain : t.stage.replacedFrame? = none) :
    Shift (.silent : Request G F M) t.line (t.dispatch registry y origin p).line := by
  have becomes {s : Stage G F M} (calm : s.replacedFrame? = none) :
      Shift (.silent : Request G F M) t.line (t.become s).line :=
    shift_congr _ rfl (calm.trans plain.symm)
  unfold dispatch
  split
  · split
    · exact becomes rfl
    · exact shift_pushPlain plain _
  · split
    · exact becomes rfl
    · split <;> exact becomes rfl
  · exact becomes rfl

theorem shift_core (op : Operation G F) (plain : t.stage.replacedFrame? = none) :
    Shift (t.core op origin p).2 t.line (t.core op origin p).1.line := by
  have becomes (request : Request G F M) {s : Stage G F M} (calm : s.replacedFrame? = none) :
      Shift request t.line (t.become s).line := shift_congr _ rfl (calm.trans plain.symm)
  cases op with
  | call | fork | start | next | custom => exact becomes _ rfl
  | execute g => exact shift_pushPlain plain g
  | recover =>
    unfold core
    refine shift_congr _ ?_ plain.symm
    simp only [become, recover]
    split
    · rename_i frames
      rw [frames]
      split <;> simp [frames, Frame.identity]
    · rfl
  | defer inner =>
    unfold core
    rcases frames : t.frames with _ | ⟨f, rest⟩
    · exact becomes _ rfl
    · refine shift_congr _ ?_ plain.symm
      simp [frames, Frame.identity]
  | terminal inner =>
    cases refused : inner.refusal? t.frames with
    | some e =>
      rw [core_refused refused]
      exact becomes _ rfl
    | none =>
      obtain ⟨-, f, rest, frames, -⟩ := Operation.refusal?_eq_none.1 refused
      rw [core_replaces refused frames]
      have same : (f :: rest).map Frame.identity = t.line := by rw [line_of_plain plain, frames]
      rw [← same]
      exact .same _ _

omit [Named G] in
theorem shift_unwind (h : t.Coherent) (stage : t.stage = .unwinding) :
    Shift (.silent : Request G F M) t.line t.unwind.line := by
  obtain ⟨f, rest, frames, done⟩ := h.unwinding stage
  have plain : t.stage.replacedFrame? = none := by rw [stage]; rfl
  unfold unwind
  rw [frames]
  dsimp only
  split
  · refine shift_congr _ ?_ plain.symm
    rw [frames]
    rfl
  · have below : (t.handDown f.result rest).line = rest.map Frame.identity := by
      rw [line_of_plain, map_handDown (by intros; rfl)]
      unfold handDown
      split
      · rfl
      · dsimp only
        split <;> rfl
    have popped := Shift.popped (F := F) f.slot f.generator (rest.map Frame.identity)
    rw [below, line_of_plain plain, frames]
    simpa [Frame.identity, done] using popped

/-- A move takes at most one frame to the line or from it, and then asks for nothing. -/
theorem shift_step (h : t.Coherent) :
    Shift (t.step registry).2 t.line (t.step registry).1.line := by
  match stage : t.stage with
  | .fresh root =>
    simp only [step, stage]
    split <;> exact shift_congr _ rfl (by rw [stage]; rfl)
  | .ready =>
    simp only [step, stage]
    split
    · exact shift_congr _ rfl (by rw [stage]; rfl)
    · rename_i frames
      refine shift_congr _ ?_ (by rw [stage]; rfl)
      simp [resumeTop, frames, Frame.identity]
  | .dispatching y origin p =>
    simp only [step, stage]
    exact shift_dispatch y (by rw [stage]; rfl)
  | .offering op slot origin p =>
    simp only [step, stage]
    split
    · exact .same _ _
    · exact shift_core op (by rw [stage]; rfl)
  | .handling op slot p =>
    simp only [step, stage]
    split
    · exact .same _ _
    · exact shift_congr _ rfl (by rw [stage]; rfl)
  | .replacing frame inner origin p | .reporting d inner origin p =>
    simp only [step, stage]
    exact shift_congr _ rfl (by rw [stage]; rfl)
  | .retiring frame inner origin p =>
    simp only [step, stage]
    exact .same _ _
  | .dispatched result p =>
    simp only [step, stage]
    have plain : t.stage.replacedFrame? = none := by rw [stage]; rfl
    cases p with
    | yielded =>
      refine shift_congr _ (map_conclude (by intros; rfl) result) ?_
      cases result <;> exact plain.symm
    | deferred level prior =>
      refine shift_congr _ (map_atLevel (by intros; rfl) level t.frames) ?_
      rw [plain]
      unfold conclude
      dsimp only
      split <;> rfl
  | .unwinding =>
    simp only [step, stage]
    exact shift_unwind h stage
  | .resuming | .invoking _ | .forking _ | .settled _ =>
    simp only [step, stage]
    exact .same _ _

/-- What a move leaves of a coherent task. -/
theorem stepped (h : t.Coherent) {request : Request G F M}
    (steps : t.step registry = (t', request)) : t'.Coherent ∧ Shift request t.line t'.line := by
  have coherent : (t.take registry .move).Coherent := h.take .move
  have shift : Shift (t.step registry).2 t.line (t.step registry).1.line := shift_step h
  rw [take, steps] at coherent
  rw [steps] at shift
  exact ⟨coherent, shift⟩

theorem line_step_of_request (h : t.Coherent) {request : Request G F M}
    (steps : t.step registry = (t', request)) (asks : request ≠ .silent) : t'.line = t.line := by
  have shift := (stepped h steps).2
  generalize t'.line = line' at shift ⊢
  generalize t.line = line at shift ⊢
  cases shift with
  | same => rfl
  | pushed | popped => exact absurd rfl asks

/-- A task that settles in its next move holds no frame. -/
theorem line_of_settles (h : t.Coherent) {outcome : Outcome}
    (settled : (t.step registry).1.outcome? = some outcome) : t.line = [] := by
  have plain : t.stage.replacedFrame? = none := by
    match stage : t.stage with
    | .replacing .. | .retiring .. => simp [step, stage, become, outcome?] at settled
    | .fresh _ | .ready | .dispatching .. | .offering .. | .handling .. | .invoking _ | .forking _
    | .resuming | .reporting .. | .dispatched .. | .unwinding | .settled _ => rfl
  have stage := outcome?_eq_some.1 settled
  have after : (t.step registry).1.Coherent := h.take .move
  have empty := after.settled outcome stage
  have frames : t.frames = [] := by
    have cases : (t.step registry).1 = t ∨ (t.step registry).1 = t.settle ∨
        t.Ongoing (t.step registry).1 := step_cases
    rcases cases with same | settles | ongoing
    · exact same ▸ empty
    · rw [settles] at empty
      exact empty
    · have unsettled := ongoing.unsettled
      rw [isSettled_iff.2 ⟨outcome, stage⟩] at unsettled
      cases unsettled
  rw [line_of_plain plain, frames]
  rfl

/-! ### Resumptions -/

theorem core_ne_resume (t : Task G F M) (op : Operation G F) (origin : Option (HandlerSlot M))
    (p : Purpose) (g : G) (input : Resume) :
    (t.core op origin p).2 ≠ .resume g input ∧ (t.core op origin p).2 ≠ .retire g := by
  unfold core
  constructor <;> repeat' split
  all_goals nofun

/-- The generator of the first frame is resumed, or that of a replaced one, which stands before all
others. -/
theorem step_returning {request : Request G F M}
    (steps : t.step registry = (t', request)) {g : G}
    (resumes : (∃ input, request = .resume g input) ∨ request = .retire g) :
    ∃ returning, t'.stage.returning? = some returning ∧
      (returning = true ↔ request = .retire g) ∧
      ∃ slot done rest, t'.line = (slot, g, done) :: rest := by
  obtain ⟨rfl, rfl⟩ : t' = (t.step registry).1 ∧ request = (t.step registry).2 := by
    rw [steps]
    exact ⟨rfl, rfl⟩
  have none {request : Request G F M} (silent : request = .silent) :
      ¬ ((∃ input, request = .resume g input) ∨ request = .retire g) := by
    rw [silent]
    rintro (⟨_, asks⟩ | asks) <;> cases asks
  match stage : t.stage with
  | .ready =>
    simp only [step, stage] at resumes ⊢
    split at resumes
    · exact absurd resumes (none rfl)
    · rename_i f rest frames
      rcases resumes with ⟨input, asks⟩ | asks
      · obtain ⟨rfl, -⟩ := Request.resume.inj asks
        refine ⟨false, rfl, ?_, f.slot, f.completed, rest.map Frame.identity, rfl⟩
        exact iff_of_false Bool.false_ne_true fun retires => by cases retires
      · cases asks
  | .retiring frame inner origin p =>
    simp only [step, stage] at resumes ⊢
    rcases resumes with ⟨_, asks⟩ | asks
    · cases asks
    · obtain rfl := Request.retire.inj asks
      refine ⟨true, rfl, ⟨fun _ => rfl, fun _ => rfl⟩, frame.slot, frame.completed,
        t.frames.map Frame.identity, ?_⟩
      rw [line, lineup, stage]
      rfl
  | .offering op slot origin p =>
    simp only [step, stage] at resumes
    split at resumes
    · rcases resumes with ⟨_, asks⟩ | asks <;> cases asks
    · rcases resumes with ⟨input, asks⟩ | asks
      · exact absurd asks (core_ne_resume t op origin p g input).1
      · exact absurd asks (core_ne_resume t op origin p g .forcedReturn).2
  | .handling op slot p | .replacing frame inner origin p =>
    simp only [step, stage] at resumes
    split at resumes <;> rcases resumes with ⟨_, asks⟩ | asks <;> cases asks
  | .reporting d inner origin p =>
    simp only [step, stage] at resumes
    rcases resumes with ⟨_, asks⟩ | asks <;> cases asks
  | .fresh root =>
    simp only [step, stage] at resumes
    split at resumes <;> exact absurd resumes (none rfl)
  | .dispatching .. | .dispatched .. | .unwinding | .resuming | .invoking _ | .forking _
  | .settled _ =>
    simp only [step, stage] at resumes
    exact absurd resumes (none rfl)

/-- What has been resumed is the first frame of the line, which goes if it has been replaced. -/
theorem line_resumed {returning : Bool} (stage : t.stage.returning? = some returning)
    {slot : Option (HandlerSlot M)} {g : G} {done : Bool} {rest : List (Place G M)}
    (line : t.line = (slot, g, done) :: rest) (signal : Signal G F) (g' : G) :
    (t.take registry (.resumed signal g')).line =
      if returning then rest else (slot, g', done || signal.completes) :: rest := by
  match s : t.stage with
  | .resuming =>
    obtain rfl : false = returning := by simpa [s, Stage.returning?] using stage
    rw [line_of_plain (by rw [s]; rfl)] at line
    obtain ⟨f, below, frames, first, rfl⟩ := List.map_eq_cons_iff.1 line
    obtain ⟨rfl, rfl, rfl⟩ : f.slot = slot ∧ f.generator = g ∧ f.completed = done := by
      simpa [Frame.identity] using first
    cases signal with
    | complete outcome =>
      simp only [take, s, resumed, frames]
      rw [line_of_plain rfl, Signal.completes, Bool.or_true]
      rfl
    | yielded y =>
      simp only [take, s, resumed, frames]
      rw [line_of_plain (by dsimp only; split <;> rfl), Signal.completes, Bool.or_false]
      rfl
  | .retiring frame inner origin p =>
    obtain rfl : true = returning := by simpa [s, Stage.returning?] using stage
    have tail : t.frames.map Frame.identity = rest := by
      rw [Task.line, lineup, s] at line
      exact (List.cons.inj line).2
    have becomes {s' : Stage G F M} (plain : s'.replacedFrame? = none) :
        (t.become s').line = rest := (line_of_plain plain).trans tail
    simp only [take, s, retired]
    split <;> exact becomes rfl
  | .fresh _ | .ready | .dispatching .. | .offering .. | .handling .. | .invoking _ | .forking _
  | .replacing .. | .reporting .. | .dispatched .. | .unwinding | .settled _ =>
    simp [s, Stage.returning?] at stage

/-! ### Answers -/

omit [Named G] in
theorem line_filtered (accepts : Bool) : (t.filtered accepts).line = t.line := by
  unfold filtered
  split
  · rename_i stage
    split <;> exact line_congr rfl (by rw [stage]; rfl)
  · rfl

omit [Named G] in
theorem line_forked (child : TaskId) : (t.forked child).line = t.line := by
  unfold forked
  split
  · rename_i stage
    exact line_congr (map_setCurrent (by intros; rfl) _) (by rw [stage]; rfl)
  · rfl

theorem line_invoked (result : Except Error G) :
    (t.invoked result).line = t.line ∨
      ∃ g, (t.invoked result).line = (none, g, false) :: t.line := by
  unfold invoked
  split
  · rename_i p stage
    have plain : t.stage.replacedFrame? = none := by rw [stage]; rfl
    cases result with
    | ok g => exact .inr ⟨g, line_push plain g _ none p⟩
    | error e => exact .inl (line_congr rfl plain.symm)
  · exact .inl rfl

omit [Named G] in
/-- A frame that is pushed for a handler stands for the place of the handler in its chain. -/
theorem line_handled {op : Operation G F} {slot : HandlerSlot M}
    (stage : t.stage = .handling op slot p) (result : Except Error G) :
    (t.handled result).line =
      (match result with
      | .ok g => [(some slot, g, false)]
      | .error _ => []) ++ t.line := by
  have plain : t.stage.replacedFrame? = none := by rw [stage]; rfl
  cases result with
  | ok g =>
    simp only [handled, stage]
    exact line_push plain g _ (some slot) p
  | error e =>
    simp only [handled, stage]
    exact line_congr rfl plain.symm

end Task

end EffectEngine
