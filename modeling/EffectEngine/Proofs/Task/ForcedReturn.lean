import EffectEngine.Coroutine
import EffectEngine.Proofs.Task.Marks

/-!
# The forced return

A frame with a pending cancellation is resumed with a forced return before it is resumed with
anything else, and with no other one after that. `Run.inputsAt` lists what the driver asks to resume
the frame at one depth of the stack with, as long as it stays there. Up to its forced return the
frame keeps its generator, unless it is being resumed, and what it yields is dropped. From a request
to cancel up to the next resumption the board is `Braced`, so that what is pushed meanwhile is
pending too.
-/

namespace EffectEngine

namespace Board

variable {G F : Type} {b : Board} {k : Nat} {e : StackEvent G F}

/-- A pending mark becomes a forced one when the top frame, if it is that frame's, is resumed. -/
theorem note_pending (h : b.marks[k]? = some .pending) (hk : k < (b.note e).marks.length) :
    (b.note e).marks[k]? =
      some (if e.input?.isSome ∧ b.marks.length = k + 1 then .forced else .pending) := by
  have hk' : k < b.marks.length := (List.getElem?_eq_some_iff.1 h).1
  cases e with
  | pushed =>
    simp only [StackEvent.input?, Option.isSome_none, Bool.false_eq_true, false_and, if_false]
    exact (List.getElem?_append_left hk').trans h
  | resumed input =>
    simp only [StackEvent.input?, Option.isSome_some, true_and, note, beginForcedReturn]
    by_cases top : b.marks.length = k + 1
    · have depth : b.marks.length - 1 = k := by omega
      rw [if_pos top, depth, if_pos h, List.getElem?_set_self hk']
    · have depth : b.marks.length - 1 ≠ k := by omega
      rw [if_neg top]
      split
      · rw [List.getElem?_set_ne depth, h]
      · exact h
  | popped | replaced =>
    simp only [note, popMark, List.length_dropLast] at hk ⊢
    rw [List.getElem?_dropLast, if_pos hk, h]
    rfl
  | cancelled => simp [note, requestCancel, h, Mark.cancel, StackEvent.input?]
  | _ => exact h

/-- Every frame of a cancelled task is still to be forced to return, or shielded. -/
def Braced (b : Board) : Prop := b.canceled = true ∧ ∀ m ∈ b.marks, m = .pending ∨ m = .shielded

theorem Braced.note (h : b.Braced) (unresumed : e.input? = none) : (b.note e).Braced := by
  obtain ⟨canceled, marks⟩ := h
  cases e with
  | resumed => cases unresumed
  | pushed isShielded =>
    refine ⟨canceled, fun m hm => ?_⟩
    rcases List.mem_append.1 hm with hm | hm
    · exact marks m hm
    · rw [List.mem_singleton.1 hm, canceled]
      unfold Mark.pushed
      cases last : b.marks.getLast? with
      | none => cases isShielded <;> simp
      | some top =>
        rcases marks top (List.mem_of_getLast? last) with rfl | rfl <;> cases isShielded <;> simp
  | popped | replaced => exact ⟨canceled, fun m hm => marks m (List.dropLast_subset _ hm)⟩
  | cancelled =>
    refine ⟨rfl, fun m hm => ?_⟩
    obtain ⟨m, old, rfl⟩ := List.mem_map.1 hm
    rcases marks m old with rfl | rfl <;> simp [Mark.cancel]
  | registered | completed | undertaken | discharged | recovered | stranded =>
    exact ⟨canceled, marks⟩

theorem Braced.foldl {es : List (StackEvent G F)} (h : b.Braced)
    (unresumed : es.filterMap (·.input?) = []) : (es.foldl Board.note b).Braced := by
  induction es generalizing b with
  | nil => exact h
  | cons e es ih =>
    have none := List.filterMap_eq_nil_iff.1 unresumed
    exact ih (h.note (none e List.mem_cons_self))
      (List.filterMap_eq_nil_iff.2 fun e he => none e (List.mem_cons_of_mem _ he))

/-- Before the request, no frame is pending or in its forced return. -/
theorem braced_requestCancel (h : Regular false b.marks) : b.requestCancel.Braced := by
  obtain ⟨c, s, marks⟩ := h
  refine ⟨rfl, fun m hm => ?_⟩
  rw [requestCancel, marks] at hm
  simp only [List.map_append, List.map_replicate, List.mem_append, List.mem_replicate] at hm
  rcases hm with ⟨-, rfl⟩ | ⟨-, rfl⟩
  · exact .inl rfl
  · exact .inr rfl

end Board

namespace Task

variable {G F M : Type} {t t' : Task G F M} {es : List (StackEvent G F)} {k : Nat} {g : G}
  {f : Frame G F M} {rest : List (Frame G F M)}

theorem marks_getElem_top (hf : t.frames = f :: rest) :
    t.board.marks[rest.length]? = some f.mark := by
  simp [board, hf]

theorem length_marks : t.board.marks.length = t.frames.length := by simp [board]

theorem exists_of_marks_getElem {m : Mark} (h : t.board.marks[k]? = some m) :
    ∃ above f below, t.frames = above ++ f :: below ∧ below.length = k ∧ f.mark = m := by
  have hk : k < t.frames.length := by
    rw [← length_marks]
    exact (List.getElem?_eq_some_iff.1 h).1
  have split := List.take_append_drop (t.frames.length - 1 - k) t.frames
  rcases lower : t.frames.drop (t.frames.length - 1 - k) with _ | ⟨f, below⟩
  · have := congrArg List.length lower
    simp only [List.length_drop, List.length_nil] at this
    omega
  · rw [lower] at split
    have depth : below.length = k := by
      have := congrArg List.length lower
      simp only [List.length_drop, List.length_cons] at this
      omega
    refine ⟨_, f, below, split.symm, depth, ?_⟩
    rw [board, ← split] at h
    simpa [← depth] using h

/-- The frame with the pending cancellation is resumed with a forced return, or it stays pending and
is not resumed. -/
theorem pending_turn (turn : Turn t es t') (h : t.board.marks[k]? = some .pending)
    (hk : k < t'.frames.length) :
    (t'.board.marks[k]? = some .pending ∧
      (t.frames.length = k + 1 → es.filterMap (·.input?) = [])) ∨
    (t'.board.marks[k]? = some .forced ∧ t.frames.length = k + 1 ∧
      es.filterMap (·.input?) = [.forcedReturn]) := by
  have live : k < (es.foldl Board.note t.board).marks.length := by
    rw [board_turn turn]; simpa [board] using hk
  rw [← board_turn turn]
  cases turn with
  | idle | quiet | onwards | suspended | forked | returned | entrusted =>
    exact .inl ⟨h, fun _ => rfl⟩
  | resumed f rest stage frames =>
    have noted := Board.note_pending (e := (.resumed f.input : StackEvent G F)) h live
    rw [List.foldl_cons, List.foldl_nil, noted]
    by_cases top : t.frames.length = k + 1
    · have depth : rest.length = k := by simpa [frames] using top
      have pending : f.mark = .pending := by
        rw [← depth, marks_getElem_top frames] at h
        exact Option.some.inj h
      refine .inr ⟨?_, top, ?_⟩
      · rw [if_pos ⟨rfl, by rw [length_marks, top]⟩]
      · simp [StackEvent.input?, Frame.input, pending]
    · refine .inl ⟨?_, fun h => absurd h top⟩
      rw [if_neg fun h => top (by rw [← length_marks, h.2])]
  | popped f rest stage frames =>
    have popped := Board.note_pending (e := (.popped f.result : StackEvent G F)) h
    rw [List.foldl_cons] at live ⊢
    refine .inl ?_
    split at live <;> split <;> first | contradiction | exact ⟨popped live, fun _ => rfl⟩
  | _ =>
    rw [List.foldl_cons, List.foldl_nil] at live ⊢
    exact .inl ⟨Board.note_pending h live, fun _ => rfl⟩

/-- Whether the frame at a depth is not being resumed. -/
def Resting (t : Task G F M) (depth : Nat) : Prop :=
  t.stage = .resuming → t.frames.length ≠ depth + 1

theorem resting_turn (turn : Turn t es t') (h : t.Resting k)
    (hi : t.frames.length = k + 1 → es.filterMap (·.input?) = []) : t'.Resting k := by
  intro stage
  cases turn with
  | idle => exact h stage
  | quiet s frames =>
    intro length
    have none : t.frames.length = k + 1 := length
    rw [frames] at none
    cases none
  | onwards s p underway purpose =>
    obtain rfl : s = .resuming := stage
    cases purpose
  | resumed f rest stage frames =>
    intro length
    have inputs := hi (by rw [frames]; simpa [resumeTop] using length)
    cases inputs
  | suspended f rest g y =>
    simp only at stage
    split at stage <;> cases stage
  | returned result | stranded f rest result => cases result <;> cases stage
  | popped f rest =>
    unfold handDown at stage
    split at stage
    · cases stage
    · simp only at stage
      split at stage <;> cases stage
  | cancelled =>
    intro length
    exact h stage (by simpa using length)
  | pushed | completed | registered | recovered | replaced | forked | discharged | entrusted
  | undertaken => cases stage

/-- A frame that is not being resumed keeps its generator. -/
theorem stacked_turn (turn : Turn t es t') (h : t.stacked[k]? = some g) (resting : t.Resting k)
    (hk : k < t'.frames.length) : t'.stacked[k]? = some g := by
  -- The frames below the top one are those of a task whose top frame was changed or removed.
  have below {f : Frame G F M} {rest : List (Frame G F M)} (hf : t.frames = f :: rest)
      (hr : k < rest.length) : (rest.map (·.generator)).reverse[k]? = some g := by
    rw [stacked, hf, List.map_cons, List.reverse_cons,
      List.getElem?_append_left (by simpa using hr)] at h
    exact h
  have changed {f : Frame G F M} {rest : List (Frame G F M)} (hf : t.frames = f :: rest)
      (stage : t.stage = .resuming) (hk : k < rest.length + 1) (g' : G) :
      ((rest.map (·.generator)).reverse ++ [g'])[k]? = some g := by
    have lower : k < rest.length := by
      have := resting stage
      rw [hf, List.length_cons] at this
      omega
    rw [List.getElem?_append_left (by simpa using lower)]
    exact below hf lower
  cases turn with
  | idle | quiet | onwards => exact h
  | pushed g' name slot p =>
    have hk' : k < t.stacked.length := (List.getElem?_eq_some_iff.1 h).1
    rw [stacked, push, List.map_cons, List.reverse_cons]
    exact (List.getElem?_append_left hk').trans h
  | forked outcome =>
    have same : (t.setCurrent outcome).frames.map (·.generator) = t.frames.map (·.generator) :=
      map_setCurrent (fun _ _ => rfl) outcome
    rw [stacked] at h ⊢
    exact same.symm ▸ h
  | returned result | stranded f rest result =>
    have same : (t.conclude result .yielded).frames.map (·.generator) =
        t.frames.map (·.generator) := map_conclude (fun _ _ => rfl) result
    rw [stacked] at h ⊢
    exact same.symm ▸ h
  | popped f rest stage frames =>
    have same : (t.handDown f.result rest).frames.map (·.generator) = rest.map (·.generator) :=
      map_handDown (fun _ _ => rfl) f.result rest
    have lower : k < rest.length := by
      have := congrArg List.length same
      simp only [List.length_map] at this
      omega
    rw [stacked, same]
    exact below frames lower
  | replaced f rest inner origin purpose frames => exact below frames hk
  | completed f rest g' outcome stage frames =>
    simpa [stacked] using changed frames stage hk g'
  | suspended f rest g' y stage frames => simpa [stacked] using changed frames stage hk g'
  | cancelled => simpa [stacked, Function.comp_def] using h
  | resumed f rest stage frames | registered f rest op p purpose fits frames
  | recovered top below rest e p purpose fits frames
  | discharged f rest result prior stage frames
  | entrusted new f rest prior stage frames
  | undertaken f rest op ops stage frames => simpa [stacked, frames, resumeTop] using h

variable [Named G] {registry : Registry M}

theorem replaced_take {i : Impulse G F} (h : t.Coherent) (hf : t.frames = f :: rest)
    (replaced : .replaced ∈ t.observe registry i) :
    (((t.take registry i).step registry).1.step registry).2 = .retire f.generator := by
  have turn : Turn t (t.observe registry i) (t.take registry i) := turn_take h i
  generalize t.observe registry i = es at turn replaced
  generalize t.take registry i = t' at turn ⊢
  cases turn
  case replaced f' rest' inner origin underway frames running =>
    obtain ⟨rfl, rfl⟩ := List.cons.inj (hf.symm.trans frames)
    rfl
  case popped => split at replaced <;> simp at replaced
  all_goals simp at replaced

/-- A frame with a pending cancellation is resumed with a forced return. -/
theorem step_of_pending (hf : t.frames = f :: rest) (mark : f.mark = .pending)
    (stage : t.stage = .ready) : (t.step registry).2 = .resume f.generator .forcedReturn := by
  simp [step, stage, hf, resumeTop, mark]

/-- What a frame with a pending cancellation yields is dropped. -/
theorem take_of_pending (hf : t.frames = f :: rest) (mark : f.mark = .pending)
    (stage : t.stage = .resuming) (y : Yielded G F) (g : G) :
    t.observe registry (.resumed (.yielded y) g) = [] ∧
      t.take registry (.resumed (.yielded y) g) =
        { t with frames := { f with generator := g } :: rest, stage := .ready } := by
  have dropped : t.take registry (.resumed (.yielded y) g) =
      { t with frames := { f with generator := g } :: rest, stage := .ready } := by
    simp [take, resumed, stage, hf, mark]
  refine ⟨?_, dropped⟩
  rw [observe_of_unasked rfl, dropped]
  simp [changes, transitions, stage, hf]

/-- The first request to cancel a running task braces its board. -/
theorem braced_take_cancel (standing : Standing t.canceled t.footings)
    (uncanceled : t.canceled = false) (unsettled : t.isSettled = false) :
    (t.take registry .cancel).board.Braced := by
  have regular : Regular false t.board.marks := by
    rw [board_eq, ← uncanceled]
    exact standing.regular
  have requested : (t.take registry .cancel).board = t.board.requestCancel := by
    simp [take, requestCancel, uncanceled, unsettled, board, Board.requestCancel,
      Function.comp_def]
  rw [requested]
  exact Board.braced_requestCancel regular

end Task

namespace Run

variable {G F M : Type} [Named G] {registry : Registry M} {id : TaskId} {root : Yielded G F}
  {r : Run G F M} {k : Nat} {g : G}

variable (registry) in
/-- What frames are resumed with while impulses happen. -/
def inputs (r : Run G F M) : List (Impulse G F) → List Resume
  | [] => []
  | i :: is => (r.task.demand registry i).input?.toList ++ inputs (r.take registry i) is

variable (registry) in
/-- What the frame at a depth, counted from the bottom, is resumed with while impulses happen. -/
def inputsAt (depth : Nat) (r : Run G F M) : List (Impulse G F) → List Resume
  | [] => []
  | i :: is =>
    (if r.task.frames.length = depth + 1 then (r.task.demand registry i).input?.toList else []) ++
      inputsAt depth (r.take registry i) is

/-- The frame at a depth stays on the stack while impulses happen. -/
def Stays (registry : Registry M) (r : Run G F M) (depth : Nat) (js : List (Impulse G F)) : Prop :=
  ∀ js', js' <+: js → depth < (r.after registry js').task.frames.length

/-- Of all that the frame at a depth is resumed with as long as it stays on the stack, a forced
return is the first, and the only one. -/
def ReturnsFirst (registry : Registry M) (r : Run G F M) (depth : Nat) : Prop :=
  ∀ js, r.Stays registry depth js →
    r.inputsAt registry depth js = [] ∨
    ∃ later, r.inputsAt registry depth js = .forcedReturn :: later ∧ .forcedReturn ∉ later

theorem Stays.head {i : Impulse G F} {js : List (Impulse G F)}
    (h : r.Stays registry k (i :: js)) : k < (r.take registry i).task.frames.length :=
  h [i] ⟨js, rfl⟩

theorem Stays.tail {i : Impulse G F} {js : List (Impulse G F)}
    (h : r.Stays registry k (i :: js)) : (r.take registry i).Stays registry k js :=
  fun js' hj => h (i :: js') (List.prefix_cons_inj i |>.2 hj)

/-- A frame that was forced to return is not forced again. -/
theorem inputsAt_forced (coherent : r.task.Coherent)
    (standing : Standing r.task.canceled r.task.footings)
    (h : r.task.board.marks[k]? = some .forced) (js : List (Impulse G F))
    (stays : r.Stays registry k js) :
    .forcedReturn ∉ r.inputsAt registry k js ∧
      (r.after registry js).task.board.marks[k]? = some .forced := by
  refine ⟨?_, forced_after coherent h js stays⟩
  induction js generalizing r with
  | nil => exact List.not_mem_nil
  | cons i js ih =>
    have turn : r.task.Turn (r.task.observe registry i) (r.task.take registry i) :=
      Task.turn_take coherent i
    have later := ih (r := r.take registry i) (coherent.take i) (Task.standing_turn standing turn)
      (Task.forced_turn turn h stays.head) stays.tail
    have unforced := Task.not_forced_above standing h turn
    rw [inputsAt, ← Task.inputs_observe coherent, List.mem_append, not_or]
    refine ⟨?_, later⟩
    split
    · intro hi
      obtain ⟨e, he, hin⟩ := List.mem_filterMap.1 hi
      cases e <;> simp only [StackEvent.input?, reduceCtorEq, Option.some.injEq] at hin
      subst hin
      exact unforced he
    · exact List.not_mem_nil

/-- A frame with a pending cancellation is resumed with a forced return first, and stays pending
until then. -/
theorem inputsAt_pending (coherent : r.task.Coherent)
    (standing : Standing r.task.canceled r.task.footings)
    (h : r.task.board.marks[k]? = some .pending) (js : List (Impulse G F))
    (stays : r.Stays registry k js) :
    (r.inputsAt registry k js = [] ∧
      (r.after registry js).task.board.marks[k]? = some .pending) ∨
    (∃ later, r.inputsAt registry k js = .forcedReturn :: later ∧ .forcedReturn ∉ later ∧
      (r.after registry js).task.board.marks[k]? = some .forced) := by
  induction js generalizing r with
  | nil => exact .inl ⟨rfl, h⟩
  | cons i js ih =>
    have turn : r.task.Turn (r.task.observe registry i) (r.task.take registry i) :=
      Task.turn_take coherent i
    have standing' := Task.standing_turn standing turn
    rw [inputsAt, ← Task.inputs_observe coherent]
    rcases Task.pending_turn turn h stays.head with ⟨mark, inputs⟩ | ⟨mark, top, inputs⟩
    · have none : (if r.task.frames.length = k + 1 then
          (r.task.observe registry i).filterMap (·.input?) else []) = [] := by
        split
        · exact inputs ‹_›
        · rfl
      rw [none, List.nil_append]
      exact ih (r := r.take registry i) (coherent.take i) standing' mark stays.tail
    · have coherent' : (r.take registry i).task.Coherent := coherent.take i
      obtain ⟨unforced, forced⟩ := inputsAt_forced coherent' standing' mark js stays.tail
      rw [if_pos top, inputs]
      exact .inr ⟨_, rfl, unforced, forced⟩

/-- A frame that is not being resumed keeps its generator until it is resumed. -/
theorem stacked_after (coherent : r.task.Coherent) (h : r.task.stacked[k]? = some g)
    (resting : r.task.Resting k) (js : List (Impulse G F)) (stays : r.Stays registry k js)
    (inputs : r.inputsAt registry k js = []) :
    (r.after registry js).task.stacked[k]? = some g := by
  induction js generalizing r with
  | nil => exact h
  | cons i js ih =>
    have turn : r.task.Turn (r.task.observe registry i) (r.task.take registry i) :=
      Task.turn_take coherent i
    obtain ⟨now, later⟩ := List.append_eq_nil_iff.1 inputs
    refine ih (r := r.take registry i) (coherent.take i)
      (Task.stacked_turn turn h resting stays.head) ?_ stays.tail later
    refine Task.resting_turn turn resting fun top => ?_
    rwa [if_pos top, ← Task.inputs_observe coherent] at now

theorem braced_after (coherent : r.task.Coherent) (h : r.task.board.Braced)
    (js : List (Impulse G F)) (unresumed : r.inputs registry js = []) :
    (r.after registry js).task.board.Braced := by
  induction js generalizing r with
  | nil => exact h
  | cons i js ih =>
    obtain ⟨now, later⟩ := List.append_eq_nil_iff.1 unresumed
    refine ih (r := r.take registry i) (coherent.take i) ?_ later
    rw [Run.take, ← Task.board_turn (Task.turn_take coherent i)]
    exact h.foldl (by rw [Task.inputs_observe coherent, now])

theorem returnsFirst_of_pending (coherent : r.task.Coherent)
    (standing : Standing r.task.canceled r.task.footings)
    (h : r.task.board.marks[k]? = some .pending) : r.ReturnsFirst registry k := by
  intro js stays
  rcases inputsAt_pending coherent standing h js stays with ⟨none, -⟩ | ⟨later, forced, once, -⟩
  · exact .inl none
  · exact .inr ⟨later, forced, once⟩

/-- What is pushed on a pending frame, or on the empty stack of a cancelled task, is pending. -/
theorem pushed_take {i : Impulse G F} (coherent : r.task.Coherent)
    (canceled : r.task.canceled = true) (pushed : .pushed false ∈ r.task.observe registry i)
    (top : ∀ f ∈ r.task.frames.head?, f.mark = .pending) :
    ∃ new, (r.take registry i).task.frames = new :: r.task.frames ∧ new.mark = .pending ∧
      (r.take registry i).task.stage ≠ .resuming := by
  have turn : r.task.Turn (r.task.observe registry i) (r.task.take registry i) :=
    Task.turn_take coherent i
  rw [Run.take]
  generalize r.task.observe registry i = es, r.task.take registry i = t' at turn pushed
  cases turn
  case pushed g name slot p underway fits =>
    obtain rfl : p = .yielded := by
      cases p with
      | yielded => rfl
      | deferred => simp [Purpose.shields] at pushed
    refine ⟨_, rfl, ?_, nofun⟩
    simp only [Purpose.shields, Mark.pushed, canceled]
    cases below : r.task.frames.head? with
    | none => simp
    | some f => simp [top f below]
  case popped => split at pushed <;> simp at pushed
  all_goals simp at pushed

/-- A frame with a pending cancellation is resumed by the driver with a forced return before
anything else, and never forced again: of all it is resumed with as long as it stays on the stack,
that is the first, and the only one. Up to then it is pending and keeps its generator, unless it is
being resumed; if it is replaced it is asked to return, and what it yields is dropped, which changes
nothing but its generator. So it is with a frame that is pushed on a pending one, or on the empty
stack of a cancelled task, and from the request up to the next resumption all frames are pending,
unless they are shielded, wherever in a dispatch the request arrives. A coroutine that has not
started by its forced return completes, and its body never runs. -/
theorem forced_before_fed (registry : Registry M) (id : TaskId) (root : Yielded G F)
    (impulses : List (Impulse G F)) :
    let r : Run G F M := (start id root).after registry impulses
    (∀ above f below, r.task.frames = above ++ f :: below → f.mark = .pending →
      ∀ js, r.Stays registry below.length js →
        let t := (r.after registry js).task
        let inputs := r.inputsAt registry below.length js
        (inputs = [] ∨ ∃ later, inputs = .forcedReturn :: later ∧ .forcedReturn ∉ later) ∧
        (inputs = [] → ∃ above' f' below', t.frames = above' ++ f' :: below' ∧
          below'.length = below.length ∧ f'.mark = .pending ∧
          (r.task.Resting below.length → f'.generator = f.generator) ∧
          (above' = [] →
            (t.stage = .ready → (t.step registry).2 = .resume f'.generator .forcedReturn) ∧
            (∀ i, .replaced ∈ t.observe registry i →
              (((t.take registry i).step registry).1.step registry).2 = .retire f'.generator) ∧
            ∀ y g, t.stage = .resuming →
              t.observe registry (.resumed (.yielded y) g) = [] ∧
              t.take registry (.resumed (.yielded y) g) =
                { t with frames := { f' with generator := g } :: below', stage := .ready }))) ∧
    (∀ i, r.task.canceled = true → .pushed false ∈ r.task.observe registry i →
      (∀ f ∈ r.task.frames.head?, f.mark = .pending) →
      let r' := r.take registry i
      ∃ new, r'.task.frames = new :: r.task.frames ∧ new.mark = .pending ∧
        r'.task.Resting r.task.frames.length ∧ r'.ReturnsFirst registry r.task.frames.length) ∧
    (∀ js, r.task.canceled = false → r.task.isSettled = false →
      (r.take registry .cancel).inputs registry js = [] →
      let t := ((r.take registry .cancel).after registry js).task
      t.canceled = true ∧ ∀ f ∈ t.frames, f.mark = .pending ∨ f.mark = .shielded) ∧
    ∀ (E σ N α β : Type) (body : Body E σ N (Yielded G F) α β) (s : α),
      (Coroutine.created s).resume body .forcedReturn =
        (body.release s).bind (fun _ => .done (.complete (.ok .null), .finished)) ∧
      ∀ input, ∃ outcome,
        Coroutine.finished.resume body input = .done (.complete outcome, .finished) := by
  intro r
  have coherent : r.task.Coherent := Run.coherent impulses
  have standing : Standing r.task.canceled r.task.footings := Run.standing impulses
  refine ⟨?_, ?_, ?_, fun E σ N α β body s => ⟨rfl, fun input => by cases input <;> exact ⟨_, rfl⟩⟩⟩
  · intro above f below frames pending js stays t inputs
    have mark : r.task.board.marks[below.length]? = some .pending := by
      simp [Task.board, frames, pending]
    refine ⟨returnsFirst_of_pending coherent standing mark js stays, fun none => ?_⟩
    have still : t.board.marks[below.length]? = some .pending := by
      rcases inputsAt_pending coherent standing mark js stays with ⟨-, still⟩ | ⟨later, forced, -⟩
      · exact still
      · cases none.symm.trans forced
    obtain ⟨above', f', below', hf, hb, hm⟩ := Task.exists_of_marks_getElem still
    refine ⟨above', f', below', hf, hb, hm, ?_, ?_⟩
    · intro resting
      have old : r.task.stacked[below.length]? = some f.generator := by
        simp [Task.stacked, frames]
      have new := stacked_after coherent old resting js stays none
      have same : t.stacked[below.length]? = some f'.generator := by
        simp [Task.stacked, hf, ← hb]
      exact Option.some.inj (same.symm.trans new)
    · rintro rfl
      have coherent : t.Coherent := by
        have : t = ((start id root).after registry (impulses ++ js)).task := by
          rw [after_append]
        rw [this]
        exact Run.coherent _
      exact ⟨Task.step_of_pending hf hm, fun _ => Task.replaced_take coherent hf,
        fun y g stage => Task.take_of_pending hf hm stage y g⟩
  · intro i canceled pushed top r'
    obtain ⟨new, frames, mark, ended⟩ := pushed_take coherent canceled pushed top
    refine ⟨new, frames, mark, fun stage => absurd stage ended, ?_⟩
    have board : r'.task.board.marks[r.task.frames.length]? = some .pending := by
      rw [← mark]
      exact Task.marks_getElem_top frames
    exact returnsFirst_of_pending (coherent.take i)
      (Task.standing_turn standing (Task.turn_take coherent i)) board
  · intro js uncanceled unsettled unresumed t
    have braced : (r.task.take registry .cancel).board.Braced :=
      Task.braced_take_cancel standing uncanceled unsettled
    have requested : (r.task.take registry .cancel).Coherent := coherent.take .cancel
    obtain ⟨canceled, marks⟩ := braced_after requested braced js unresumed
    refine ⟨canceled, fun f hf => marks f.mark ?_⟩
    simpa [Task.board] using ⟨f, hf, rfl⟩

/-- A frame is being resumed when its task is cancelled: what it yields is dropped, and it is forced
to return. Another one waits for the frame it has replaced when its task is cancelled: the frame
pushed in its place is pending, and is forced to return before it is fed. -/
theorem forced_before_fed_dropping :
    let main : Stub := ⟨"main"⟩
    let tail : Stub := ⟨"tail"⟩
    let after (impulses : List (Impulse Stub Unit)) : Run Stub Unit Unit :=
      (start default (.generator main)).after default impulses
    let f : Frame Stub Unit Unit := ⟨main, "main", .pending, .ok .null, [], false, none⟩
    let begun : List (Impulse Stub Unit) := .replicate 4 .move
    let dropped : List (Impulse Stub Unit) :=
      [.resumed (.yielded (.operation (.fork .recover))) main, .move]
    let replacing : List (Impulse Stub Unit) :=
      begun ++ .resumed (.yielded (.operation (.terminal (.call () [])))) main :: .replicate 3 .move
    let retired : List (Impulse Stub Unit) :=
      [.resumed (.complete (.error .interrupted)) main, .move, .move]
    let r := after (begun ++ [.cancel])
    let s := after (replacing ++ .cancel :: retired)
    let s' := s.take default (.invoked (.ok tail))
    (r.task.frames = [] ++ f :: [] ∧ f.mark = .pending ∧ r.Stays default 0 dropped ∧
      r.inputsAt default 0 dropped ≠ [] ∧ (r.inputsAt default 0 dropped = [] ∨
        ∃ later, r.inputsAt default 0 dropped = .forcedReturn :: later ∧ .forcedReturn ∉ later)) ∧
    ((after replacing).task.canceled = false ∧ (after replacing).task.isSettled = false ∧
      s.task.canceled = true ∧ ∀ f ∈ s.task.frames, f.mark = .pending ∨ f.mark = .shielded) ∧
    s'.inputsAt default 0 [.move, .move] = [.forcedReturn] ∧
    ∃ new, s'.task.frames = new :: s.task.frames ∧ new.mark = .pending ∧
      s'.task.Resting s.task.frames.length ∧ s'.ReturnsFirst default s.task.frames.length := by
  intro main tail after f begun dropped replacing retired r s s'
  let registry : Registry Unit := default
  have resuming : r.task = ⟨default, true, [f], .ok .null, .resuming⟩ := rfl
  have waits : (after replacing).task =
      ⟨default, false, [], .ok .null,
        .retiring { f with mark := .clear } (.call () []) none .yielded⟩ := rfl
  have split : s = ((after replacing).take default .cancel).after default retired := by
    simp only [s, after]
    rw [after_append, after_cons]
  have dispatches : s.task = ⟨default, true, [], .ok .null, .invoking .yielded⟩ := by
    rw [split]
    simp only [retired, Run.after, List.foldl_cons, List.foldl_nil, Run.take, waits]
    rfl
  have frames : r.task.frames = [] ++ f :: [] := by rw [resuming]; rfl
  have stays : r.Stays default 0 dropped := by
    intro js' hj
    rcases List.prefix_cons_iff.1 hj with rfl | ⟨ks, rfl, hk⟩
    · exact Nat.one_pos
    · rcases List.prefix_cons_iff.1 hk with rfl | ⟨ls, rfl, hl⟩
      · exact Nat.one_pos
      · rw [List.prefix_nil.1 hl]
        exact Nat.one_pos
  have inputs : r.inputsAt default 0 dropped = [.forcedReturn] := by
    simp only [dropped, inputsAt, Run.take, resuming]
    rfl
  obtain ⟨forced, -⟩ := forced_before_fed registry default (.generator main) (begun ++ [.cancel])
  obtain ⟨-, -, window, -⟩ := forced_before_fed registry default (.generator main) replacing
  obtain ⟨-, pushed, -⟩ :=
    forced_before_fed registry default (.generator main) (replacing ++ .cancel :: retired)
  refine ⟨⟨frames, rfl, stays, ?_, ?_⟩, ⟨?_, ?_, ?_⟩, ?_, ?_⟩
  · rw [inputs]
    exact List.cons_ne_nil _ _
  · exact (forced [] f [] frames rfl dropped stays).1
  · rw [waits]
  · rw [waits]; rfl
  · rw [split]
    refine window retired ?_ ?_ ?_
    · rw [waits]
    · rw [waits]; rfl
    · show ((after replacing).take default .cancel).inputs default retired = []
      simp only [retired, Run.inputs, Run.take, waits]
      rfl
  · simp only [s', inputsAt, Run.take, dispatches]
    rfl
  · refine pushed (.invoked (.ok tail)) ?_ ?_ ?_
    · rw [dispatches]
    · rw [dispatches]; exact List.mem_singleton.2 rfl
    · intro f top
      rw [dispatches] at top
      cases top

end Run

end EffectEngine
