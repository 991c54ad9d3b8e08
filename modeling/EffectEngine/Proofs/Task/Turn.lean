import EffectEngine.Proofs.Task.Run

/-!
# What one impulse can do to a task

`Turn t es t'` lists, once for all invariants, the ways in which an impulse takes a task `t` to a
task `t'` with the events `es`; `Coherent` is what holds between the stage of a task and its frames
on the way. `turn_take` says that every impulse on a coherent task is one of these turns, and
`Coherent.take` that the task stays coherent.
-/

namespace EffectEngine

namespace Stage

variable {G F M : Type}

/-- Why the operation is dispatched whose dispatch is under way. -/
def underway? : Stage G F M → Option Purpose
  | dispatching _ _ p | offering _ _ _ p | handling _ _ p | invoking p | forking p
  | replacing _ _ _ p | retiring _ _ _ p | reporting _ _ _ p => some p
  | _ => none

/-- Why the operation is or was dispatched whose dispatch has not been concluded. -/
def purpose? : Stage G F M → Option Purpose
  | dispatched _ p => some p
  | s => s.underway?

/-- Whether the dispatch has replaced the frame that yielded the operation. -/
def hasReplaced : Stage G F M → Bool
  | replacing .. | retiring .. | reporting .. => true
  | _ => false

theorem purpose?_of_underway? {s : Stage G F M} {p : Purpose} (h : s.underway? = some p) :
    s.purpose? = some p := by
  cases s <;> first | exact h | cases h

end Stage

namespace Purpose

variable {G F M : Type}

/-- A deferred operation is dispatched with the completed frame that registered it on top. -/
def Fits : Purpose → List (Frame G F M) → Prop
  | yielded, _ => True
  | deferred level _, frames =>
    ∃ f rest, frames = f :: rest ∧ f.completed = true ∧ level = rest.length + 1

/-- A deferred operation has pushed a frame. -/
def Entrusted : Purpose → List (Frame G F M) → Prop
  | yielded, _ => False
  | deferred level _, frames =>
    ∃ new f rest, frames = new :: f :: rest ∧ new.completed = false ∧ f.completed = true ∧
      level = rest.length + 1

variable {p : Purpose} {f f' new : Frame G F M} {rest rest' frames : List (Frame G F M)}

theorem fits_deferred (h : f.completed = true) (prior : Outcome) :
    (deferred (rest.length + 1) prior).Fits (f :: rest) := ⟨f, rest, rfl, h, rfl⟩

theorem Fits.map_mark (m : Mark → Mark) (h : p.Fits frames) :
    p.Fits (frames.map fun f => { f with mark := m f.mark }) := by
  cases p with
  | yielded => trivial
  | deferred level prior =>
    obtain ⟨f, rest, rfl, hd, hl⟩ := h
    exact ⟨_, _, rfl, hd, by simpa using hl⟩

theorem Entrusted.map_mark (m : Mark → Mark) (h : p.Entrusted frames) :
    p.Entrusted (frames.map fun f => { f with mark := m f.mark }) := by
  cases p with
  | yielded => cases h
  | deferred level prior =>
    obtain ⟨new, f, rest, rfl, hn, hd, hl⟩ := h
    exact ⟨_, _, _, rfl, hn, hd, by simpa using hl⟩

theorem Fits.congr (h : p.Fits (f :: rest)) (hf : f'.completed = f.completed)
    (hr : rest'.length = rest.length) : p.Fits (f' :: rest') := by
  cases p with
  | yielded => trivial
  | deferred level prior =>
    obtain ⟨g, tail, hg, hd, hl⟩ := h
    obtain ⟨rfl, rfl⟩ := List.cons.inj hg
    exact ⟨f', rest', rfl, hf.trans hd, by rw [hl, hr]⟩

theorem Fits.push (h : p.Fits frames) (hn : new.completed = false) :
    p.Fits (new :: frames) ∨ p.Entrusted (new :: frames) := by
  cases p with
  | yielded => exact .inl trivial
  | deferred level prior =>
    obtain ⟨f, rest, rfl, hd, hl⟩ := h
    exact .inr ⟨new, f, rest, rfl, hn, hd, hl⟩

theorem Fits.eq_yielded (h : p.Fits (f :: rest)) (hf : f.completed = false) : p = .yielded := by
  cases p with
  | yielded => rfl
  | deferred level prior =>
    obtain ⟨g, rest', hg, hd, -⟩ := h
    obtain ⟨rfl, rfl⟩ := List.cons.inj hg
    simp [hd] at hf

end Purpose

namespace Task

variable {G F M : Type} {t t' : Task G F M}

/-- What the stage of a task says about its frames. -/
structure Coherent (t : Task G F M) : Prop where
  fresh : ∀ root, t.stage = .fresh root → t.frames = []
  underway : ∀ p, t.stage.underway? = some p → p.Fits t.frames
  dispatched : ∀ result p, t.stage = .dispatched result p →
    p.Fits t.frames ∨ result = .ok () ∧ p.Entrusted t.frames
  replaced : t.stage.hasReplaced = true → t.stage.underway? = some .yielded
  unwinding : t.stage = .unwinding → ∃ f rest, t.frames = f :: rest ∧ f.completed = true
  settled : ∀ outcome, t.stage = .settled outcome → t.frames = []

/-- The ways in which an impulse changes a task, with the events they are. -/
inductive Turn (t : Task G F M) : List (StackEvent G F) → Task G F M → Prop where
  | idle : Turn t [] t
  /-- Without any frame, the task begins or settles. -/
  | quiet (s : Stage G F M) (frames : t.frames = []) (coherent : (t.become s).Coherent) :
      Turn t [] (t.become s)
  /-- A dispatch goes on without touching the frames. -/
  | onwards (s : Stage G F M) (p : Purpose) (underway : t.stage.underway? = some p)
      (purpose : s.purpose? = some p) (fits : p.Fits t.frames)
      (replaced : s.hasReplaced = true → p = .yielded) : Turn t [] (t.become s)
  | pushed (g : G) (name : String) (slot : Option (HandlerSlot M)) (p : Purpose)
      (underway : t.stage.underway? = some p) (fits : p.Fits t.frames) :
      Turn t [.pushed p.shields] (t.push g name slot p)
  | resumed (f : Frame G F M) (rest : List (Frame G F M)) (stage : t.stage = .ready)
      (frames : t.frames = f :: rest) : Turn t [.resumed f.input] (t.resumeTop f rest).1
  | suspended (f : Frame G F M) (rest : List (Frame G F M)) (g : G) (y : Yielded G F)
      (stage : t.stage = .resuming) (frames : t.frames = f :: rest) :
      Turn t [] { t with
        frames := { f with generator := g } :: rest
        stage := if f.mark == .pending then .ready else .dispatching y f.slot .yielded }
  | completed (f : Frame G F M) (rest : List (Frame G F M)) (g : G) (outcome : Outcome)
      (stage : t.stage = .resuming) (frames : t.frames = f :: rest) :
      Turn t [.completed outcome] { t with
        frames := { f with generator := g, result := outcome, completed := true } :: rest
        stage := .unwinding }
  | registered (f : Frame G F M) (rest : List (Frame G F M)) (op : Operation G F) (p : Purpose)
      (underway : t.stage.underway? = some p) (fits : p.Fits t.frames)
      (frames : t.frames = f :: rest) :
      Turn t [.registered op] { t with
        frames := { f with defers := op :: f.defers } :: rest
        stage := .dispatched (.ok ()) p }
  | recovered (top below : Frame G F M) (rest : List (Frame G F M)) (e : Error) (p : Purpose)
      (underway : t.stage.underway? = some p) (fits : p.Fits t.frames)
      (frames : t.frames = top :: below :: rest) (done : below.completed = true)
      (holds : below.result = .error e) :
      Turn t [.recovered] { t with
        frames := { top with result := .ok (.error e) } ::
          { below with result := .ok .null } :: rest
        stage := .dispatched (.ok ()) p }
  | replaced (f : Frame G F M) (rest : List (Frame G F M)) (inner : Operation G F)
      (origin : Option (HandlerSlot M)) (underway : t.stage.underway? = some .yielded)
      (frames : t.frames = f :: rest) (running : f.completed = false) :
      Turn t [.replaced] { t with frames := rest, stage := .replacing f inner origin .yielded }
  | forked (outcome : Outcome) (p : Purpose) (stage : t.stage = .forking p)
      (fits : p.Fits t.frames) :
      Turn t [] ((t.setCurrent outcome).become (.dispatched (.ok ()) p))
  /-- The dispatch of what a frame yielded, or of the root, ends with a running frame on top. -/
  | returned (result : Except Error Unit) (stage : t.stage = .dispatched result .yielded)
      (running : ∀ f ∈ t.frames.head?, f.completed = false) :
      Turn t [] (t.conclude result .yielded)
  /-- The dispatch of what a replaced frame yielded ends with the completed frame below on top. -/
  | stranded (f : Frame G F M) (rest : List (Frame G F M)) (result : Except Error Unit)
      (stage : t.stage = .dispatched result .yielded) (frames : t.frames = f :: rest)
      (done : f.completed = true) : Turn t [.stranded] (t.conclude result .yielded)
  /-- The dispatch of a deferred operation ends without a frame. -/
  | discharged (f : Frame G F M) (rest : List (Frame G F M)) (result : Except Error Unit)
      (prior : Outcome) (stage : t.stage = .dispatched result (.deferred (rest.length + 1) prior))
      (frames : t.frames = f :: rest) (done : f.completed = true) :
      Turn t [.discharged result] { t with
        frames := { f with result := Frame.afterDefer prior result } :: rest
        stage := .unwinding }
  /-- The dispatch of a deferred operation ends with a frame. -/
  | entrusted (new f : Frame G F M) (rest : List (Frame G F M)) (prior : Outcome)
      (stage : t.stage = .dispatched (.ok ()) (.deferred (rest.length + 1) prior))
      (frames : t.frames = new :: f :: rest) (running : new.completed = false)
      (done : f.completed = true) :
      Turn t [] { t with
        frames := new :: { f with result := prior } :: rest
        stage := .ready }
  | undertaken (f : Frame G F M) (rest : List (Frame G F M)) (op : Operation G F)
      (ops : List (Operation G F)) (stage : t.stage = .unwinding) (frames : t.frames = f :: rest)
      (done : f.completed = true) (defers : f.defers = op :: ops) :
      Turn t [.undertaken op] { t with
        frames := { f with defers := ops, result := .ok .null } :: rest
        stage := .dispatching (.operation op) f.slot (.deferred (rest.length + 1) f.result) }
  | popped (f : Frame G F M) (rest : List (Frame G F M)) (stage : t.stage = .unwinding)
      (frames : t.frames = f :: rest) (done : f.completed = true) (defers : f.defers = []) :
      Turn t (.popped f.result ::
          (if rest.head?.any (·.completed) then [.discharged (verdict f.result)] else []))
        (t.handDown f.result rest)
  | cancelled (unsettled : t.isSettled = false) (uncanceled : t.canceled = false) :
      Turn t [.cancelled] { t with
        canceled := true
        frames := t.frames.map fun f => { f with mark := f.mark.cancel } }

/-! ### Coherence -/

theorem Coherent.of_fits {s : Stage G F M} {p : Purpose} {frames : List (Frame G F M)}
    {c : Bool} {id : TaskId} {root : Outcome} (hs : s.purpose? = some p) (fits : p.Fits frames)
    (hr : s.hasReplaced = true → p = .yielded) : Coherent ⟨id, c, frames, root, s⟩ where
  fresh _ h := by simp only at h; simp [h, Stage.purpose?, Stage.underway?] at hs
  underway q hq := by
    obtain rfl := Option.some.inj (hs.symm.trans (Stage.purpose?_of_underway? hq)); exact fits
  dispatched r q hq := by
    simp only at hq
    obtain rfl : q = p := by simpa [hq, Stage.purpose?] using hs
    exact .inl fits
  replaced h := by
    obtain rfl := hr h
    cases s <;> first | exact hs | cases h
  unwinding h := by simp only at h; simp [h, Stage.purpose?, Stage.underway?] at hs
  settled _ h := by simp only at h; simp [h, Stage.purpose?, Stage.underway?] at hs

theorem Coherent.of_ended {p : Purpose} {frames : List (Frame G F M)} {c : Bool} {id : TaskId}
    {root : Outcome} (h : p.Fits frames ∨ p.Entrusted frames) :
    Coherent ⟨id, c, frames, root, .dispatched (.ok ()) p⟩ where
  fresh := nofun
  underway := nofun
  dispatched r q hq := by
    obtain ⟨rfl, rfl⟩ : r = .ok () ∧ q = p := by simpa using hq.symm
    exact h.imp_right fun h => ⟨rfl, h⟩
  replaced := nofun
  unwinding := nofun
  settled := nofun

theorem Coherent.of_resuming {frames : List (Frame G F M)} {c : Bool} {id : TaskId} {root : Outcome}
    {s : Stage G F M} (hs : s = .ready ∨ s = .resuming) : Coherent ⟨id, c, frames, root, s⟩ := by
  rcases hs with rfl | rfl <;> exact ⟨nofun, nofun, nofun, nofun, nofun, nofun⟩

theorem Coherent.of_unwinding {f : Frame G F M} {rest : List (Frame G F M)} {c : Bool} {id : TaskId}
    {root : Outcome} (hf : f.completed = true) : Coherent ⟨id, c, f :: rest, root, .unwinding⟩ :=
  ⟨nofun, nofun, nofun, nofun, fun _ => ⟨f, rest, rfl, hf⟩, nofun⟩

theorem Coherent.of_settled {c : Bool} {id : TaskId} {root outcome : Outcome} :
    Coherent (⟨id, c, [], root, .settled outcome⟩ : Task G F M) :=
  ⟨nofun, nofun, nofun, nofun, nofun, fun _ _ => rfl⟩

theorem coherent_fresh (id : TaskId) (root : Yielded G F) : (fresh id root : Task G F M).Coherent :=
  ⟨fun _ _ => rfl, nofun, nofun, nofun, nofun, nofun⟩

theorem setCurrent_nil (h : t.frames = []) (outcome : Outcome) :
    t.setCurrent outcome = { t with root := outcome } := by simp only [Task.setCurrent, h]

theorem setCurrent_cons {f : Frame G F M} {rest : List (Frame G F M)} (h : t.frames = f :: rest)
    (outcome : Outcome) :
    t.setCurrent outcome = { t with frames := { f with result := outcome } :: rest } := by
  simp only [Task.setCurrent, h]

theorem conclude_nil (h : t.frames = []) (result : Except Error Unit) :
    ∃ root, t.conclude result .yielded = { t with root, stage := .ready } := by
  cases result with
  | ok => exact ⟨t.root, rfl⟩
  | error e => exact ⟨.error e, by simp only [Task.conclude, setCurrent_nil h, Task.become]⟩

theorem conclude_cons {f : Frame G F M} {rest : List (Frame G F M)} (h : t.frames = f :: rest)
    (result : Except Error Unit) : ∃ outcome, t.conclude result .yielded =
      { t with frames := { f with result := outcome } :: rest, stage := .ready } := by
  cases result with
  | ok => exact ⟨f.result, by simp only [Task.conclude, Task.become, h]⟩
  | error e => exact ⟨.error e, by simp only [Task.conclude, setCurrent_cons h, Task.become]⟩

theorem handDown_completed {f : Frame G F M} {rest : List (Frame G F M)} (h : f.completed = true)
    (outcome : Outcome) : t.handDown outcome (f :: rest) = { t with
      frames := { f with result := Frame.afterDefer f.result (Task.verdict outcome) } :: rest
      stage := .unwinding } := by
  simp only [Task.handDown, Frame.receive, if_pos h]
  cases outcome <;> rfl

theorem handDown_running {f : Frame G F M} {rest : List (Frame G F M)} (h : f.completed = false)
    (outcome : Outcome) : t.handDown outcome (f :: rest) =
      { t with frames := { f with result := outcome } :: rest, stage := .ready } := by
  simp [Task.handDown, Frame.receive, h]

section Results

/-! What does not depend on the result of a frame stays as it is when results are written. -/

variable {β : Type} {g : Frame G F M → β} (hg : ∀ f result, g { f with result } = g f)
include hg

theorem map_setCurrent (outcome : Outcome) :
    (t.setCurrent outcome).frames.map g = t.frames.map g := by
  rcases hf : t.frames with _ | ⟨f, rest⟩
  · rw [setCurrent_nil hf, hf]
  · rw [setCurrent_cons hf, List.map_cons, List.map_cons, hg]

theorem map_recover : t.recover.frames.map g = t.frames.map g := by
  unfold recover
  split
  · rename_i top below rest frames
    split
    · simp only [frames, List.map_cons, hg]
    · rfl
  · rfl

theorem map_conclude (result : Except Error Unit) :
    (t.conclude result .yielded).frames.map g = t.frames.map g := by
  cases result with
  | ok => rfl
  | error e => exact map_setCurrent hg _

theorem map_handDown (outcome : Outcome) (rest : List (Frame G F M)) :
    (t.handDown outcome rest).frames.map g = rest.map g := by
  cases rest with
  | nil => rfl
  | cons below rest =>
    have received : g (below.receive outcome) = g below := by
      unfold Frame.receive
      split
      · cases outcome with
        | ok => rfl
        | error e => exact hg _ _
      · exact hg _ _
    rw [Task.handDown, List.map_cons, List.map_cons, received]

end Results

theorem fits_setCurrent {p : Purpose} (h : p.Fits t.frames) (outcome : Outcome) :
    p.Fits (t.setCurrent outcome).frames := by
  unfold Task.setCurrent
  split
  · exact h
  · rename_i hf; rw [hf] at h; exact h.congr rfl rfl

theorem Coherent.turn {es : List (StackEvent G F)} (h : Coherent t) (turn : Turn t es t') :
    Coherent t' := by
  cases turn with
  | idle => exact h
  | quiet _ _ coherent => exact coherent
  | onwards s p _ purpose fits replaced => exact .of_fits purpose fits replaced
  | pushed _ _ _ p _ fits => exact .of_ended (fits.push rfl)
  | resumed => exact .of_resuming (.inr rfl)
  | suspended f rest g y =>
    split
    · exact .of_resuming (.inl rfl)
    · exact .of_fits (p := .yielded) rfl trivial fun _ => rfl
  | completed => exact .of_unwinding rfl
  | registered f rest op p _ fits frames =>
    rw [frames] at fits; exact .of_ended (.inl (fits.congr rfl rfl))
  | recovered top below rest e p _ fits frames =>
    rw [frames] at fits; exact .of_ended (.inl (fits.congr rfl rfl))
  | replaced => exact .of_fits (p := .yielded) rfl trivial fun _ => rfl
  | forked outcome p _ fits => exact .of_ended (.inl (fits_setCurrent fits _))
  | returned result | stranded f rest result => cases result <;> exact .of_resuming (.inl rfl)
  | discharged f rest result prior _ _ done => exact .of_unwinding done
  | entrusted => exact .of_resuming (.inl rfl)
  | undertaken f rest op ops _ _ done =>
    exact .of_fits rfl ((Purpose.fits_deferred done _).congr rfl rfl) nofun
  | popped f rest =>
    unfold Task.handDown
    split
    · exact .of_resuming (.inl rfl)
    · rename_i below rest
      split
      · rename_i hb
        exact .of_unwinding (by unfold Frame.receive; rw [if_pos hb]; split <;> exact hb)
      · exact .of_resuming (.inl rfl)
  | cancelled hu =>
    exact
      { fresh := fun root hr => by simp [h.fresh root hr]
        underway := fun p hp => (h.underway p hp).map_mark _
        dispatched := fun r p hp =>
          (h.dispatched r p hp).imp (·.map_mark _) fun ⟨hr, he⟩ => ⟨hr, he.map_mark _⟩
        replaced := h.replaced
        unwinding := fun hs => by
          obtain ⟨f, rest, hf, hd⟩ := h.unwinding hs
          exact ⟨{ f with mark := f.mark.cancel }, _, by rw [hf]; rfl, hd⟩
        settled := fun outcome hs => by simp [h.settled outcome hs] }

/-! ### The events of a turn -/

theorem receive_completed (f : Frame G F M) (outcome : Outcome) :
    (f.receive outcome).completed = f.completed := by
  unfold Frame.receive
  split
  · split <;> rfl
  · rfl

/-- A dispatch that is under way has an event of its own only when it ends. -/
theorem transitions_underway {p : Purpose} (h : t.stage.underway? = some p) :
    t.transitions t' =
      match t'.stage with
      | .dispatched .. => amendments t.frames t'.frames
      | _ => [] := by
  unfold transitions
  split <;> simp_all [Stage.underway?]

theorem changes_handDown {f : Frame G F M} {rest : List (Frame G F M)}
    (frames : t.frames = f :: rest) : t.changes (t.handDown f.result rest) = .popped f.result ::
      (if rest.head?.any (·.completed) then [.discharged (verdict f.result)] else []) := by
  cases rest with
  | nil => simp [changes, departures, handDown, frames]
  | cons below rest =>
    cases hd : below.completed <;>
      simp [changes, departures, handDown, frames, receive_completed, hd]

/-- What a turn does to the frames is seen on the task afterwards, apart from what the top one is
resumed with. -/
theorem Turn.events_eq {es : List (StackEvent G F)} (h : t.Coherent) (turn : Turn t es t') :
    es = (es.filterMap (·.input?)).map .resumed ++ t.changes t' := by
  -- Most turns neither change the number of the frames nor cancel the task.
  have steady {es : List (StackEvent G F)} {u : Task G F M} (inputs : es.filterMap (·.input?) = [])
      (length : u.frames.length = t.frames.length) (canceled : u.canceled = t.canceled)
      (transitions : t.transitions u = es) :
      es = (es.filterMap (·.input?)).map .resumed ++ t.changes u := by
    rw [inputs, changes, transitions, length, canceled]
    simp
  cases turn with
  | idle => rw [changes_self]; rfl
  | quiet s frames coherent =>
    refine steady rfl rfl rfl ?_
    have filled {u : Task G F M} (hu : u.Coherent) (none : u.frames = []) :
        u.stage ≠ .unwinding := fun hs => by
      obtain ⟨f, rest, hf, -⟩ := hu.unwinding hs
      cases none.symm.trans hf
    have before := filled h frames
    have after := filled coherent frames
    unfold transitions
    split <;> simp_all [become, amendments]
  | onwards s p underway purpose =>
    refine steady rfl rfl rfl ?_
    rw [transitions_underway underway]
    split
    · exact amendments_self _
    · rfl
  | pushed g name slot p => simp [changes, push, StackEvent.input?]
  | resumed f rest stage frames =>
    simp [changes, transitions, stage, frames, resumeTop, StackEvent.input?]
  | suspended f rest g y stage frames =>
    refine steady rfl (by simp [frames]) rfl ?_
    cases hm : f.mark == .pending <;> simp [transitions, stage]
  | registered f rest op p underway fits frames =>
    refine steady rfl (by simp [frames]) rfl ?_
    simp [transitions_underway underway, frames, amendments]
  | recovered top below rest e p underway fits frames done holds =>
    refine steady rfl (by simp [frames]) rfl ?_
    simp [transitions_underway underway, frames, amendments, Frame.holdsError, done, holds]
  | replaced f rest inner origin underway frames =>
    simp [changes, departures, frames, StackEvent.input?]
  | forked outcome p stage =>
    have underway : t.stage.underway? = some p := by rw [stage]; rfl
    rcases frames : t.frames with _ | ⟨f, rest⟩
    · rw [setCurrent_nil frames]
      refine steady rfl rfl rfl ?_
      rw [transitions_underway underway]
      exact amendments_self t.frames
    · rw [setCurrent_cons frames]
      refine steady rfl (by simp [become, frames]) rfl ?_
      simp [transitions_underway underway, become, frames, amendments]
  | returned result stage running =>
    rcases frames : t.frames with _ | ⟨f, rest⟩
    · obtain ⟨root, concluded⟩ := conclude_nil frames result
      rw [concluded]
      exact steady rfl rfl rfl (by simp [transitions, stage, frames])
    · have : f.completed = false := running f (by simp [frames])
      obtain ⟨outcome, concluded⟩ := conclude_cons frames result
      rw [concluded]
      exact steady rfl (by simp [frames]) rfl (by simp [transitions, stage, this])
  | stranded f rest result stage frames done =>
    obtain ⟨outcome, concluded⟩ := conclude_cons frames result
    rw [concluded]
    exact steady rfl (by simp [frames]) rfl (by simp [transitions, stage, done])
  | entrusted new f rest prior stage frames running =>
    exact steady rfl (by simp [frames]) rfl (by simp [transitions, stage, running])
  | completed f rest g outcome stage frames | discharged f rest result prior stage frames
  | undertaken f rest op ops stage frames =>
    exact steady rfl (by simp [frames]) rfl (by simp [transitions, stage])
  | popped f rest stage frames =>
    rw [changes_handDown frames]
    split <;> rfl
  | cancelled unsettled uncanceled => simp [changes, uncanceled, StackEvent.input?]

/-! ### The parts of a move -/

theorem recover_eq {top below : Frame G F M} {rest : List (Frame G F M)}
    (hf : t.frames = top :: below :: rest) (hb : below.holdsError = false) : t.recover = t := by
  unfold recover
  rw [hf]
  unfold Frame.holdsError at hb
  split at hb
  · simp at hb
  · rename_i h
    dsimp only
    split
    · exact absurd ‹_› (h _ ‹_›)
    · rfl

/-- A turn of which it is known what the top frame is resumed with. -/
def Turns (t t' : Task G F M) (input? : Option Resume) : Prop :=
  ∃ es, Turn t es t' ∧ es.filterMap (·.input?) = input?.toList

theorem Turn.turns {es : List (StackEvent G F)} {input? : Option Resume} (turn : Turn t es t')
    (inputs : es.filterMap (·.input?) = input?.toList) : t.Turns t' input? := ⟨es, turn, inputs⟩

variable {p : Purpose}

theorem turns_onwards {s : Stage G F M} (underway : t.stage.underway? = some p)
    (fits : p.Fits t.frames) (purpose : s.purpose? = some p) (same : s.hasReplaced = false) :
    t.Turns (t.become s) none :=
  (Turn.onwards s p underway purpose fits fun h => by rw [same] at h; cases h).turns rfl

theorem turns_conclude (h : t.Coherent) (result : Except Error Unit)
    (hs : t.stage = .dispatched result p) : t.Turns (t.conclude result p) none := by
  cases p with
  | yielded =>
    match hf : t.frames with
    | [] => exact (Turn.returned result hs (by simp [hf])).turns rfl
    | f :: rest =>
      cases hd : f.completed with
      | false => exact (Turn.returned result hs (by simp [hf, hd])).turns rfl
      | true => exact (Turn.stranded f rest result hs hf hd).turns rfl
  | deferred level prior =>
    rcases h.dispatched result (.deferred level prior) hs with fits | ⟨rfl, he⟩
    · obtain ⟨f, rest, hf, hd, rfl⟩ := fits
      have := Turn.discharged f rest result prior hs hf hd
      exact Turn.turns (by simpa [conclude, hf, atLevel] using this) rfl
    · obtain ⟨new, f, rest, hf, hn, hd, rfl⟩ := he
      have := Turn.entrusted new f rest prior hs hf hn hd
      exact Turn.turns (by simpa [conclude, hf, atLevel, Frame.afterDefer] using this) rfl

theorem turns_unwind (h : t.Coherent) (hs : t.stage = .unwinding) : t.Turns t.unwind none := by
  obtain ⟨f, rest, hf, hd⟩ := h.unwinding hs
  simp only [unwind, hf]
  cases ho : f.defers with
  | nil =>
    refine (Turn.popped f rest hs hf hd ho).turns ?_
    split <;> rfl
  | cons op ops => exact (Turn.undertaken f rest op ops hs hf hd ho).turns rfl

variable [Named G] {registry : Registry M}

theorem turns_core (op : Operation G F) (origin : Option (HandlerSlot M))
    (hp : t.stage.underway? = some p) (fits : p.Fits t.frames) :
    t.Turns (t.core op origin p).1 (t.core op origin p).2.input? := by
  cases op with
  | call | fork | start | next | custom => exact turns_onwards hp fits rfl rfl
  | execute g => exact (Turn.pushed g _ none p hp fits).turns rfl
  | defer inner =>
    match hf : t.frames with
    | [] => simp only [core, hf]; exact turns_onwards hp fits rfl rfl
    | f :: rest => simp only [core, hf]; exact (Turn.registered f rest inner p hp fits hf).turns rfl
  | recover =>
    match hf : t.frames with
    | [] | [_] => simp only [core, recover, hf]; exact turns_onwards hp fits rfl rfl
    | top :: below :: rest =>
      simp only [core]
      cases hb : below.holdsError with
      | false => rw [recover_eq hf hb]; exact turns_onwards hp fits rfl rfl
      | true =>
        unfold Frame.holdsError at hb
        split at hb <;> try contradiction
        next e hd he =>
          have := Turn.recovered top below rest e p hp fits hf hd he
          exact Turn.turns (by simpa [recover, hf, hd, he, become] using this) rfl
  | terminal inner =>
    match hf : t.frames with
    | [] => simp only [core, hf]; split <;> exact turns_onwards hp fits rfl rfl
    | f :: rest =>
      simp only [core, hf]
      cases hn : inner.needsFrame with
      | true => exact turns_onwards hp fits rfl rfl
      | false =>
        cases hd : f.completed with
        | true => exact turns_onwards hp fits rfl rfl
        | false =>
          obtain rfl : p = .yielded := Purpose.Fits.eq_yielded (hf ▸ fits) hd
          exact (Turn.replaced f rest inner origin hp hf hd).turns rfl

theorem turns_dispatch (y : Yielded G F) (origin : Option (HandlerSlot M))
    (hs : t.stage = .dispatching y origin p) (fits : p.Fits t.frames) :
    t.Turns (t.dispatch registry y origin p) none := by
  have hp : t.stage.underway? = some p := by rw [hs]; rfl
  cases y with
  | generator g =>
    simp only [dispatch]
    split
    · exact turns_onwards hp fits rfl rfl
    · exact (Turn.pushed g _ none p hp fits).turns rfl
  | operation op =>
    cases op with
    | next inner =>
      unfold dispatch
      match origin with
      | none => exact turns_onwards hp fits rfl rfl
      | some slot => dsimp only; split <;> exact turns_onwards hp fits rfl rfl
    | _ => exact turns_onwards hp fits rfl rfl

theorem turns_step (h : t.Coherent) :
    t.Turns (t.step registry).1 (t.step registry).2.input? := by
  cases hs : t.stage with
  | fresh root =>
    have hf := h.fresh root hs
    simp only [step, hs]
    split
    · exact (Turn.quiet _ hf (by simp only [become, hf]; exact .of_settled)).turns rfl
    · exact (Turn.quiet _ hf (.of_fits (p := .yielded) rfl trivial fun _ => rfl)).turns rfl
  | ready =>
    cases hf : t.frames with
    | nil =>
      simp only [step, hs, hf]
      exact (Turn.quiet _ hf (by simp only [become, hf]; exact .of_settled)).turns rfl
    | cons f rest =>
      simp only [step, hs, hf]
      exact (Turn.resumed f rest hs hf).turns rfl
  | dispatching y origin p =>
    have : t.Turns (t.dispatch registry y origin p) none :=
      turns_dispatch y origin hs (h.underway p (by rw [hs]; rfl))
    rw [step, hs]
    exact this
  | offering op slot origin p =>
    have fits : p.Fits t.frames := h.underway p (by rw [hs]; rfl)
    simp only [step, hs]
    cases slot.handler? with
    | some m => exact Turn.idle.turns rfl
    | none => exact turns_core op origin (by rw [hs]; rfl) fits
  | handling op slot p =>
    have fits : p.Fits t.frames := h.underway p (by rw [hs]; rfl)
    simp only [step, hs]
    cases slot.handler? with
    | some m => exact Turn.idle.turns rfl
    | none => exact turns_onwards (by rw [hs]; rfl) fits rfl rfl
  | replacing frame inner origin p =>
    have fits : p.Fits t.frames := h.underway p (by rw [hs]; rfl)
    obtain rfl : p = .yielded := by simpa [hs, Stage.underway?] using h.replaced (by rw [hs]; rfl)
    simp only [step, hs]
    refine (Turn.onwards _ .yielded (by rw [hs]; rfl) rfl fits fun _ => rfl).turns ?_
    split <;> rfl
  | reporting d inner origin p =>
    have fits : p.Fits t.frames := h.underway p (by rw [hs]; rfl)
    simp only [step, hs]
    exact turns_onwards (by rw [hs]; rfl) fits rfl rfl
  | dispatched result p => simp only [step, hs]; exact turns_conclude h result hs
  | unwinding => simp only [step, hs]; exact turns_unwind h hs
  | retiring | resuming | invoking | forking | settled =>
    simp only [step, hs]; exact Turn.idle.turns rfl

theorem turns_resumed (h : t.Coherent) (signal : Signal G F) (g : G) :
    t.Turns (t.take registry (.resumed signal g)) none := by
  cases hs : t.stage with
  | retiring frame inner origin p =>
    have fits : p.Fits t.frames := h.underway p (by rw [hs]; rfl)
    obtain rfl : p = .yielded := by simpa [hs, Stage.underway?] using h.replaced (by rw [hs]; rfl)
    simp only [take, hs, retired]
    have onwards (s : Stage G F M) (hp : s.purpose? = some .yielded) : t.Turns (t.become s) none :=
      (Turn.onwards s .yielded (by rw [hs]; rfl) hp fits fun _ => rfl).turns rfl
    cases signal with
    | yielded => exact onwards _ rfl
    | complete outcome =>
      cases outcome with
      | ok => exact onwards _ rfl
      | error e => split <;> exact onwards _ rfl
  | resuming =>
    simp only [take, hs, resumed]
    cases hf : t.frames with
    | nil => exact Turn.idle.turns rfl
    | cons f rest =>
      cases signal with
      | complete outcome => exact (Turn.completed f rest g _ hs hf).turns rfl
      | yielded y => exact (Turn.suspended f rest g y hs hf).turns rfl
  | fresh | ready | dispatching | offering | handling | invoking | forking | replacing | reporting
  | dispatched | unwinding | settled =>
    simp only [take, hs, resumed]
    exact Turn.idle.turns rfl

theorem turns_take (h : t.Coherent) (i : Impulse G F) :
    t.Turns (t.take registry i) (t.demand registry i).input? := by
  cases i with
  | move => exact turns_step h
  | resumed signal g => exact turns_resumed h signal g
  | filtered accepts =>
    simp only [take, filtered]
    split
    · rename_i op slot origin p hs
      have hp : t.stage.underway? = some p := by rw [hs]; rfl
      split <;> exact turns_onwards hp (h.underway p hp) rfl rfl
    · exact Turn.idle.turns rfl
  | handled result =>
    simp only [take, handled]
    split
    · rename_i op slot p hs
      have hp : t.stage.underway? = some p := by rw [hs]; rfl
      cases result with
      | ok g => exact (Turn.pushed g _ _ p hp (h.underway p hp)).turns rfl
      | error e => exact turns_onwards hp (h.underway p hp) rfl rfl
    · exact Turn.idle.turns rfl
  | invoked result =>
    simp only [take, invoked]
    split
    · rename_i p hs
      have hp : t.stage.underway? = some p := by rw [hs]; rfl
      cases result with
      | ok g => exact (Turn.pushed g _ _ p hp (h.underway p hp)).turns rfl
      | error e => exact turns_onwards hp (h.underway p hp) rfl rfl
    · exact Turn.idle.turns rfl
  | forked child =>
    simp only [take, forked]
    split
    · rename_i p hs
      exact (Turn.forked _ p hs (h.underway p (by rw [hs]; rfl))).turns rfl
    · exact Turn.idle.turns rfl
  | cancel =>
    simp only [take, requestCancel]
    split
    · exact Turn.idle.turns rfl
    · rename_i hc
      simp only [Bool.or_eq_true, not_or, Bool.not_eq_true] at hc
      exact (Turn.cancelled hc.1 hc.2).turns rfl

/-- Every impulse on a coherent task is a turn. -/
theorem turn_take (h : t.Coherent) (i : Impulse G F) :
    Turn t (t.observe registry i) (t.take registry i) := by
  have turns : t.Turns (t.take registry i) (t.demand registry i).input? := turns_take h i
  obtain ⟨es, turn, inputs⟩ := turns
  have events := turn.events_eq h
  rw [inputs] at events
  rw [observe, ← events]
  exact turn

/-- What the top frame is resumed with is what the task asks for. -/
theorem inputs_observe (h : t.Coherent) (i : Impulse G F) :
    (t.observe registry i).filterMap (·.input?) = (t.demand registry i).input?.toList := by
  have turns : t.Turns (t.take registry i) (t.demand registry i).input? := turns_take h i
  obtain ⟨es, turn, inputs⟩ := turns
  rw [observe, ← inputs, ← turn.events_eq h]

theorem Coherent.take (h : t.Coherent) (i : Impulse G F) : (t.take registry i).Coherent :=
  h.turn (turn_take h i)

end Task

namespace Run

variable {G F M : Type} [Named G] {registry : Registry M} {id : TaskId} {root : Yielded G F}

/-- What holds at first and is kept by every turn of a coherent task holds after any impulses. -/
theorem turn_induction {P : Run G F M → Prop} (start : P (start id root))
    (turn : ∀ t h es t', t.Coherent → t.Turn es t' → P ⟨t, h⟩ → P ⟨t', h ++ es⟩)
    (impulses : List (Impulse G F)) : P ((Run.start id root).after registry impulses) := by
  let r : Run G F M := (Run.start id root).after registry impulses
  have both : r.task.Coherent ∧ P r := by
    refine after_induction (P := fun r => r.task.Coherent ∧ P r)
      ⟨Task.coherent_fresh id root, start⟩ ?_ impulses
    rintro r i ⟨coherent, h⟩
    exact ⟨coherent.take i, turn _ _ _ _ coherent (Task.turn_take coherent i) h⟩
  exact both.2

theorem coherent (impulses : List (Impulse G F)) :
    ((start id root).after registry impulses : Run G F M).task.Coherent := by
  refine turn_induction (P := fun r => r.task.Coherent) (Task.coherent_fresh id root) ?_ impulses
  intro t h es t' _ turn ih
  exact ih.turn turn

end Run

end EffectEngine
