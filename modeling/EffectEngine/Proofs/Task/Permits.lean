import EffectEngine.Proofs.Task.Refinement

/-!
# What a task may hold

`Permits` says which generators, operations and middleware are allowed. `Task.Permitted` says that a
task holds nothing else, apart from the generator that is being resumed. As long as all answers are
permitted the task stays so with each move, and so is all that it asks for. It makes no difference
whether the task is cancelled.
-/

namespace EffectEngine

variable {G F M : Type}

structure Permits (G F M : Type) where
  generator : G → Prop
  operation : Operation G F → Prop
  middleware : M → Prop
  execute : ∀ {g}, operation (.execute g) ↔ generator g
  inner : ∀ {op inner}, op.inner? = some inner → operation op → operation inner

namespace Permits

variable (p : Permits G F M)

def yields : Yielded G F → Prop
  | .operation op => p.operation op
  | .generator g => p.generator g

def signal : Signal G F → Prop
  | .yielded y => p.yields y
  | .complete _ => True

def slot (slot : HandlerSlot M) : Prop := ∀ m ∈ slot.handlers, p.middleware m

/-- A frame may be on the stack of a task, whatever its generator is. -/
structure Allows (f : Frame G F M) : Prop where
  defers : ∀ op ∈ f.defers, p.operation op
  slot : ∀ slot ∈ f.slot, p.slot slot

def frames (fs : List (Frame G F M)) : Prop :=
  ∀ f ∈ fs, p.Allows f ∧ p.generator f.generator

def stage : Stage G F M → Prop
  | .fresh root => p.yields root
  | .dispatching y origin _ => p.yields y ∧ ∀ slot ∈ origin, p.slot slot
  | .offering op slot origin _ => p.operation op ∧ p.slot slot ∧ ∀ slot ∈ origin, p.slot slot
  | .handling op slot _ => p.operation op ∧ p.slot slot
  | .replacing f inner origin _ | .retiring f inner origin _ =>
    p.generator f.generator ∧ p.operation inner ∧ ∀ slot ∈ origin, p.slot slot
  | .reporting _ inner origin _ => p.operation inner ∧ ∀ slot ∈ origin, p.slot slot
  | _ => True

def request : Request G F M → Prop
  | .resume g _ | .retire g => p.generator g
  | .filter m op | .handle m op => p.middleware m ∧ p.operation op
  | .fork root => p.operation root
  | .silent | .invoke .. | .report _ => True

/-- What may happen to a task. -/
def impulse : Impulse G F → Prop
  | .resumed signal g => p.signal signal ∧ p.generator g
  | .handled result | .invoked result => ∀ g, result = .ok g → p.generator g
  | .move | .filtered _ | .forked _ | .cancel => True

/-- All middleware of a registry is permitted. -/
def Registers (registry : Registry M) : Prop :=
  ∀ r ∈ registry.registrations, p.middleware r.middleware

end Permits

namespace Task

/-- The frames whose generators are not being resumed. -/
def dormant (t : Task G F M) : List (Frame G F M) :=
  match t.stage with
  | .resuming => t.frames.tail
  | _ => t.frames

structure Permitted (p : Permits G F M) (t : Task G F M) : Prop where
  frames : ∀ f ∈ t.frames, p.Allows f
  generators : ∀ f ∈ t.dormant, p.generator f.generator
  stage : p.stage t.stage

/-- A task that is over, or that holds only what is permitted. -/
def Orderly (p : Permits G F M) (t : Task G F M) : Prop := t.isSettled = true ∨ t.Permitted p

end Task

variable {p : Permits G F M} {t : Task G F M} {f f' : Frame G F M} {fs fs' : List (Frame G F M)}

namespace Permits

theorem Registers.slot {registry : Registry M} (h : p.Registers registry) (kind : String)
    (i : Nat) : p.slot ⟨kind, registry.handlers kind, i⟩ := by
  intro m hm
  obtain ⟨r, hr, rfl⟩ := List.mem_map.1 hm
  exact h r (List.mem_filter.1 hr).1

theorem middleware_of_handler {slot : HandlerSlot M} {m : M} (h : p.slot slot)
    (serves : slot.handler? = some m) : p.middleware m :=
  h m (List.mem_of_getElem? serves)

/-- What matters of a frame here. -/
def holding (f : Frame G F M) : G × List (Operation G F) × Option (HandlerSlot M) :=
  (f.generator, f.defers, f.slot)

theorem Allows.of_holding (h : p.Allows f) (same : holding f' = holding f) : p.Allows f' := by
  simp only [holding, Prod.mk.injEq] at same
  obtain ⟨-, defers, slot⟩ := same
  exact ⟨defers ▸ h.defers, slot ▸ h.slot⟩

/-- Writing results makes no difference. -/
theorem frames_of_holding (h : p.frames fs) (same : fs'.map holding = fs.map holding) :
    p.frames fs' := by
  intro f' hf
  obtain ⟨f, hf, alike⟩ := List.mem_map.1 (same ▸ List.mem_map_of_mem hf)
  refine ⟨(h f hf).1.of_holding alike.symm, ?_⟩
  rw [← (Prod.mk.inj alike).1]
  exact (h f hf).2

theorem frames_cons (hf : p.Allows f) (generator : p.generator f.generator) (h : p.frames fs) :
    p.frames (f :: fs) := List.forall_mem_cons.2 ⟨⟨hf, generator⟩, h⟩

end Permits

namespace Task

open Permits

theorem permitted_fresh (id : TaskId) {root : Yielded G F} (h : p.yields root) :
    (fresh id root : Task G F M).Permitted p := ⟨nofun, nofun, h⟩

namespace Permitted

theorem of_frames (frames : p.frames t.frames) (stage : p.stage t.stage) : t.Permitted p := by
  refine ⟨fun f hf => (frames f hf).1, fun f hf => ?_, stage⟩
  unfold dormant at hf
  split at hf
  · exact (frames f (List.mem_of_mem_tail hf)).2
  · exact (frames f hf).2

/-- Nothing is being resumed. -/
theorem dormant_frames (h : t.Permitted p) (resting : t.stage ≠ .resuming) : p.frames t.frames := by
  intro f hf
  refine ⟨h.frames f hf, h.generators f ?_⟩
  unfold dormant
  split
  · exact absurd ‹_› resting
  · exact hf

theorem become (h : t.Permitted p) (resting : t.stage ≠ .resuming) {stage : Stage G F M}
    (permitted : p.stage stage) : (t.become stage).Permitted p :=
  of_frames (h.dormant_frames resting) permitted

theorem settle (h : t.Permitted p) (resting : t.stage ≠ .resuming) : t.settle.Permitted p :=
  h.become resting trivial

theorem push (h : t.Permitted p) (resting : t.stage ≠ .resuming) {g : G}
    (generator : p.generator g) (name : String) {slot : Option (HandlerSlot M)}
    (serves : ∀ s ∈ slot, p.slot s) (purpose : Purpose) : (t.push g name slot purpose).Permitted p :=
  of_frames (frames_cons ⟨nofun, serves⟩ generator (h.dormant_frames resting)) trivial

theorem setCurrent (h : t.Permitted p) (resting : t.stage ≠ .resuming) (outcome : Outcome)
    {stage : Stage G F M} (permitted : p.stage stage) :
    ((t.setCurrent outcome).become stage).Permitted p :=
  of_frames (frames_of_holding (h.dormant_frames resting) (map_setCurrent (by intros; rfl) outcome))
    permitted

theorem handDown (frames : p.frames fs) (outcome : Outcome) :
    (t.handDown outcome fs).Permitted p := by
  refine of_frames (frames_of_holding frames (map_handDown (by intros; rfl) outcome fs)) ?_
  unfold Task.handDown
  split
  · trivial
  · split <;> trivial

theorem recover (h : t.Permitted p) (resting : t.stage ≠ .resuming) {stage : Stage G F M}
    (permitted : p.stage stage) : (t.recover.become stage).Permitted p := by
  have frames := h.dormant_frames resting
  unfold Task.recover
  split
  · rename_i top below rest split
    rw [split] at frames
    split
    · exact of_frames (frames_of_holding frames rfl) permitted
    · exact h.become resting permitted
  · exact h.become resting permitted

theorem conclude (h : t.Permitted p) (resting : t.stage ≠ .resuming) (result : Except Error Unit)
    (purpose : Purpose) : (t.conclude result purpose).Permitted p := by
  cases purpose with
  | yielded =>
    cases result with
    | ok => exact h.become resting trivial
    | error e => exact h.setCurrent resting _ trivial
  | deferred level prior =>
    refine of_frames (frames_of_holding (h.dormant_frames resting) ?_) ?_
    · exact map_atLevel (by intros; rfl) level _
    · simp only [Task.conclude]
      split <;> trivial

theorem unwind (h : t.Permitted p) (resting : t.stage ≠ .resuming) : t.unwind.Permitted p := by
  have frames := h.dormant_frames resting
  unfold Task.unwind
  split
  · exact h.become resting trivial
  · rename_i f rest split
    rw [split] at frames
    obtain ⟨⟨frame, generator⟩, below⟩ := List.forall_mem_cons.1 frames
    split
    · rename_i op defers registered
      have defers := frame.defers
      rw [registered] at defers
      obtain ⟨op, defers⟩ := List.forall_mem_cons.1 defers
      exact of_frames (frames_cons ⟨defers, frame.slot⟩ generator below) ⟨op, frame.slot⟩
    · exact handDown below f.result

section Step

variable [Named G] {registry : Registry M} {op : Operation G F} {origin : Option (HandlerSlot M)}

theorem pushPlain (h : t.Permitted p) (resting : t.stage ≠ .resuming) {g : G}
    (generator : p.generator g) (purpose : Purpose) : (t.pushPlain g purpose).Permitted p := by
  have nowhere : ∀ s ∈ (none : Option (HandlerSlot M)), p.slot s := nofun
  exact h.push resting generator _ nowhere purpose

theorem dispatch (h : t.Permitted p) (resting : t.stage ≠ .resuming)
    (registers : p.Registers registry) {y : Yielded G F} (yields : p.yields y)
    (serves : ∀ s ∈ origin, p.slot s) (purpose : Purpose) :
    (t.dispatch registry y origin purpose).Permitted p := by
  have ends (result : Except Error Unit) : (t.become (.dispatched result purpose)).Permitted p :=
    h.become resting trivial
  cases y with
  | generator g =>
    simp only [Task.dispatch]
    split
    · exact h.become resting ⟨p.execute.2 yields, serves⟩
    · exact h.pushPlain resting yields purpose
  | operation op =>
    have offered : (t.become
        (.offering op ⟨op.kind, registry.handlers op.kind, 0⟩ origin purpose)).Permitted p :=
      h.become resting ⟨yields, registers.slot op.kind 0, serves⟩
    cases op with
    | next inner =>
      have inner : p.operation inner := p.inner rfl yields
      simp only [Task.dispatch]
      split
      · exact ends _
      · rename_i slot
        have served : p.slot slot := serves slot rfl
        split
        · exact h.become resting ⟨inner, served, serves⟩
        · exact ends _
    | _ => exact offered

theorem core (h : t.Permitted p) (resting : t.stage ≠ .resuming) (permitted : p.operation op)
    (serves : ∀ s ∈ origin, p.slot s) (purpose : Purpose) :
    (t.core op origin purpose).1.Permitted p ∧ p.request (t.core op origin purpose).2 := by
  have fails (e : Error) : (t.become (.dispatched (.error e) purpose)).Permitted p :=
    h.become resting trivial
  cases op with
  | call func args => exact ⟨h.become resting trivial, trivial⟩
  | execute g => exact ⟨h.pushPlain resting (p.execute.1 permitted) purpose, trivial⟩
  | fork inner => exact ⟨h.become resting trivial, p.inner (by rfl) permitted⟩
  | start inner => exact ⟨h.become resting ⟨p.inner (by rfl) permitted, serves⟩, trivial⟩
  | next inner | custom kind payload => exact ⟨fails _, trivial⟩
  | recover => exact ⟨h.recover resting trivial, trivial⟩
  | defer inner =>
    simp only [Task.core]
    split
    · exact ⟨fails _, trivial⟩
    · rename_i f rest split
      have frames := h.dormant_frames resting
      rw [split] at frames
      obtain ⟨⟨frame, generator⟩, below⟩ := List.forall_mem_cons.1 frames
      have registered : ∀ op ∈ inner :: f.defers, p.operation op :=
        List.forall_mem_cons.2 ⟨p.inner (by rfl) permitted, frame.defers⟩
      exact ⟨of_frames (frames_cons ⟨registered, frame.slot⟩ generator below) trivial, trivial⟩
  | terminal inner =>
    simp only [Task.core]
    split
    · exact ⟨fails _, trivial⟩
    · split
      · exact ⟨fails _, trivial⟩
      · rename_i f rest split
        have frames := h.dormant_frames resting
        rw [split] at frames
        obtain ⟨⟨-, generator⟩, below⟩ := List.forall_mem_cons.1 frames
        split
        · exact ⟨fails _, trivial⟩
        · exact ⟨of_frames below ⟨generator, p.inner (by rfl) permitted, serves⟩, trivial⟩

/-- What a task does on its own, and what it asks for. -/
theorem step (h : t.Permitted p) (registers : p.Registers registry) :
    (t.step registry).1.Permitted p ∧ p.request (t.step registry).2 := by
  have stage := h.stage
  match hs : t.stage with
  | .fresh root =>
    rw [hs] at stage
    simp only [Task.step, hs]
    split
    · exact ⟨h.settle (by simp [hs]), trivial⟩
    · exact ⟨h.become (by simp [hs]) ⟨stage, by rintro _ ⟨⟩⟩, trivial⟩
  | .ready =>
    have frames := h.dormant_frames (by simp [hs])
    simp only [Task.step, hs]
    split
    · exact ⟨h.settle (by simp [hs]), trivial⟩
    · rename_i f rest split
      rw [split] at frames
      obtain ⟨⟨frame, generator⟩, below⟩ := List.forall_mem_cons.1 frames
      refine ⟨⟨?_, fun f hf => (below f hf).2, trivial⟩, generator⟩
      exact List.forall_mem_cons.2 ⟨⟨frame.defers, frame.slot⟩, fun f hf => (below f hf).1⟩
  | .dispatching y origin purpose =>
    rw [hs] at stage
    simp only [Task.step, hs]
    exact ⟨h.dispatch (by simp [hs]) registers stage.1 stage.2 purpose, trivial⟩
  | .offering op slot origin purpose =>
    rw [hs] at stage
    simp only [Task.step, hs]
    split
    · rename_i m serves
      exact ⟨h, middleware_of_handler stage.2.1 serves, stage.1⟩
    · exact h.core (by simp [hs]) stage.1 stage.2.2 purpose
  | .handling op slot purpose =>
    rw [hs] at stage
    simp only [Task.step, hs]
    split
    · rename_i m serves
      exact ⟨h, middleware_of_handler stage.2 serves, stage.1⟩
    · exact ⟨h.become (by simp [hs]) trivial, trivial⟩
  | .replacing frame op origin purpose =>
    rw [hs] at stage
    simp only [Task.step, hs]
    refine ⟨h.become (by simp [hs]) stage, ?_⟩
    split <;> trivial
  | .retiring frame op origin purpose =>
    rw [hs] at stage
    simp only [Task.step, hs]
    exact ⟨h, stage.1⟩
  | .reporting d op origin purpose =>
    rw [hs] at stage
    simp only [Task.step, hs]
    exact ⟨h.become (by simp [hs]) stage, trivial⟩
  | .dispatched result purpose =>
    simp only [Task.step, hs]
    exact ⟨h.conclude (by simp [hs]) result purpose, trivial⟩
  | .unwinding =>
    simp only [Task.step, hs]
    exact ⟨h.unwind (by simp [hs]), trivial⟩
  | .resuming | .invoking _ | .forking _ | .settled _ =>
    simp only [Task.step, hs]
    exact ⟨h, trivial⟩

end Step

/-! ### Answers -/

theorem filtered (h : t.Permitted p) (accepts : Bool) : (t.filtered accepts).Permitted p := by
  have stage := h.stage
  unfold Task.filtered
  split
  · rename_i op slot origin purpose hs
    rw [hs] at stage
    split
    · exact h.become (by simp [hs]) ⟨stage.1, stage.2.1⟩
    · exact h.become (by simp [hs]) stage
  · exact h

theorem handled (h : t.Permitted p) {result : Except Error G}
    (generator : ∀ g, result = .ok g → p.generator g) : (t.handled result).Permitted p := by
  have stage := h.stage
  unfold Task.handled
  split
  · rename_i op slot purpose hs
    rw [hs] at stage
    split
    · refine h.push (by simp [hs]) (generator _ rfl) _ (fun s hs => ?_) _
      rw [← Option.some.inj hs]
      exact stage.2
    · exact h.become (by simp [hs]) trivial
  · exact h

theorem invoked [Named G] (h : t.Permitted p) {result : Except Error G}
    (generator : ∀ g, result = .ok g → p.generator g) : (t.invoked result).Permitted p := by
  unfold Task.invoked
  split
  · rename_i purpose hs
    split
    · exact h.pushPlain (by simp [hs]) (generator _ rfl) _
    · exact h.become (by simp [hs]) trivial
  · exact h

theorem forked (h : t.Permitted p) (child : TaskId) : (t.forked child).Permitted p := by
  unfold Task.forked
  split
  · rename_i purpose hs
    exact h.setCurrent (by simp [hs]) _ trivial
  · exact h

theorem resumed (h : t.Permitted p) {signal : Signal G F} {g : G} (permitted : p.signal signal)
    (generator : p.generator g) : (t.resumed signal g).Permitted p := by
  unfold Task.resumed
  split
  · rename_i f rest hs split
    have below : p.frames rest := by
      intro f hf
      refine ⟨h.frames f (by simp [split, hf]), h.generators f ?_⟩
      simpa [dormant, hs, split] using hf
    have frame := h.frames f (by simp [split])
    have frames {mark : Mark} {result : Outcome} {completed : Bool} :
        p.frames ({ f with generator := g, mark, result, completed } :: rest) :=
      frames_cons ⟨frame.defers, frame.slot⟩ generator below
    split
    · exact of_frames frames trivial
    · refine of_frames frames ?_
      dsimp only
      split
      · trivial
      · exact ⟨permitted, frame.slot⟩
  · exact h

theorem retired (h : t.Permitted p) (signal : Signal G F) : (t.retired signal).Permitted p := by
  have stage := h.stage
  unfold Task.retired
  split
  · rename_i f inner origin purpose hs
    rw [hs] at stage
    split <;> exact h.become (by simp [hs]) stage.2
  · exact h

/-- A request to cancel changes only the flag and the marks. -/
theorem requestCancel (h : t.Permitted p) : t.requestCancel.2.Permitted p := by
  unfold Task.requestCancel
  split
  · exact h
  · refine ⟨fun f hf => ?_, fun f hf => ?_, h.stage⟩
    · obtain ⟨f, old, rfl⟩ := List.mem_map.1 hf
      exact ⟨(h.frames f old).defers, (h.frames f old).slot⟩
    · have dormant : ∀ f ∈ t.dormant.map fun f => { f with mark := f.mark.cancel },
          p.generator f.generator := List.forall_mem_map.2 h.generators
      refine dormant f ?_
      unfold Task.dormant at hf ⊢
      split
      · rename_i stage
        simpa only [stage, List.map_tail] using hf
      · rename_i resting
        split at hf
        · exact absurd ‹_› resting
        · exact hf

end Permitted

end Task

end EffectEngine
