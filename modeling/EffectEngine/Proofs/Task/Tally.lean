import EffectEngine.Proofs.Batch.Sections
import EffectEngine.Proofs.Task.Dispatch
import EffectEngine.Proofs.Task.Permits
import EffectEngine.Script.Setup
import Mathlib.Algebra.GroupWithZero.Nat
import Mathlib.Logic.Relation

/-!
# What the metrics count

A `Tally` is a world with the tasks whose operations a metrics middleware counts, and the number of
its handlers that were made to return before they began. A `Tally.Step` is anything that happens to
these tasks. A handler frame is told from all others by the slot it serves: it `Owes` a count of its
end until its generator has finished, and `Tended` says where such frames can stand. Operations are
counted when their handlers are made, and again when the handlers end, unless these never begin:
`Tally.Balanced` is kept by every step.
-/

namespace EffectEngine

variable {G F M : Type}

namespace Stage

def replacedFrame? : Stage G F M → Option (Frame G F M)
  | replacing f _ _ _ | retiring f _ _ _ => some f
  | _ => none

/-- Whether the top frame may be one that has not been resumed yet. -/
def mayBegin : Stage G F M → Bool
  | ready | dispatched (.ok _) _ => true
  | _ => false

end Stage

/-- What does not change of a frame while it is neither resumed nor replaced. -/
def Frame.identity (f : Frame G F M) : Option (HandlerSlot M) × G × Bool :=
  (f.slot, f.generator, f.completed)

namespace Metrics

variable {T : ClientSig} (id : CountersId)

def isCounter {μ : Type} : Middleware μ → Bool
  | .metrics id' => id' == id
  | _ => false

/-- The place in a chain is that of the middleware. -/
def serves (slot : Option (HandlerSlot T.sig.Mw)) : Bool :=
  (slot.bind (·.handler?)).any (isCounter id)

def isOver : T.sig.Gen → Bool
  | .library _ .finished => true
  | _ => false

def isUnbegun : T.sig.Gen → Bool
  | .library _ (.created _) => true
  | _ => false

abbrev TaskFrame (T : ClientSig) := Frame T.sig.Gen T.sig.Fn T.sig.Mw

/-- A handler that is resumed never begins if it has to return first. -/
def misses (f : TaskFrame T) : Bool := f.mark == .pending && isUnbegun f.generator

/-- A handler frame whose end is still to be counted. -/
def owes (f : TaskFrame T) : Bool := serves id f.slot && !isOver f.generator

def owed (t : T.sig.Task) : Nat :=
  t.frames.countP (owes id) + t.stage.replacedFrame?.toList.countP (owes id)

/-- Where a frame can stand if it is one of the middleware's; it has not begun only if it may. -/
inductive Fitting (f : TaskFrame T) : Bool → Prop
  | other (mayBegin : Bool) (foreign : serves id f.slot = false) : Fitting f mayBegin
  | unbegun (name : String) (op : T.sig.Operation)
    (generator : f.generator = .library name (.created (.metrics id op)))
    (result : f.result = .ok .null) (running : f.completed = false) : Fitting f true
  | begun (mayBegin : Bool) (name : String)
    (generator : f.generator = .library name (.suspended (.metrics id)))
    (running : f.completed = false) : Fitting f mayBegin
  | ended (mayBegin : Bool) (name : String) (generator : f.generator = .library name .finished) :
    Fitting f mayBegin

/-- Where the handler frames of a task stand. -/
structure Tended (t : T.sig.Task) : Prop where
  top : ∀ f ∈ t.frames.head?, Fitting id f t.stage.mayBegin
  below : ∀ f ∈ t.frames.tail, Fitting id f false
  replaced : ∀ f ∈ t.stage.replacedFrame?, Fitting id f false
  resuming : t.stage = .resuming → ∀ f ∈ t.frames.head?, serves id f.slot = false

/-- What happens to a task is none of the middleware's business: the operation is not handled by
it, and the generator that is resumed is not that of a handler frame of its. -/
def Foreign (t : T.sig.Task) : Impulse T.sig.Gen T.sig.Fn → Prop
  | .move => t.stage = .ready → ∀ f ∈ t.frames.head?, serves id f.slot = false
  | .handled _ => ∀ op slot p, t.stage = .handling op slot p →
      serves (T := T) id (some slot) = false
  | .resumed _ _ => ∀ f inner origin p, t.stage = .retiring f inner origin p →
      serves id f.slot = false
  | .filtered _ | .invoked _ | .forked _ | .cancel => True

variable {id} {t t' : T.sig.Task} {f f' : TaskFrame T} {b : Bool}

namespace Fitting

theorem weaken (h : Fitting id f false) (b : Bool) : Fitting id f b := by
  cases h with
  | other _ foreign => exact .other _ foreign
  | begun _ name generator running => exact .begun _ name generator running
  | ended _ name generator => exact .ended _ name generator

/-- A frame that has completed is not one that has not begun. -/
theorem of_completed (h : Fitting id f b) (done : f.completed = true) : Fitting id f false := by
  cases h with
  | other _ foreign => exact .other _ foreign
  | unbegun _ _ _ _ running | begun _ _ _ running => cases done.symm.trans running
  | ended _ name generator => exact .ended _ name generator

theorem owes_of_completed (h : Fitting id f b) (done : f.completed = true) : owes id f = false := by
  cases h with
  | other _ foreign => simp [owes, foreign]
  | unbegun _ _ _ _ running | begun _ _ _ running => cases done.symm.trans running
  | ended _ name generator => simp [owes, isOver, generator]

theorem of_same (h : Fitting id f b) (same : f'.identity = f.identity)
    (result : f'.result = f.result) : Fitting id f' b := by
  obtain ⟨slot, generator, completed⟩ :
      f'.slot = f.slot ∧ f'.generator = f.generator ∧ f'.completed = f.completed := by
    simpa [Frame.identity] using same
  cases h with
  | other _ foreign => exact .other _ (slot ▸ foreign)
  | unbegun name op created due running =>
    exact .unbegun name op (generator.trans created) (result.trans due) (completed.trans running)
  | begun _ name created running =>
    exact .begun _ name (generator.trans created) (completed.trans running)
  | ended _ name created => exact .ended _ name (generator.trans created)

/-- What a frame is due makes no difference once it has begun. -/
theorem of_identity (h : Fitting id f false) (same : f'.identity = f.identity) (b : Bool) :
    Fitting id f' b := by
  have due : Fitting id { f with result := f'.result } false := by
    cases h with
    | other _ foreign => exact .other _ foreign
    | begun _ name generator running => exact .begun _ name generator running
    | ended _ name generator => exact .ended _ name generator
  exact (due.of_same same rfl).weaken b

end Fitting

theorem stands_of_none {frame? : Option (TaskFrame T)} (none : frame? = .none) :
    ∀ f ∈ frame?, Fitting id f b := by
  rw [none]
  rintro f ⟨⟩

theorem countP_of_identity {frames frames' : List (TaskFrame T)}
    (same : frames'.map Frame.identity = frames.map Frame.identity) :
    frames'.countP (owes id) = frames.countP (owes id) := by
  let owing : Option (HandlerSlot T.sig.Mw) × T.sig.Gen × Bool → Bool :=
    fun i => serves id i.1 && !isOver i.2.1
  have counted (fs : List (TaskFrame T)) :
      fs.countP (owes id) = (fs.map Frame.identity).countP owing := by
    rw [List.countP_map]
    rfl
  rw [counted, counted, same]

theorem owed_of_replaced {replaced : Option (TaskFrame T)}
    (h : t.stage.replacedFrame? = replaced) :
    owed id t = t.frames.countP (owes id) + replaced.toList.countP (owes id) := by
  rw [owed, h]

/-- A task goes on without any business of the middleware's. -/
def Spared (id : CountersId) (t t' : T.sig.Task) : Prop := Tended id t' ∧ owed id t' = owed id t

namespace Tended

/-- The frames are still the same ones. -/
theorem alike (h : Tended id t)
    (frames : t'.frames.map Frame.identity = t.frames.map Frame.identity)
    (replaced : t'.stage.replacedFrame? = t.stage.replacedFrame?)
    (top : ∀ f ∈ t'.frames.head?, Fitting id f t'.stage.mayBegin)
    (resting : t'.stage ≠ .resuming) : Spared id t t' := by
  refine ⟨⟨top, fun f' hf' => ?_, replaced ▸ h.replaced, fun s => absurd s resting⟩, ?_⟩
  · have tails : t'.frames.tail.map Frame.identity = t.frames.tail.map Frame.identity := by
      rw [List.map_tail, List.map_tail, frames]
    obtain ⟨f, hf, same⟩ := List.mem_map.1 (tails ▸ List.mem_map_of_mem hf')
    exact (h.below f hf).of_identity same.symm false
  · rw [owed, owed, replaced, countP_of_identity frames]

/-- The top frame is not one that has not begun. -/
theorem top_settled (h : Tended id t) (settled : t.stage.mayBegin = false)
    (frames : t'.frames.map Frame.identity = t.frames.map Frame.identity) (b : Bool) :
    ∀ f ∈ t'.frames.head?, Fitting id f b := by
  intro f' hf'
  have heads : t'.frames.head?.map Frame.identity = t.frames.head?.map Frame.identity := by
    rw [← List.head?_map, ← List.head?_map, frames]
  rw [Option.mem_def.1 hf'] at heads
  obtain ⟨f, hf, same⟩ := Option.map_eq_some_iff.1 heads.symm
  exact (settled ▸ h.top f hf).of_identity same.symm b

theorem settled (h : Tended id t)
    (frames : t'.frames.map Frame.identity = t.frames.map Frame.identity)
    (settled : t.stage.mayBegin = false)
    (replaced : t'.stage.replacedFrame? = t.stage.replacedFrame?)
    (resting : t'.stage ≠ .resuming) : Spared id t t' :=
  h.alike frames replaced (h.top_settled settled frames _) resting

theorem refl (h : Tended id t) : Spared id t t := ⟨h, rfl⟩

/-- A dispatch goes on without touching the frames. -/
theorem become (h : Tended id t) {s : Stage T.sig.Gen T.sig.Fn T.sig.Mw}
    (settled : t.stage.mayBegin = false) (replaced : s.replacedFrame? = t.stage.replacedFrame?)
    (resting : s ≠ .resuming) : Spared id t (t.become s) :=
  h.settled rfl settled replaced resting

theorem empty (frames : t.frames = []) (frames' : t'.frames = [])
    (plain : t.stage.replacedFrame? = none) (plain' : t'.stage.replacedFrame? = none) :
    Spared id t t' := by
  refine ⟨⟨?_, ?_, ?_, ?_⟩, ?_⟩
  · simp [frames']
  · simp [frames']
  · simp [plain']
  · simp [frames']
  · simp [owed, frames, frames', plain, plain']

theorem pushed (h : Tended id t) (g : T.sig.Gen) (name : String)
    (slot : Option (HandlerSlot T.sig.Mw)) (p : Purpose) (settled : t.stage.mayBegin = false)
    (plain : t.stage.replacedFrame? = none)
    (stands : ∀ mark, Fitting id ⟨g, name, mark, .ok .null, [], false, slot⟩ true) :
    Tended id (t.push g name slot p) ∧ owed id (t.push g name slot p) =
      owed id t + if serves id slot && !isOver g then 1 else 0 := by
  refine ⟨⟨?_, fun f hf => ?_, stands_of_none rfl, by rintro ⟨⟩⟩, ?_⟩
  · rintro f ⟨⟩
    exact stands _
  · rcases frames : t.frames with _ | ⟨top, rest⟩
    · simp [Task.push, frames] at hf
    · rw [Task.push, List.tail_cons, frames] at hf
      rcases List.mem_cons.1 hf with rfl | hf
      · exact settled ▸ h.top f (by simp [frames])
      · exact h.below f (by simp [frames, hf])
  · have plain' : (t.push g name slot p).stage.replacedFrame? = none := rfl
    rw [owed_of_replaced plain', owed_of_replaced plain, Task.push, List.countP_cons]
    exact Nat.add_right_comm _ _ _

theorem push (h : Tended id t) {g : T.sig.Gen} {name : String}
    {slot : Option (HandlerSlot T.sig.Mw)} {p : Purpose} (settled : t.stage.mayBegin = false)
    (plain : t.stage.replacedFrame? = none) (foreign : serves id slot = false) :
    Spared id t (t.push g name slot p) := by
  obtain ⟨tended, counted⟩ :=
    h.pushed g name slot p settled plain fun mark => .other _ foreign
  refine ⟨tended, counted.trans ?_⟩
  rw [foreign]
  rfl

theorem pushPlain (h : Tended id t) (g : T.sig.Gen) (p : Purpose)
    (settled : t.stage.mayBegin = false) (plain : t.stage.replacedFrame? = none) :
    Spared id t (t.pushPlain g p) := h.push settled plain rfl

/-- The top frame goes on. -/
theorem retop (h : Tended id t) {rest : List (TaskFrame T)} (frames : t.frames = f :: rest)
    (plain : t.stage.replacedFrame? = none) {s : Stage T.sig.Gen T.sig.Fn T.sig.Mw}
    (plain' : s.replacedFrame? = none) (stands : Fitting id f' s.mayBegin)
    (resuming : s = .resuming → serves id f'.slot = false) :
    Tended id { t with frames := f' :: rest, stage := s } ∧
      owed id { t with frames := f' :: rest, stage := s } + (if owes id f then 1 else 0) =
        owed id t + if owes id f' then 1 else 0 := by
  refine ⟨⟨?_, fun f' hf' => h.below f' (by simpa [frames] using hf'), stands_of_none plain',
    fun s => ?_⟩, ?_⟩
  · rintro _ ⟨⟩
    exact stands
  · rintro _ ⟨⟩
    exact resuming s
  · rw [owed_of_replaced plain', owed_of_replaced plain, frames]
    simp only [List.countP_cons]
    omega

/-- A frame that is none of the middleware's is resumed, or answers. -/
theorem retop_foreign (h : Tended id t) {rest : List (TaskFrame T)} (frames : t.frames = f :: rest)
    (plain : t.stage.replacedFrame? = none) (foreign : serves id f.slot = false)
    (slot : f'.slot = f.slot) {s : Stage T.sig.Gen T.sig.Fn T.sig.Mw}
    (plain' : s.replacedFrame? = none) :
    Spared id t { t with frames := f' :: rest, stage := s } := by
  have foreign' : serves id f'.slot = false := slot ▸ foreign
  obtain ⟨tended, counted⟩ := h.retop frames plain plain' (.other _ foreign') fun _ => foreign'
  refine ⟨tended, ?_⟩
  simpa [owes, foreign, foreign'] using counted

theorem setCurrent (h : Tended id t) {outcome : Outcome}
    {s : Stage T.sig.Gen T.sig.Fn T.sig.Mw} (settled : t.stage.mayBegin = false)
    (replaced : s.replacedFrame? = t.stage.replacedFrame?) (resting : s ≠ .resuming) :
    Spared id t ((t.setCurrent outcome).become s) :=
  h.settled (Task.map_setCurrent (by intros; rfl) outcome) settled replaced resting

section Moves

variable {registry : Registry T.sig.Mw} {origin : Option (HandlerSlot T.sig.Mw)} {p : Purpose}

theorem dispatch (h : Tended id t) (y : T.sig.Yielded) (settled : t.stage.mayBegin = false)
    (plain : t.stage.replacedFrame? = none) : Spared id t (t.dispatch registry y origin p) := by
  have becomes {s : Stage T.sig.Gen T.sig.Fn T.sig.Mw} (calm : s.replacedFrame? = none)
      (resting : s ≠ .resuming) : Spared id t (t.become s) :=
    h.become settled (calm.trans plain.symm) resting
  unfold Task.dispatch
  split
  · split
    · exact becomes rfl (by rintro ⟨⟩)
    · exact h.pushPlain _ p settled plain
  · split
    · exact becomes rfl (by rintro ⟨⟩)
    · split <;> exact becomes rfl (by rintro ⟨⟩)
  · exact becomes rfl (by rintro ⟨⟩)

theorem recover (h : Tended id t) (settled : t.stage.mayBegin = false)
    (plain : t.stage.replacedFrame? = none) {s : Stage T.sig.Gen T.sig.Fn T.sig.Mw}
    (plain' : s.replacedFrame? = none) (resting : s ≠ .resuming) :
    Spared id t (t.recover.become s) := by
  refine h.settled ?_ settled (plain'.trans plain.symm) resting
  simp only [Task.become, Task.recover]
  split
  · rename_i frames
    rw [frames]
    split <;> simp [frames, Frame.identity]
  · rfl

theorem core (h : Tended id t) (op : T.sig.Operation) (settled : t.stage.mayBegin = false)
    (plain : t.stage.replacedFrame? = none) : Spared id t (t.core op origin p).1 := by
  have becomes {s : Stage T.sig.Gen T.sig.Fn T.sig.Mw} (calm : s.replacedFrame? = none)
      (resting : s ≠ .resuming) : Spared id t (t.become s) :=
    h.become settled (calm.trans plain.symm) resting
  cases op with
  | call | fork | start | next | custom => exact becomes rfl (by rintro ⟨⟩)
  | execute g => exact h.pushPlain g p settled plain
  | recover => exact h.recover settled plain rfl (by rintro ⟨⟩)
  | defer inner =>
    unfold Task.core
    rcases frames : t.frames with _ | ⟨f, rest⟩
    · exact becomes rfl (by rintro ⟨⟩)
    · refine h.settled ?_ settled plain.symm (by rintro ⟨⟩)
      simp [frames, Frame.identity]
  | terminal inner =>
    cases refused : inner.refusal? t.frames with
    | some e =>
      rw [Task.core_refused refused]
      exact becomes rfl (by rintro ⟨⟩)
    | none =>
      obtain ⟨-, f, rest, frames, -⟩ := Operation.refusal?_eq_none.1 refused
      rw [Task.core_replaces refused frames]
      have top : Fitting id f false := settled ▸ h.top f (by simp [frames])
      have below : ∀ f' ∈ rest, Fitting id f' false := by simpa [frames] using h.below
      refine ⟨⟨fun f' hf' => ?_, fun f' hf' => ?_, ?_, by rintro ⟨⟩⟩, ?_⟩
      · exact below f' (List.mem_of_mem_head? hf')
      · exact below f' (List.mem_of_mem_tail hf')
      · rintro f' ⟨⟩
        exact top
      · rw [owed, owed, frames, plain, List.countP_cons]
        simp only [Stage.replacedFrame?, Option.toList, List.countP_cons, List.countP_nil]
        omega

/-- The dispatch of an operation is over. -/
theorem conclude (h : Tended id t) (coherent : t.Coherent) (result : Except Error Unit)
    (stage : t.stage = .dispatched result p) : Spared id t (t.conclude result p) := by
  have plain : t.stage.replacedFrame? = none := by rw [stage]; rfl
  cases p with
  | yielded =>
    cases result with
    | ok =>
      refine h.alike rfl plain.symm ?_ (by rintro ⟨⟩)
      have top := h.top
      rw [stage] at top
      exact top
    | error e =>
      have settled : t.stage.mayBegin = false := by rw [stage]; rfl
      exact h.setCurrent settled plain.symm (by rintro ⟨⟩)
  | deferred level prior =>
    have same : (t.conclude result (.deferred level prior)).frames.map Frame.identity =
        t.frames.map Frame.identity := map_atLevel (by intros; rfl) level t.frames
    rcases coherent.dispatched result (.deferred level prior) stage with
      ⟨f, rest, frames, done, rfl⟩ | ⟨rfl, new, f, rest, frames, running, done, rfl⟩
    · have top : Fitting id f false := (h.top f (by simp [frames])).of_completed done
      have ends : t.conclude result (.deferred (rest.length + 1) prior) = { t with
          frames := { f with result := Frame.afterDefer prior result } :: rest
          stage := .unwinding } := by
        simp [Task.conclude, frames, atLevel]
      rw [ends] at same ⊢
      refine h.alike same plain.symm ?_ (by rintro ⟨⟩)
      rintro f' ⟨⟩
      exact top.of_identity (by rfl) _
    · have top : Fitting id new true := by
        have top := h.top new (by simp [frames])
        rw [stage] at top
        exact top
      have ends : t.conclude (.ok ()) (.deferred (rest.length + 1) prior) = { t with
          frames := new :: { f with result := Frame.afterDefer prior (.ok ()) } :: rest
          stage := .ready } := by
        simp [Task.conclude, frames, atLevel]
      rw [ends] at same ⊢
      refine h.alike same plain.symm ?_ (by rintro ⟨⟩)
      rintro f' ⟨⟩
      exact top

/-- The frame that goes has been counted, and what it hands down makes no difference. -/
theorem handDown (h : Tended id t) {rest : List (TaskFrame T)} (stage : t.stage = .unwinding)
    (frames : t.frames = f :: rest) (done : f.completed = true) (outcome : Outcome) :
    Spared id t (t.handDown outcome rest) := by
  let popped : T.sig.Task := { t with frames := rest }
  have plain : popped.stage.replacedFrame? = none := by simp only [popped, stage]; rfl
  have below : ∀ f' ∈ rest, Fitting id f' false := by simpa [frames] using h.below
  have tended : Tended id popped := by
    refine ⟨fun f' hf' => ?_, fun f' hf' => ?_, stands_of_none plain, fun s => ?_⟩
    · exact (below f' (List.mem_of_mem_head? hf')).weaken _
    · exact below f' (List.mem_of_mem_tail hf')
    · cases stage.symm.trans s
  have counted : owed id t = owed id popped := by
    rw [owed, owed, frames, List.countP_cons,
      (h.top f (by simp [frames])).owes_of_completed done]
    simp [popped]
  have stages : (t.handDown outcome rest).stage = .ready ∨
      (t.handDown outcome rest).stage = .unwinding := by
    unfold Task.handDown
    split
    · exact .inl rfl
    · split <;> simp
  have spared : Spared id popped (t.handDown outcome rest) := by
    refine tended.settled (Task.map_handDown (by intros; rfl) outcome rest) ?_ ?_ ?_
    · simp only [popped, stage]
      rfl
    · rw [plain]
      rcases stages with s | s <;> rw [s] <;> rfl
    · rcases stages with s | s <;> rw [s] <;> rintro ⟨⟩
  exact ⟨spared.1, spared.2.trans counted.symm⟩

/-- A completed frame has a deferred operation dispatched, or goes. -/
theorem unwind (h : Tended id t) (coherent : t.Coherent) (stage : t.stage = .unwinding) :
    Spared id t t.unwind := by
  obtain ⟨f, rest, frames, done⟩ := coherent.unwinding stage
  cases defers : f.defers with
  | nil =>
    have pops : t.unwind = t.handDown f.result rest := by simp only [Task.unwind, frames, defers]
    rw [pops]
    exact h.handDown stage frames done f.result
  | cons op ops =>
    have undertakes : t.unwind = { t with
        frames := { f with defers := ops, result := .ok .null } :: rest
        stage := .dispatching (.operation op) f.slot
          (.deferred t.frames.length f.result) } := by
      simp only [Task.unwind, frames, defers]
    rw [undertakes]
    refine h.settled ?_ ?_ ?_ (by rintro ⟨⟩)
    · simp [frames, Frame.identity]
    · rw [stage]
      rfl
    · rw [stage]
      rfl

/-- What a task does on its own while none of the middleware's handlers is resumed. -/
theorem step (h : Tended id t) (coherent : t.Coherent) (foreign : Foreign id t .move) :
    Spared id t (t.step registry).1 := by
  have becomes {s s' : Stage T.sig.Gen T.sig.Fn T.sig.Mw} (stage : t.stage = s)
      (settled : s.mayBegin = false) (replaced : s'.replacedFrame? = s.replacedFrame?)
      (resting : s' ≠ .resuming) : Spared id t (t.become s') := by
    refine h.become ?_ ?_ resting <;> rw [stage] <;> assumption
  match hs : t.stage with
  | .fresh root =>
    have plain : t.stage.replacedFrame? = none := by rw [hs]; rfl
    simp only [Task.step, hs]
    split <;> exact empty (coherent.fresh root hs) (coherent.fresh root hs) plain rfl
  | .ready =>
    have plain : t.stage.replacedFrame? = none := by rw [hs]; rfl
    simp only [Task.step, hs]
    rcases frames : t.frames with _ | ⟨f, rest⟩
    · exact empty frames frames plain rfl
    · exact h.retop_foreign frames plain (foreign hs f (by simp [frames])) (by rfl) (by rfl)
  | .dispatching y origin p =>
    simp only [Task.step, hs]
    exact h.dispatch y (by rw [hs]; rfl) (by rw [hs]; rfl)
  | .offering op slot origin p =>
    simp only [Task.step, hs]
    split
    · exact h.refl
    · exact h.core op (by rw [hs]; rfl) (by rw [hs]; rfl)
  | .handling op slot p =>
    simp only [Task.step, hs]
    split
    · exact h.refl
    · exact becomes hs rfl rfl (by rintro ⟨⟩)
  | .replacing frame inner origin p =>
    simp only [Task.step, hs]
    exact becomes hs rfl rfl (by rintro ⟨⟩)
  | .reporting d inner origin p =>
    simp only [Task.step, hs]
    exact becomes hs rfl rfl (by rintro ⟨⟩)
  | .dispatched result p =>
    simp only [Task.step, hs]
    exact h.conclude coherent result hs
  | .unwinding =>
    simp only [Task.step, hs]
    exact h.unwind coherent hs
  | .retiring .. | .resuming | .invoking _ | .forking _ | .settled _ =>
    simp only [Task.step, hs]
    exact h.refl

end Moves

/-- What happens to a task that is none of the middleware's business. -/
theorem take (h : Tended id t) (coherent : t.Coherent) (registry : Registry T.sig.Mw)
    {i : Impulse T.sig.Gen T.sig.Fn} (foreign : Foreign id t i) :
    Spared id t (t.take registry i) := by
  cases i with
  | move => exact h.step coherent foreign
  | resumed signal g =>
    simp only [Task.take]
    split
    · rename_i frame inner origin p hs
      -- The frame that was replaced is let go.
      have dropped {s : Stage T.sig.Gen T.sig.Fn T.sig.Mw} (plain : s.replacedFrame? = none)
          (resting : s ≠ .resuming) : Spared id t (t.become s) := by
        have unserved := foreign frame inner origin p hs
        refine ⟨⟨fun f hf => ?_, h.below, stands_of_none plain, fun s => absurd s resting⟩, ?_⟩
        · have top := h.top f hf
          rw [hs] at top
          exact top.weaken _
        · have replaced : t.stage.replacedFrame? = some frame := by rw [hs]; rfl
          rw [owed_of_replaced replaced, owed_of_replaced plain]
          simp [Task.become, owes, unserved]
      simp only [Task.retired, hs]
      split <;> exact dropped rfl (by rintro ⟨⟩)
    · simp only [Task.resumed]
      split
      · rename_i f rest hs frames
        have plain : t.stage.replacedFrame? = none := by rw [hs]; rfl
        have unserved : serves id f.slot = false := h.resuming hs f (by simp [frames])
        split
        · exact h.retop_foreign frames plain unserved (by rfl) (by rfl)
        · split <;> exact h.retop_foreign frames plain unserved (by rfl) (by rfl)
      · exact h.refl
  | filtered accepts =>
    simp only [Task.take, Task.filtered]
    split
    · rename_i op slot origin p hs
      split <;> exact h.become (by rw [hs]; rfl) (by rw [hs]; rfl) (by rintro ⟨⟩)
    · exact h.refl
  | handled result =>
    simp only [Task.take, Task.handled]
    split
    · rename_i op slot p hs
      split
      · exact h.push (by rw [hs]; rfl) (by rw [hs]; rfl) (foreign op slot p hs)
      · exact h.become (by rw [hs]; rfl) (by rw [hs]; rfl) (by rintro ⟨⟩)
    · exact h.refl
  | invoked result =>
    simp only [Task.take, Task.invoked]
    split
    · rename_i p hs
      split
      · exact h.pushPlain _ p (by rw [hs]; rfl) (by rw [hs]; rfl)
      · exact h.become (by rw [hs]; rfl) (by rw [hs]; rfl) (by rintro ⟨⟩)
    · exact h.refl
  | forked child =>
    simp only [Task.take, Task.forked]
    split
    · rename_i p hs
      exact h.setCurrent (by rw [hs]; rfl) (by rw [hs]; rfl) (by rintro ⟨⟩)
    · exact h.refl
  | cancel =>
    simp only [Task.take, Task.requestCancel]
    split
    · exact h.refl
    · refine ⟨⟨fun f' hf' => ?_, fun f' hf' => ?_, h.replaced, fun s f' hf' => ?_⟩, ?_⟩
      · rw [List.head?_map] at hf'
        obtain ⟨f, hf, rfl⟩ := Option.map_eq_some_iff.1 hf'
        exact (h.top f hf).of_same rfl rfl
      · rw [← List.map_tail] at hf'
        obtain ⟨f, hf, rfl⟩ := List.mem_map.1 hf'
        exact (h.below f hf).of_same rfl rfl
      · rw [List.head?_map] at hf'
        obtain ⟨f, hf, rfl⟩ := Option.map_eq_some_iff.1 hf'
        exact h.resuming s f hf
      · rw [owed, owed, List.countP_map]
        rfl

end Tended

/-! ### What the middleware does -/

section Own

variable {c : Client T} {w w' : World T.sig} {n : Counters}

def ends (n : Counters) : Nat := n.succeeded + n.failed + n.cancelled

theorem handled_ended (outcome : Outcome) (n : Counters) :
    (ended outcome n).handled = n.handled := by
  unfold ended
  split <;> rfl

theorem ends_ended (outcome : Outcome) (n : Counters) : ends (ended outcome n) = ends n + 1 := by
  unfold ended
  split <;> simp only [ends] <;> omega

def counters? (id : CountersId) (w : World T.sig) : Option Counters := w.state.counters[id.index]?

/-- The world after a change of the counters. -/
def counting (id : CountersId) (change : Counters → Counters) (w : World T.sig) : World T.sig :=
  { w with state := { w.state with counters := w.state.counters.modify id.index change } }

theorem counters?_counting (h : counters? id w = some n) (change : Counters → Counters) :
    counters? id (counting id change w) = some (change n) := by
  simp only [counters?, counting, Array.getElem?_modify, if_true]
  exact congrArg (Option.map change) h

theorem runSync_handle (op : T.sig.Operation) (ctx : ContextId) :
    w.runSync (c.handleMw (.metrics id) op ctx) =
      (.ok (.ok (.ofOpening (.metrics id op))), counting id handled w) := rfl

theorem runAsks_unbegun_next (name : String) (op : T.sig.Operation) (v : Value) :
    w.runAsks (c.resumeGen (.library name (.created (.metrics id op))) (.next v)) =
      (.done (.yielded (.operation (.next op)), .library name (.suspended (.metrics id))), w) := rfl

/-- A handler that has not begun when it has to return never does. -/
theorem runAsks_unbegun_return (name : String) (op : T.sig.Operation) :
    w.runAsks (c.resumeGen (.library name (.created (.metrics id op))) .forcedReturn) =
      (.done (.complete (.ok .null), .library name .finished), w) := rfl

theorem runAsks_begun (name : String) (input : Resume) :
    w.runAsks (c.resumeGen (.library name (.suspended (.metrics id))) input) =
      (.done (.complete input.outcome, .library name .finished),
        counting id (ended input.outcome) w) := rfl

namespace Tended

/-- The handler of an operation owes a count of its end. -/
theorem handle (h : Tended id t) {op : T.sig.Operation} {slot : HandlerSlot T.sig.Mw}
    {p : Purpose} (op' : T.sig.Operation) (stage : t.stage = .handling op slot p)
    (own : serves (T := T) id (some slot) = true) :
    Tended id (t.handled (.ok (.ofOpening (.metrics id op')))) ∧
      owed id (t.handled (.ok (.ofOpening (.metrics id op')))) = owed id t + 1 := by
  have pushes (g : T.sig.Gen) : t.handled (.ok g) =
      t.push g (Task.handlerName slot.kind) (some slot) p := by
    simp only [Task.handled, stage]
  obtain ⟨tended, counted⟩ := h.pushed (.ofOpening (.metrics id op')) (Task.handlerName slot.kind)
    (some slot) p (by rw [stage]; rfl) (by rw [stage]; rfl)
    fun mark => .unbegun "metrics" op' rfl rfl rfl
  rw [pushes]
  refine ⟨tended, counted.trans ?_⟩
  rw [own]
  rfl

/-- A handler that is resumed ends. -/
theorem finish (h : Tended id t) {rest : List (TaskFrame T)} (stage : t.stage = .ready)
    (frames : t.frames = f :: rest) (outcome : Outcome) (name : String) :
    Tended id ((t.resumeTop f rest).1.resumed (.complete outcome) (.library name .finished)) ∧
      owed id ((t.resumeTop f rest).1.resumed (.complete outcome) (.library name .finished)) +
        (if owes id f then 1 else 0) = owed id t := by
  let mark : Mark := if f.mark == .pending then .forced else f.mark
  let last : TaskFrame T := { f with
    generator := .library name .finished
    mark
    result := Task.completion mark outcome
    completed := true }
  have ends : (t.resumeTop f rest).1.resumed (.complete outcome) (.library name .finished) =
      { t with frames := last :: rest, stage := .unwinding } := rfl
  have stands : Fitting id last (Stage.mayBegin (.unwinding : Stage T.sig.Gen T.sig.Fn T.sig.Mw)) :=
    .ended _ name rfl
  have settled : owes id last = false := by simp [owes, isOver, last]
  obtain ⟨tended, counted⟩ := h.retop frames (by rw [stage]; rfl) (by rfl) stands (by rintro ⟨⟩)
  rw [settled] at counted
  rw [ends]
  exact ⟨tended, counted⟩

/-- A handler that is resumed for the first time delegates its operation. -/
theorem begin (h : Tended id t) {rest : List (TaskFrame T)} (stage : t.stage = .ready)
    (frames : t.frames = f :: rest) (live : f.mark ≠ .pending) (running : f.completed = false)
    (unbegun : isOver f.generator = false) (y : T.sig.Yielded) (name : String) :
    Tended id
        ((t.resumeTop f rest).1.resumed (.yielded y) (.library name (.suspended (.metrics id)))) ∧
      owed id
        ((t.resumeTop f rest).1.resumed (.yielded y) (.library name (.suspended (.metrics id)))) =
        owed id t := by
  have clear : (f.mark == .pending) = false := by simpa using live
  let first : TaskFrame T := { f with
    generator := .library name (.suspended (.metrics id))
    result := .ok .null }
  have begins : (t.resumeTop f rest).1.resumed (.yielded y)
      (.library name (.suspended (.metrics id))) =
      { t with frames := first :: rest, stage := .dispatching y f.slot .yielded } := by
    simp only [Task.resumeTop, Task.resumed, clear, Bool.false_eq_true, if_false]
    rfl
  have stands : Fitting id first
      (Stage.mayBegin (.dispatching y f.slot .yielded : Stage T.sig.Gen T.sig.Fn T.sig.Mw)) :=
    .begun _ name rfl running
  have same : owes id first = owes id f := by
    simp only [owes, unbegun, first]
    rfl
  obtain ⟨tended, counted⟩ := h.retop frames (by rw [stage]; rfl) (by rfl) stands (by rintro ⟨⟩)
  rw [same] at counted
  rw [begins]
  exact ⟨tended, Nat.add_right_cancel counted⟩

/-- A handler begins, or ends and has that counted, or ends without ever having begun. -/
theorem resume (h : Tended id t) {rest : List (TaskFrame T)} (stage : t.stage = .ready)
    (frames : t.frames = f :: rest) (own : serves id f.slot = true) {signal : T.sig.Signal}
    {g : T.sig.Gen} (ran : w.runAsks (c.resumeGen f.generator f.input) = (.done (signal, g), w'))
    (counted : counters? id w = some n) :
    Tended id ((t.resumeTop f rest).1.resumed signal g) ∧ ∃ n', counters? id w' = some n' ∧
      n'.handled = n.handled ∧
      ends n' + owed id ((t.resumeTop f rest).1.resumed signal g) + (if misses f then 1 else 0) =
        ends n + owed id t := by
  have due : Fitting id f true := by
    have top := h.top f (by simp [frames])
    rw [stage] at top
    exact top
  cases due with
  | other _ foreign => cases own.symm.trans foreign
  | unbegun name op generator result running =>
    have owing : owes id f = true := by simp [owes, own, generator, isOver]
    by_cases pending : f.mark = .pending
    · have forced : f.input = .forcedReturn := by simp [Frame.input, pending]
      rw [generator, forced, runAsks_unbegun_return] at ran
      cases ran
      have missed : misses f = true := by simp [misses, pending, generator, isUnbegun]
      obtain ⟨tended, owed⟩ := h.finish stage frames (.ok .null) name
      refine ⟨tended, n, counted, rfl, ?_⟩
      rw [owing] at owed
      rw [missed]
      omega
    · have started : f.input = .next .null := by simp [Frame.input, pending, result, Resume.deliver]
      rw [generator, started, runAsks_unbegun_next] at ran
      cases ran
      have begins : misses f = false := by simp [misses, pending]
      obtain ⟨tended, owed⟩ := h.begin stage frames pending running (by simp [generator, isOver])
        (.operation (.next op)) name
      refine ⟨tended, n, counted, rfl, ?_⟩
      rw [begins, owed]
      rfl
  | begun _ name generator running =>
    have owing : owes id f = true := by simp [owes, own, generator, isOver]
    rw [generator, runAsks_begun] at ran
    cases ran
    have begins : misses f = false := by simp [misses, generator, isUnbegun]
    obtain ⟨tended, owed⟩ := h.finish stage frames f.input.outcome name
    refine ⟨tended, _, counters?_counting counted _, handled_ended _ n, ?_⟩
    rw [owing] at owed
    rw [begins, ends_ended]
    simp only [Bool.false_eq_true, if_true, if_false] at owed ⊢
    omega
  | ended _ name generator =>
    have paid : owes id f = false := by simp [owes, generator, isOver]
    obtain ⟨outcome, ends⟩ := Batch.runAsks_finished (c := c) (w := w) name f.input
    rw [generator, ends] at ran
    cases ran
    have begins : misses f = false := by simp [misses, generator, isUnbegun]
    obtain ⟨tended, owed⟩ := h.finish stage frames outcome name
    refine ⟨tended, n, counted, rfl, ?_⟩
    rw [paid] at owed
    rw [begins]
    simp only [Bool.false_eq_true, if_false] at owed ⊢
    omega

/-- A handler frame that is replaced has its generator resumed for its return, and is let go. -/
theorem retire (h : Tended id t) {inner : T.sig.Operation} {origin : Option (HandlerSlot T.sig.Mw)}
    {p : Purpose} (stage : t.stage = .retiring f inner origin p) (own : serves id f.slot = true)
    {signal : T.sig.Signal} {g : T.sig.Gen}
    (ran : w.runAsks (c.resumeGen f.generator .forcedReturn) = (.done (signal, g), w'))
    (counted : counters? id w = some n) :
    Tended id (t.retired signal) ∧ ∃ n', counters? id w' = some n' ∧ n'.handled = n.handled ∧
      ends n' + owed id (t.retired signal) = ends n + owed id t := by
  have due : Fitting id f false := h.replaced f (by rw [stage]; rfl)
  have replaced : t.stage.replacedFrame? = some f := by rw [stage]; rfl
  have frames : (t.retired signal).frames = t.frames ∧
      (t.retired signal).stage.replacedFrame? = none ∧ (t.retired signal).stage ≠ .resuming := by
    simp only [Task.retired, stage]
    split <;> exact ⟨rfl, rfl, by rintro ⟨⟩⟩
  obtain ⟨frames, plain, resting⟩ := frames
  have tended : Tended id (t.retired signal) := by
    refine ⟨fun f hf => ?_, frames ▸ h.below, stands_of_none plain, fun s => absurd s resting⟩
    have top := h.top f (frames ▸ hf)
    rw [stage] at top
    exact top.weaken _
  have paid : owed id t = owed id (t.retired signal) + if owes id f then 1 else 0 := by
    rw [owed_of_replaced replaced, owed_of_replaced plain, frames]
    simp [List.countP_cons]
  refine ⟨tended, ?_⟩
  cases due with
  | other _ foreign => cases own.symm.trans foreign
  | begun _ name generator running =>
    have owing : owes id f = true := by simp [owes, own, generator, isOver]
    rw [generator, runAsks_begun] at ran
    cases ran
    refine ⟨_, counters?_counting counted _, handled_ended _ n, ?_⟩
    rw [paid, owing, ends_ended]
    simp only [if_true]
    omega
  | ended _ name generator =>
    have settled : owes id f = false := by simp [owes, generator, isOver]
    obtain ⟨outcome, ends⟩ := Batch.runAsks_finished (c := c) (w := w) name .forcedReturn
    rw [generator, ends] at ran
    cases ran
    refine ⟨n, counted, rfl, ?_⟩
    rw [paid, settled]
    simp

end Tended

end Own

end Metrics

/-! ### Tasks and the counters together -/

/-- A world with the tasks that run in it, and how many handlers of a metrics middleware had to
return before they began. -/
structure Tally (T : ClientSig) where
  world : World T.sig
  tasks : List T.sig.Task
  unbegun : Nat

namespace Tally

open Metrics

variable {T : ClientSig} (c : Client T) (registry : Registry T.sig.Mw) (id : CountersId)

/-- Nothing has been counted and no task has started. -/
structure Opens (s : Tally T) : Prop where
  counters : counters? id s.world = some ⟨0, 0, 0, 0⟩
  tasks : s.tasks = []
  unbegun : s.unbegun = 0

/-- Anything that happens to the tasks and to the counters of a metrics middleware. -/
inductive Step (s : Tally T) : Tally T → Prop
  | spawn (task : TaskId) (root : T.sig.Yielded) :
    Step s ⟨s.world, s.tasks ++ [.fresh task root], s.unbegun⟩
  /-- The counters are those of the middleware alone. -/
  | elsewhere (w : World T.sig) (same : counters? id w = counters? id s.world) :
    Step s ⟨w, s.tasks, s.unbegun⟩
  | foreign (before after : List T.sig.Task) (t : T.sig.Task) (i : Impulse T.sig.Gen T.sig.Fn)
    (tasks : s.tasks = before ++ t :: after) (foreign : Foreign id t i) :
    Step s ⟨s.world, before ++ t.take registry i :: after, s.unbegun⟩
  /-- The middleware handles an operation. -/
  | handle (before after : List T.sig.Task) (t : T.sig.Task) (op : T.sig.Operation)
    (slot : HandlerSlot T.sig.Mw) (p : Purpose) (ctx : ContextId) (result : Except Error T.sig.Gen)
    (w : World T.sig) (tasks : s.tasks = before ++ t :: after)
    (stage : t.stage = .handling op slot p) (own : serves (T := T) id (some slot) = true)
    (ran : s.world.runSync (c.handleMw (.metrics id) op ctx) = (.ok result, w)) :
    Step s ⟨w, before ++ t.handled result :: after, s.unbegun⟩
  /-- The generator of a handler frame is resumed, and answers. -/
  | resume (before after : List T.sig.Task) (t : T.sig.Task) (f : TaskFrame T)
    (rest : List (TaskFrame T)) (signal : T.sig.Signal) (g : T.sig.Gen) (w : World T.sig)
    (tasks : s.tasks = before ++ t :: after) (stage : t.stage = .ready)
    (frames : t.frames = f :: rest) (own : serves id f.slot = true)
    (ran : s.world.runAsks (c.resumeGen f.generator f.input) = (.done (signal, g), w)) :
    Step s ⟨w, before ++ (t.resumeTop f rest).1.resumed signal g :: after,
      s.unbegun + if misses f then 1 else 0⟩
  /-- The generator of a handler frame that is replaced is resumed for its return. -/
  | retire (before after : List T.sig.Task) (t : T.sig.Task) (f : TaskFrame T)
    (inner : T.sig.Operation) (origin : Option (HandlerSlot T.sig.Mw)) (p : Purpose)
    (signal : T.sig.Signal) (g : T.sig.Gen) (w : World T.sig)
    (tasks : s.tasks = before ++ t :: after) (stage : t.stage = .retiring f inner origin p)
    (own : serves id f.slot = true)
    (ran : s.world.runAsks (c.resumeGen f.generator .forcedReturn) = (.done (signal, g), w)) :
    Step s ⟨w, before ++ t.retired signal :: after, s.unbegun⟩

/-- What has been handled has had its end counted, owes that, or never began. -/
structure Balanced (s : Tally T) : Prop where
  tended : ∀ t ∈ s.tasks, t.Coherent ∧ Tended id t
  counted : ∃ n, counters? id s.world = some n ∧
    n.handled = ends n + s.unbegun + (s.tasks.map (owed id)).sum

variable {c registry id} {s s' : Tally T}

theorem Balanced.of_opens (h : s.Opens id) : s.Balanced id := by
  refine ⟨by simp [h.tasks], _, h.counters, ?_⟩
  simp [h.tasks, h.unbegun, ends]

/-- A task that goes on keeps the balance if what it owes changes as the counters do. -/
theorem Balanced.update (h : s.Balanced id) {before after : List T.sig.Task} {t t' : T.sig.Task}
    {w : World T.sig} {unbegun : Nat} (tasks : s.tasks = before ++ t :: after)
    (coherent : t'.Coherent) (tended : Tended id t')
    (counted : ∀ n, counters? id s.world = some n → ∃ n', counters? id w = some n' ∧
      n'.handled + (ends n + s.unbegun + owed id t) =
        n.handled + (ends n' + unbegun + owed id t')) :
    Balanced id ⟨w, before ++ t' :: after, unbegun⟩ := by
  obtain ⟨all, n, holds, balance⟩ := h
  obtain ⟨n', holds', changes⟩ := counted n holds
  rw [tasks] at all balance
  refine ⟨?_, n', holds', ?_⟩
  · intro u hu
    rcases List.mem_append.1 hu with hu | hu
    · exact all u (List.mem_append_left _ hu)
    · rcases List.mem_cons.1 hu with rfl | hu
      · exact ⟨coherent, tended⟩
      · exact all u (List.mem_append_right _ (List.mem_cons_of_mem _ hu))
  · simp only [List.map_append, List.map_cons, List.sum_append, List.sum_cons] at balance ⊢
    omega

theorem Balanced.step (h : s.Balanced id) (step : Step c registry id s s') : s'.Balanced id := by
  have known {before after : List T.sig.Task} {t : T.sig.Task}
      (tasks : s.tasks = before ++ t :: after) : t.Coherent ∧ Tended id t :=
    h.tended t (by simp [tasks])
  have goesOn {t : T.sig.Task} (coherent : t.Coherent) (i : Impulse T.sig.Gen T.sig.Fn) :
      (t.take registry i).Coherent := coherent.take i
  cases step with
  | spawn task root =>
    obtain ⟨all, n, holds, balance⟩ := h
    refine ⟨?_, n, holds, ?_⟩
    · intro u hu
      rcases List.mem_append.1 hu with hu | hu
      · exact all u hu
      · obtain rfl := List.mem_singleton.1 hu
        exact ⟨Task.coherent_fresh task root, stands_of_none rfl, List.forall_mem_nil _,
          stands_of_none rfl, by rintro ⟨⟩⟩
    · simp only [List.map_append, List.sum_append]
      exact balance
  | elsewhere w same =>
    obtain ⟨all, n, holds, balance⟩ := h
    exact ⟨all, n, same.trans holds, balance⟩
  | foreign before after t i tasks foreign =>
    obtain ⟨coherent, tended⟩ := known tasks
    obtain ⟨tended', owed⟩ := tended.take coherent registry foreign
    refine h.update tasks (goesOn coherent i) tended' fun n holds => ⟨n, holds, ?_⟩
    rw [owed]
  | handle before after t op slot p ctx result w tasks stage own ran =>
    obtain ⟨coherent, tended⟩ := known tasks
    rw [runSync_handle] at ran
    cases ran
    obtain ⟨tended', owed⟩ := tended.handle op stage own
    have coherent' := goesOn coherent (.handled (.ok (.ofOpening (.metrics id op))))
    refine h.update tasks coherent' tended' fun n holds =>
      ⟨_, counters?_counting holds handled, ?_⟩
    rw [owed]
    simp only [handled, ends]
    omega
  | resume before after t f rest signal g w tasks stage frames own ran =>
    obtain ⟨coherent, tended⟩ := known tasks
    have resuming : (t.resumeTop f rest).1.Coherent := .of_resuming (.inr rfl)
    have coherent' := goesOn resuming (.resumed signal g)
    obtain ⟨n, holds, -⟩ := h.counted
    obtain ⟨tended', -⟩ := tended.resume stage frames own ran holds
    refine h.update tasks coherent' tended' fun n holds => ?_
    obtain ⟨-, n', holds', handled, balance⟩ := tended.resume stage frames own ran holds
    exact ⟨n', holds', by omega⟩
  | retire before after t f inner origin p signal g w tasks stage own ran =>
    obtain ⟨coherent, tended⟩ := known tasks
    have coherent' := goesOn coherent (.resumed signal g)
    simp only [Task.take, stage] at coherent'
    obtain ⟨n, holds, -⟩ := h.counted
    obtain ⟨tended', -⟩ := tended.retire stage own ran holds
    refine h.update tasks coherent' tended' fun n holds => ?_
    obtain ⟨-, n', holds', handled, balance⟩ := tended.retire stage own ran holds
    exact ⟨n', holds', by omega⟩

theorem Balanced.run (h : s.Balanced id) (run : Relation.ReflTransGen (Step c registry id) s s') :
    s'.Balanced id := by
  induction run with
  | refl => exact h
  | tail _ step ih => exact ih.step step

/-- A task that has settled owes nothing. -/
theorem owed_settled {t : T.sig.Task} (coherent : t.Coherent) (settled : t.isSettled = true) :
    owed id t = 0 := by
  obtain ⟨outcome, stage⟩ := Task.isSettled_iff.1 settled
  rw [owed, coherent.settled outcome stage, stage]
  rfl

/-- Once all tasks have settled, of the operations that a metrics middleware has handled just those
are missing from the ones it counts as succeeded, failed or cancelled whose handlers had to return
before they began. -/
theorem handled_eq_ended_add_unbegun (opens : s.Opens id)
    (run : Relation.ReflTransGen (Step c registry id) s s')
    (settled : ∀ t ∈ s'.tasks, t.isSettled = true) :
    ∃ n, counters? id s'.world = some n ∧
      n.handled = n.succeeded + n.failed + n.cancelled + s'.unbegun := by
  obtain ⟨all, n, holds, balance⟩ := (Balanced.of_opens opens).run run
  have paid : (s'.tasks.map (owed id)).sum = 0 := by
    refine List.sum_eq_zero_iff_forall_eq_nat.2 fun k hk => ?_
    obtain ⟨t, ht, rfl⟩ := List.mem_map.1 hk
    exact owed_settled (all t ht).1 (settled t ht)
  exact ⟨n, holds, by rw [balance, paid]; rfl⟩

section Examples

open Script

def openingWorld : World scriptSig.sig :=
  .start 0 { Shared.start Session.empty with counters := #[⟨0, 0, 0, 0⟩] } false

def countingWork : Registry scriptSig.sig.Mw := ⟨[⟨"work", .metrics ⟨0⟩⟩]⟩

/-- A task is cancelled when the handler of its operation has been made and has not begun. -/
theorem handled_eq_ended_add_unbegun_cancelling :
    ∃ s s' : Tally scriptSig, s.Opens ⟨0⟩ ∧
      Relation.ReflTransGen (Step scriptClient countingWork ⟨0⟩) s s' ∧
      (∀ t ∈ s'.tasks, t.isSettled = true) ∧ s'.unbegun = 1 ∧
      ∃ n, counters? ⟨0⟩ s'.world = some n ∧
        n.handled = n.succeeded + n.failed + n.cancelled + s'.unbegun := by
  let t₀ : scriptSig.sig.Task := .fresh ⟨0, 0⟩ (.operation (.custom "work" .null))
  let offered : scriptSig.sig.Task := (t₀.take countingWork .move).take countingWork .move
  let taken : scriptSig.sig.Task := offered.take countingWork (.filtered true)
  let handler : scriptSig.sig.Gen := .ofOpening (.metrics ⟨0⟩ (.custom "work" .null))
  let pushed : scriptSig.sig.Task := taken.handled (.ok handler)
  let stopped : scriptSig.sig.Task := (pushed.take countingWork .move).take countingWork .cancel
  have opens : Opens ⟨0⟩ (⟨openingWorld, [], 0⟩ : Tally scriptSig) := ⟨rfl, rfl, rfl⟩
  have run : Relation.ReflTransGen (Step scriptClient countingWork ⟨0⟩)
      (⟨openingWorld, [], 0⟩ : Tally scriptSig) _ :=
    (((((((((Relation.ReflTransGen.refl.tail
      (.spawn ⟨0, 0⟩ (.operation (.custom "work" .null)))).tail
      (.foreign [] [] t₀ .move rfl nofun)).tail
      (.foreign [] [] (t₀.take countingWork .move) .move rfl nofun)).tail
      (.foreign [] [] offered (.filtered true) rfl trivial)).tail
      (.handle [] [] taken _ _ .yielded ⟨0⟩ _ _ rfl rfl rfl rfl)).tail
      (.foreign [] [] pushed .move rfl nofun)).tail
      (.foreign [] [] (pushed.take countingWork .move) .cancel rfl trivial)).tail
      (.resume [] [] stopped _ [] _ _ _ rfl rfl rfl rfl rfl)).tail
      (.foreign [] [] _ .move rfl nofun)).tail
      (.foreign [] [] _ .move rfl nofun)
  refine ⟨_, _, opens, run, ?_, rfl, handled_eq_ended_add_unbegun opens run ?_⟩ <;>
  · intro t ht
    obtain rfl := List.mem_singleton.1 ht
    rfl

/-- The handler of a call in a body's cleanup begins only after the cancellation. -/
def cleaningUp : Program where
  tag := 0
  config := ⟨false⟩
  functions := [
    ⟨"after", .plain "after" (.body [.leave (.int 1)])⟩,
    ⟨"work", .plain "work" (.body [
      .ensure [.yield none (.op (.wrap .terminal (.call "after" [])))] [.sleep (.int 10)]])⟩,
    ⟨"outer", .plain "outer" (.body [.yield none (.op (.call "work" []))])⟩]
  setup := [.middleware ⟨callKind, .metrics "m"⟩]
  main := [.spawn (some "t") (.op (.call "outer" [])) none, .sleep (.int 5), .cancel (.var "t")]

/-- The world in which the program has nothing more to do. -/
def cleanedUp : World scriptSig.sig :=
  (World.step cleaningUp.builder.host)^[63]
    (cleaningUp.world.addMain (bodyCode cleaningUp.main Scope.empty).withoutSuspend)

/-- The clean-up calls `after` in place of the frame that is cancelled, and the handler of that call
is made to return before it begins: three operations have been handled and two have ended, although
all tasks have settled and no thread has panicked. -/
theorem loses_unbegun_handler :
    cleanedUp.canMove = false ∧ (∀ t ∈ cleanedUp.tasks.toList, t.1.isSettled = true) ∧
      (∀ th ∈ cleanedUp.threads.toList, th.fate.any
        fun | .ended _ => true
            | .crashed _ => false) ∧
      ∃ n, counters? ⟨0⟩ cleanedUp = some n ∧
        n.handled ≠ n.succeeded + n.failed + n.cancelled := by
  refine ⟨by decide +kernel, by decide +kernel, by decide +kernel, ⟨3, 0, 0, 2⟩, ?_, by decide⟩
  decide +kernel

end Examples

end Tally

end EffectEngine
