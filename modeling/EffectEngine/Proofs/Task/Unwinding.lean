import EffectEngine.Proofs.Task.Dispatch
import EffectEngine.Proofs.Task.Turn
import Mathlib.Algebra.GroupWithZero.Nat

/-!
# Unwinding completed frames

A task whose top frame has completed unwinds: it dispatches the deferred operations of the completed
frames on top, pops each of them that has none left, and stops at a running frame, at the end of the
stack or with a frame that a deferred operation has pushed. `Task.toil` is what lies before it: the
completed frames on top, and the layers of the operations deferred on them or being dispatched.
Each round takes something off it, and each move or answer within a round lowers `Task.burden`,
which also counts what is left of the chain that an operation is offered to. `Run.Trimmed` says
which frames are left meanwhile.
-/

namespace EffectEngine

variable {G F M : Type}

/-! ### What is awaited -/

/-- Whether completed frames are being unwound: the top one is about to be looked at, or one of its
deferred operations is dispatched. -/
def Stage.unwinds : Stage G F M → Bool
  | .unwinding => true
  | s => s.purpose?.any Purpose.shields

theorem Purpose.shields_iff {p : Purpose} :
    p.shields = true ↔ ∃ level prior, p = .deferred level prior := by
  cases p <;> simp [shields]

theorem Stage.unwinds_iff {s : Stage G F M} :
    s.unwinds = true ↔
      s = .unwinding ∨ ∃ level prior, s.purpose? = some (.deferred level prior) := by
  cases s <;> simp [Stage.unwinds, Purpose.shields_iff, Stage.purpose?, Stage.underway?]

theorem Stage.unwinds_eq_shields {s : Stage G F M} {p : Purpose} (h : s.purpose? = some p) :
    s.unwinds = p.shields := by
  cases s <;> simp_all [Stage.unwinds, Stage.purpose?, Stage.underway?]

def Impulse.isCancel : Impulse G F → Bool
  | cancel => true
  | _ => false

/-- A round of an unwinding begins: the top frame is popped or has an operation dispatched. -/
def StackEvent.isRound : StackEvent G F → Bool
  | popped _ | undertaken _ => true
  | _ => false

def StackEvent.isPop : StackEvent G F → Bool
  | popped _ => true
  | _ => false

def StackEvent.isPush : StackEvent G F → Bool
  | pushed _ => true
  | _ => false

namespace Task

/-- What an unwinding can go on with. -/
def expects (t : Task G F M) (i : Impulse G F) : Bool :=
  t.stage.unwinds && match t.stage, i with
    | .unwinding, .move | .unwinding, .cancel => true
    | .dispatched .., .move | .dispatched .., .cancel => true
    | _, i => t.awaits i

/-- The impulses come one after another to a task that unwinds, each when it can go on with it. -/
def unwindsWith [Named G] (registry : Registry M) (t : Task G F M) : List (Impulse G F) → Bool
  | [] => true
  | i :: rest => t.expects i && (t.take registry i).unwindsWith registry rest

end Task

/-! ### What lies before an unwinding -/

/-- The number of layers of an operation, its own included. -/
def Operation.size (op : Operation G F) : Nat := op.kinds.length

/-- The total size of the operations deferred on a frame. -/
def Frame.owed (f : Frame G F M) : Nat := (f.defers.map Operation.size).sum

/-- The completed frames on top of a stack, and the operations deferred on them. -/
def toilOf : List (Frame G F M) → Nat
  | [] => 0
  | f :: rest => if f.completed then f.owed + 1 + toilOf rest else 0

/-- The layers inside the operation that is being dispatched. -/
def Stage.inside : Stage G F M → Nat
  | dispatching (.operation op) _ _ | offering op _ _ _ => op.size - 1
  | _ => 0

/-- The number of moves and answers that the layer being dispatched can still take, if no chain is
longer than `c`. -/
def Stage.patience (c : Nat) : Stage G F M → Nat
  | dispatching (.generator _) _ _ => c + 5
  | dispatching (.operation _) _ _ => c + 4
  | offering _ slot _ _ => slot.rest.length + 3
  | handling .. | invoking _ | forking _ => 2
  | dispatched .. => 1
  | _ => 0

/-- The slot whose chain `next` continues. -/
def Stage.origin? : Stage G F M → Option (HandlerSlot M)
  | dispatching _ origin _ | offering _ _ origin _ | replacing _ _ origin _ | retiring _ _ origin _
  | reporting _ _ origin _ => origin
  | _ => none

namespace Task

def toil (t : Task G F M) : Nat := toilOf t.frames + t.stage.inside

/-- A bound on the moves and answers that an unwinding can still take, if no chain is longer than
`c`. -/
def burden (c : Nat) (t : Task G F M) : Nat := (c + 6) * t.toil + t.stage.patience c

end Task

theorem Operation.size_pos (op : Operation G F) : 0 < op.size := by
  cases op <;> exact Nat.zero_lt_succ _

section Toil

variable {f : Frame G F M} {rest frames frames' : List (Frame G F M)}

theorem toilOf_running (h : f.completed = false) : toilOf (f :: rest) = 0 := by
  simp [toilOf, h]

theorem toilOf_completed (h : f.completed = true) :
    toilOf (f :: rest) = f.owed + 1 + toilOf rest := by simp [toilOf, h]

theorem toilOf_congr
    (h : frames'.map (fun f => (f.completed, f.defers)) =
      frames.map fun f => (f.completed, f.defers)) : toilOf frames' = toilOf frames := by
  induction frames generalizing frames' with
  | nil => rw [List.map_eq_nil_iff.1 h]
  | cons f rest ih =>
    obtain ⟨f', rest', rfl, same, below⟩ := List.map_eq_cons_iff.1 h
    obtain ⟨completed, defers⟩ := Prod.mk.inj same
    simp only [toilOf, completed, Frame.owed, defers, ih below]

theorem toilOf_le (frames : List (Frame G F M)) :
    toilOf frames ≤ frames.length + (frames.map Frame.owed).sum := by
  induction frames with
  | nil => exact Nat.le_refl 0
  | cons f rest ih =>
    simp only [toilOf, List.length_cons, List.map_cons, List.sum_cons]
    split <;> omega

end Toil

namespace Task

variable {c : Nat} {t u : Task G F M} {rounds : Nat}

/-- From `t` to `u`, the task has gone through so many rounds, and has come nearer to the end of its
unwinding. -/
structure Lightens (c : Nat) (t u : Task G F M) (rounds : Nat) : Prop where
  toil : rounds + u.toil ≤ t.toil
  less : u.toil < t.toil ∧ u.stage.patience c ≤ c + 5 ∨
    u.stage.patience c < t.stage.patience c

theorem Lightens.burden_lt (h : t.Lightens c u rounds) : u.burden c < t.burden c := by
  unfold burden
  rcases h.less with ⟨less, patience⟩ | less
  · have scaled := Nat.mul_le_mul_left (c + 6) (Nat.succ_le_of_lt less)
    rw [Nat.mul_succ] at scaled
    omega
  · have toil : u.toil ≤ t.toil := Nat.le_trans (Nat.le_add_left ..) h.toil
    have scaled := Nat.mul_le_mul_left (c + 6) toil
    omega

/-- Nothing that counts has changed about the frames. -/
theorem Lightens.of_same
    (same : u.frames.map (fun f => (f.completed, f.defers)) =
      t.frames.map fun f => (f.completed, f.defers))
    (inside : u.stage.inside ≤ t.stage.inside)
    (patience : u.stage.patience c < t.stage.patience c) : t.Lightens c u 0 := by
  refine ⟨?_, .inr patience⟩
  rw [Nat.zero_add, Task.toil, toilOf_congr same]
  exact Nat.add_le_add_left inside _

/-- The dispatch goes on with the same frames. -/
theorem Lightens.of_become {s : Stage G F M} (inside : s.inside ≤ t.stage.inside)
    (patience : s.patience c < t.stage.patience c) : t.Lightens c (t.become s) 0 :=
  .of_same rfl inside patience

/-- The dispatch ends with a frame that now runs. -/
theorem Lightens.of_push (g : G) (name : String) (slot : Option (HandlerSlot M)) (p : Purpose)
    (patience : 1 < t.stage.patience c) : t.Lightens c (t.push g name slot p) 0 := by
  have none : (t.push g name slot p).toil = 0 := by
    simp only [Task.toil, push, toilOf_running, Stage.inside]
  exact ⟨by rw [none]; exact Nat.zero_le _, .inr patience⟩

/-- No chain that the dispatch under way can enter is longer than `c`. -/
structure Spans (registry : Registry M) (c : Nat) (t : Task G F M) : Prop where
  registry : registry.registrations.length ≤ c
  origin : ∀ slot, t.stage.origin? = some slot → slot.handlers.length ≤ c

section Steps

variable [Named G] {registry : Registry M} {p : Purpose} {op : Operation G F}
  {origin : Option (HandlerSlot M)} {slot : HandlerSlot M}

/-- The built-in handling of an operation deferred by a completed frame. -/
theorem lightens_core (stage : t.stage = .offering op slot origin p) (fits : p.Fits t.frames)
    (shields : p.shields = true) : t.Lightens c (t.core op origin p).1 0 := by
  have inside : t.stage.inside = op.size - 1 := by rw [stage]; rfl
  have patience : 3 ≤ t.stage.patience c := by rw [stage]; exact Nat.le_add_left 3 _
  have ends {s : Stage G F M} (none : s.inside = 0) (short : s.patience c ≤ 2) :
      t.Lightens c (t.become s) 0 := by
    refine .of_become ?_ ?_ <;> omega
  obtain ⟨f, rest, frames, completed⟩ :
      ∃ f rest, t.frames = f :: rest ∧ f.completed = true := by
    cases p with
    | yielded => cases shields
    | deferred =>
      obtain ⟨f, rest, frames, completed, -⟩ := fits
      exact ⟨f, rest, frames, completed⟩
  cases op with
  | call | fork => exact ends rfl (Nat.le_refl 2)
  | next | custom => exact ends rfl (Nat.le_succ 1)
  | execute g => exact .of_push g _ none p (by omega)
  | start inner =>
    have more : (Operation.start inner : Operation G F).size = inner.size + 1 := rfl
    have positive := inner.size_pos
    have less : inner.size - 1 < t.stage.inside := by omega
    refine ⟨?_, .inl ⟨?_, Nat.le_succ _⟩⟩
    · rw [Nat.zero_add]
      exact Nat.add_le_add_left (Nat.le_of_lt less) _
    · exact Nat.add_lt_add_left less _
  | recover =>
    have short : 1 < t.stage.patience c := Nat.lt_of_succ_lt patience
    exact .of_same (map_recover fun _ _ => rfl) (Nat.zero_le _) short
  | terminal inner =>
    simp only [core, frames, completed, if_true]
    split <;> exact ends rfl (Nat.le_succ 1)
  | defer inner =>
    have more : (Operation.defer inner : Operation G F).size = inner.size + 1 := rfl
    have before : toilOf t.frames = f.owed + 1 + toilOf rest := by
      rw [frames, toilOf_completed completed]
    have core : (t.core (.defer inner) origin p).1 = { t with
        frames := { f with defers := inner :: f.defers } :: rest
        stage := .dispatched (.ok ()) p } := by simp only [Task.core, frames]
    have after : (t.core (.defer inner) origin p).1.toil =
        inner.size + f.owed + 1 + toilOf rest := by
      rw [core]
      simp only [Task.toil, toilOf, completed, if_true, Frame.owed, List.map_cons,
        List.sum_cons, Stage.inside, Nat.add_zero]
    refine ⟨?_, .inr ?_⟩
    · rw [after, Task.toil]
      omega
    · rw [core]
      exact Nat.lt_of_succ_lt patience

omit [Named G] in
theorem size_of_entry {op' : Operation G F} (entry : registry.entry origin op = .ok (op', slot)) :
    op'.size ≤ op.size := by
  cases op with
  | next inner =>
    cases origin with
    | none => cases entry
    | some place =>
      simp only [Registry.entry] at entry
      split at entry
      · obtain ⟨rfl, -⟩ := Prod.mk.inj (Except.ok.inj entry)
        exact Nat.le_succ _
      · cases entry
  | call | execute | fork | defer | recover | terminal | start | custom =>
    obtain ⟨rfl, -⟩ := Prod.mk.inj (Except.ok.inj entry)
    exact Nat.le_refl _

omit [Named G] in
theorem length_of_entry {op' : Operation G F}
    (entry : registry.entry origin op = .ok (op', slot))
    (chains : registry.registrations.length ≤ c)
    (places : ∀ slot, origin = some slot → slot.handlers.length ≤ c) :
    slot.rest.length ≤ c := by
  rw [HandlerSlot.rest, List.length_drop]
  refine Nat.le_trans (Nat.sub_le ..) ?_
  have chain (kind : String) : (registry.handlers kind).length ≤ c := by
    rw [Registry.handlers, List.length_map]
    exact Nat.le_trans (List.length_filter_le ..) chains
  cases op with
  | next inner =>
    cases origin with
    | none => cases entry
    | some place =>
      simp only [Registry.entry] at entry
      split at entry
      · obtain ⟨-, rfl⟩ := Prod.mk.inj (Except.ok.inj entry)
        exact places place rfl
      · cases entry
  | call | execute | fork | defer | recover | terminal | start | custom =>
    obtain ⟨-, rfl⟩ := Prod.mk.inj (Except.ok.inj entry)
    exact chain _

theorem lightens_dispatch {y : Yielded G F} (stage : t.stage = .dispatching y origin p)
    (spans : t.Spans registry c) : t.Lightens c (t.dispatch registry y origin p) 0 := by
  have patience : c + 4 ≤ t.stage.patience c := by
    rw [stage]
    cases y
    · exact Nat.le_refl _
    · exact Nat.le_succ _
  cases y with
  | generator g =>
    simp only [dispatch]
    split
    · refine .of_become (Nat.zero_le _) ?_
      rw [stage]
      exact Nat.lt_succ_self _
    · exact .of_push g _ none p (by omega)
  | operation op =>
    cases entry : registry.entry origin op with
    | error e =>
      rw [dispatch_of_error entry]
      have short : 1 < t.stage.patience c := by omega
      exact .of_become (Nat.zero_le _) short
    | ok first =>
      obtain ⟨op', slot⟩ := first
      rw [dispatch_of_entry entry]
      have inside : op'.size - 1 ≤ op.size - 1 := Nat.sub_le_sub_right (size_of_entry entry) 1
      have length : slot.rest.length ≤ c := by
        refine length_of_entry entry spans.registry fun slot place => spans.origin slot ?_
        rw [stage]
        exact place
      refine .of_become ?_ (Nat.lt_of_lt_of_le ?_ patience)
      · rw [stage]
        exact inside
      · exact Nat.add_lt_add_of_le_of_lt length (Nat.lt_succ_self 3)

omit [Named G] in
theorem stage_handDown (outcome : Outcome) (rest : List (Frame G F M)) :
    (t.handDown outcome rest).stage = .unwinding ∨ (t.handDown outcome rest).stage = .ready := by
  unfold handDown
  split
  · exact .inr rfl
  · dsimp only
    split
    · exact .inl rfl
    · exact .inr rfl

omit [Named G] in
theorem toil_handDown (outcome : Outcome) (rest : List (Frame G F M)) :
    (t.handDown outcome rest).toil = toilOf rest := by
  have frames := toilOf_congr (map_handDown (t := t) (fun _ _ => rfl) outcome rest)
  rcases stage_handDown (t := t) outcome rest with stage | stage <;>
    rw [Task.toil, stage, frames] <;> rfl

omit [Named G] in
theorem lightens_unwind (h : t.Coherent) (stage : t.stage = .unwinding) :
    t.Lightens c t.unwind 1 := by
  obtain ⟨f, rest, frames, completed⟩ := h.unwinding stage
  have before : t.toil = f.owed + 1 + toilOf rest := by
    rw [Task.toil, frames, toilOf_completed completed, stage]
    rfl
  have lightens {u : Task G F M} (after : 1 + u.toil ≤ t.toil)
      (patience : u.stage.patience c ≤ c + 5) : t.Lightens c u 1 :=
    ⟨after, .inl ⟨by omega, patience⟩⟩
  cases defers : f.defers with
  | nil =>
    have popped : t.unwind = t.handDown f.result rest := by simp only [unwind, frames, defers]
    rw [popped]
    refine lightens ?_ ?_
    · rw [toil_handDown]
      omega
    · rcases stage_handDown (t := t) f.result rest with stage | stage <;>
        rw [stage] <;> exact Nat.zero_le _
  | cons op ops =>
    have owed : f.owed = op.size + (ops.map Operation.size).sum := by
      rw [Frame.owed, defers, List.map_cons, List.sum_cons]
    have after : t.unwind.toil =
        (ops.map Operation.size).sum + 1 + toilOf rest + (op.size - 1) := by
      simp only [unwind, frames, defers, Task.toil, toilOf, completed, if_true,
        Frame.owed, Stage.inside]
    have positive := op.size_pos
    refine lightens ?_ ?_
    · rw [after]
      omega
    · simp only [unwind, frames, defers]
      exact Nat.le_succ _

omit [Named G] in
/-- The outcome of the frame that registered the operation is put back. -/
theorem lightens_conclude {result : Except Error Unit} {level : Nat} {prior : Outcome}
    (stage : t.stage = .dispatched result (.deferred level prior)) :
    t.Lightens c (t.conclude result (.deferred level prior)) 0 := by
  have idle : (t.conclude result (.deferred level prior)).stage.inside = 0 ∧
      (t.conclude result (.deferred level prior)).stage.patience c = 0 := by
    simp only [conclude]
    split <;> exact ⟨rfl, rfl⟩
  refine .of_same ?_ (by omega) ?_
  · exact map_atLevel (by intros; rfl) level _
  · rw [idle.2, stage]
    exact Nat.zero_lt_one

/-- A round begins with each move of a task that looks at its top frame, and with no other. -/
theorem countP_isRound_of_unwinding (h : t.Coherent) (stage : t.stage = .unwinding) :
    (t.observe registry .move).countP StackEvent.isRound = 1 := by
  obtain ⟨f, rest, frames, -⟩ := h.unwinding stage
  have unasked : (t.demand registry .move).input? = none := by
    simp only [demand, step, stage, Request.input?]
  rw [observe_of_unasked unasked]
  simp only [take, step, stage, unwind, frames]
  cases f.defers with
  | cons op ops => simp [changes, transitions, stage, frames, StackEvent.isRound]
  | nil =>
    rw [changes_handDown frames]
    split <;> rfl

theorem countP_isRound_eq_zero (h : t.Coherent) (other : t.stage ≠ .unwinding)
    (i : Impulse G F) : (t.observe registry i).countP StackEvent.isRound = 0 := by
  have turn : Turn t (t.observe registry i) (t.take registry i) := turn_take h i
  generalize t.observe registry i = es, t.take registry i = t' at turn
  cases turn <;> first | rfl | contradiction

omit [Named G] in
/-- A middleware that declines shortens the chain. -/
theorem lightens_filtered (stage : t.stage = .offering op slot origin p) {m : M}
    (serves : slot.handler? = some m) (accepts : Bool) : t.Lightens c (t.filtered accepts) 0 := by
  have listed : slot.index < slot.handlers.length := (List.getElem?_eq_some_iff.1 serves).1
  simp only [filtered, stage]
  cases accepts with
  | true =>
    refine .of_become (Nat.zero_le _) ?_
    rw [stage]
    exact Nat.le_add_left 3 _
  | false =>
    have shorter : slot.succ.rest.length < slot.rest.length := by
      simp only [HandlerSlot.rest, HandlerSlot.succ, List.length_drop]
      omega
    refine .of_become ?_ ?_ <;> rw [stage]
    · exact Nat.le_refl _
    · exact Nat.add_lt_add_right shorter 3

/-- Whatever an unwinding goes on with brings it nearer to its end. -/
theorem lightens_take (h : t.Coherent) (spans : t.Spans registry c) {i : Impulse G F}
    (expected : t.expects i = true) (other : i.isCancel = false) :
    t.Lightens c (t.take registry i) ((t.observe registry i).countP StackEvent.isRound) := by
  obtain ⟨unwinds, expected⟩ := Bool.and_eq_true_iff.1 expected
  by_cases stage : t.stage = .unwinding
  · cases i with
    | cancel => cases other
    | resumed | filtered | handled | invoked | forked => simp [stage, awaits] at expected
    | move =>
      rw [countP_isRound_of_unwinding h stage]
      simp only [take, step, stage]
      exact lightens_unwind h stage
  rw [countP_isRound_eq_zero h stage]
  have noCancel : i ≠ .cancel := by
    rintro rfl
    cases other
  cases stage : t.stage with
  | fresh | ready | resuming | settled =>
    simp [stage, Stage.unwinds, Stage.purpose?, Stage.underway?] at unwinds
  | unwinding => contradiction
  | dispatched result p =>
    cases i with
    | cancel => cases other
    | resumed | filtered | handled | invoked | forked => simp [stage, awaits] at expected
    | move =>
      cases p with
      | yielded => simp [stage, Stage.unwinds, Stage.purpose?, Purpose.shields] at unwinds
      | deferred level prior =>
        simp only [take, step, stage]
        exact lightens_conclude stage
  | dispatching y origin p =>
    have awaited := awaited (by simpa only [stage] using expected) noCancel
    simp only [stage] at awaited
    subst awaited
    simp only [take, step, stage]
    exact lightens_dispatch stage spans
  | offering op slot origin p =>
    have awaited := awaited (by simpa only [stage] using expected) noCancel
    simp only [stage] at awaited
    rcases awaited with ⟨rfl, unhandled⟩ | ⟨m, serves, accepts, rfl⟩
    · simp only [take, step, stage, unhandled]
      refine lightens_core stage (h.underway p (by rw [stage]; rfl)) ?_
      simpa [stage, Stage.unwinds, Stage.purpose?, Stage.underway?] using unwinds
    · exact lightens_filtered stage serves accepts
  | handling op slot p =>
    have patience : 1 < t.stage.patience c := by rw [stage]; exact Nat.one_lt_two
    have awaited := awaited (by simpa only [stage] using expected) noCancel
    simp only [stage] at awaited
    rcases awaited with ⟨rfl, unhandled⟩ | ⟨-, -, result, rfl⟩
    · simp only [take, step, stage, unhandled]
      exact .of_become (Nat.zero_le _) patience
    · simp only [take, handled, stage]
      cases result with
      | ok g => exact .of_push g _ _ p patience
      | error e => exact .of_become (Nat.zero_le _) patience
  | invoking p =>
    have patience : 1 < t.stage.patience c := by rw [stage]; exact Nat.one_lt_two
    have awaited := awaited (by simpa only [stage] using expected) noCancel
    simp only [stage] at awaited
    obtain ⟨result, rfl⟩ := awaited
    simp only [take, invoked, stage]
    cases result with
    | ok g => exact .of_push g _ _ p patience
    | error e => exact .of_become (Nat.zero_le _) patience
  | forking p =>
    have patience : 1 < t.stage.patience c := by rw [stage]; exact Nat.one_lt_two
    have awaited := awaited (by simpa only [stage] using expected) noCancel
    simp only [stage] at awaited
    obtain ⟨child, rfl⟩ := awaited
    simp only [take, forked, stage]
    exact .of_same (map_setCurrent (fun _ _ => rfl) _) (Nat.zero_le _) patience
  | replacing _ _ _ p | retiring _ _ _ p | reporting _ _ _ p =>
    obtain rfl : p = .yielded := by
      simpa [stage, Stage.underway?] using h.replaced (by rw [stage]; rfl)
    simp [stage, Stage.unwinds, Stage.purpose?, Stage.underway?, Purpose.shields] at unwinds

theorem toil_cancel : (t.take registry .cancel).toil = t.toil := by
  simp only [take, requestCancel]
  split
  · rfl
  · refine congrArg (· + t.stage.inside) (toilOf_congr ?_)
    simp only [List.map_map]
    rfl

/-- A cancellation leaves what lies before an unwinding as it is, and all else that it goes on with
makes it less. -/
theorem eases (h : t.Coherent) (spans : t.Spans registry c) {i : Impulse G F}
    (expected : t.expects i = true) :
    (t.observe registry i).countP StackEvent.isRound + (t.take registry i).toil ≤ t.toil ∧
      [i].countP (!·.isCancel) + (t.take registry i).burden c ≤ t.burden c := by
  by_cases cancels : i.isCancel = true
  · obtain rfl : i = .cancel := by
      cases i <;> first | rfl | cases cancels
    have quiet : (t.observe registry .cancel).countP StackEvent.isRound = 0 := by
      rw [observe_cancel]
      split <;> rfl
    have stage : (t.take registry .cancel).stage = t.stage := stage_requestCancel
    have burden : (t.take registry .cancel).burden c = t.burden c := by
      rw [Task.burden, toil_cancel, stage, Task.burden]
    rw [quiet, toil_cancel, burden]
    exact ⟨Nat.le_of_eq (Nat.zero_add _), Nat.le_of_eq (Nat.zero_add _)⟩
  · have lightens := lightens_take h spans expected (Bool.eq_false_iff.2 cancels)
    have less := lightens.burden_lt
    have one : [i].countP (!·.isCancel) = 1 := by simp [cancels]
    rw [one]
    exact ⟨lightens.toil, by omega⟩

/-! ### Where the slots come from -/

variable {i : Impulse G F}

theorem origin?_core (h : (t.core op origin p).1.stage.origin? = some slot) :
    origin = some slot := by
  cases op with
  | call | execute | fork | next | custom | recover => cases h
  | start inner => exact h
  | defer inner =>
    simp only [core] at h
    split at h <;> cases h
  | terminal inner =>
    simp only [core] at h
    split at h
    · cases h
    · split at h
      · cases h
      · split at h
        · cases h
        · exact h

theorem origin?_dispatch {y : Yielded G F}
    (h : (t.dispatch registry y origin p).stage.origin? = some slot) : origin = some slot := by
  unfold dispatch at h
  split at h
  · split at h
    · exact h
    · cases h
  · split at h
    · cases h
    · split at h
      · exact h
      · cases h
  · exact h

omit [Named G] in
theorem origin?_conclude (result : Except Error Unit) (p : Purpose) :
    (t.conclude result p).stage.origin? = none := by
  unfold conclude
  split
  · split <;> rfl
  · dsimp only
    split <;> rfl

theorem origin?_step (h : (t.step registry).1.stage.origin? = some slot) :
    t.stage.origin? = some slot ∨ ∃ f ∈ t.frames, f.slot = some slot := by
  match stage : t.stage with
  | .fresh _ =>
    simp only [step, stage] at h
    split at h <;> cases h
  | .ready =>
    simp only [step, stage] at h
    split at h <;> cases h
  | .dispatching y origin p =>
    simp only [step, stage] at h
    exact .inl (origin?_dispatch h)
  | .offering op chain origin p =>
    simp only [step, stage] at h
    split at h
    · rw [stage] at h
      exact .inl h
    · exact .inl (origin?_core h)
  | .handling op chain p =>
    simp only [step, stage] at h
    split at h
    · rw [stage] at h
      cases h
    · cases h
  | .replacing .. | .reporting .. =>
    simp only [step, stage] at h
    exact .inl h
  | .dispatched result p =>
    simp only [step, stage] at h
    cases (origin?_conclude result p).symm.trans h
  | .unwinding =>
    simp only [step, stage, unwind] at h
    split at h
    · cases h
    · rename_i f rest frames
      split at h
      · exact .inr ⟨f, frames ▸ List.mem_cons_self .., h⟩
      · rcases stage_handDown (t := t) f.result rest with stage | stage <;>
          rw [stage] at h <;> cases h
  | .retiring .. | .resuming | .invoking _ | .forking _ | .settled _ =>
    simp only [step, stage] at h
    exact .inl h

omit [Named G] in
theorem origin?_resumed {signal : Signal G F} {g : G}
    (h : (t.resumed signal g).stage.origin? = some slot) :
    t.stage.origin? = some slot ∨ ∃ f ∈ t.frames, f.slot = some slot := by
  unfold resumed at h
  split at h
  · rename_i f rest stage frames
    cases signal with
    | complete outcome => cases h
    | yielded y =>
      dsimp only at h
      split at h
      · cases h
      · exact .inr ⟨f, frames ▸ List.mem_cons_self .., h⟩
  · exact .inl h

/-- A dispatch begins with the slot of the frame on top, and keeps it. -/
theorem origin?_take (h : (t.take registry i).stage.origin? = some slot) :
    t.stage.origin? = some slot ∨ ∃ f ∈ t.frames, f.slot = some slot := by
  cases i with
  | move => exact origin?_step h
  | resumed signal g =>
    simp only [take] at h
    split at h
    · rename_i stage
      refine .inl ?_
      simp only [retired, stage] at h
      rw [stage]
      split at h <;> exact h
    · exact origin?_resumed h
  | filtered accepts =>
    simp only [take, filtered] at h
    split at h
    · rename_i stage
      split at h
      · cases h
      · exact .inl (stage ▸ h)
    · exact .inl h
  | handled result =>
    simp only [take, handled] at h
    split at h
    · split at h <;> cases h
    · exact .inl h
  | invoked result =>
    simp only [take, invoked] at h
    split at h
    · split at h <;> cases h
    · exact .inl h
  | forked child =>
    simp only [take, forked] at h
    split at h
    · cases h
    · exact .inl h
  | cancel => exact .inl ((congrArg Stage.origin? stage_requestCancel).symm.trans h)

end Steps

/-! ### Getting on -/

theorem Coherent.fits_or_entrusted (h : t.Coherent) {p : Purpose}
    (purpose : t.stage.purpose? = some p) : p.Fits t.frames ∨ p.Entrusted t.frames := by
  by_cases ended : ∃ result, t.stage = .dispatched result p
  · obtain ⟨result, stage⟩ := ended
    exact (h.dispatched result p stage).imp_right And.right
  · refine .inl (h.underway p ?_)
    cases stage : t.stage with
    | dispatched result q =>
      rw [stage] at purpose
      obtain rfl := Option.some.inj purpose
      exact absurd ⟨result, stage⟩ ended
    | _ =>
      rw [stage] at purpose
      exact purpose

theorem exists_top (h : t.Coherent) (unwinds : t.stage.unwinds = true) :
    ∃ f rest, t.frames = f :: rest := by
  rcases Stage.unwinds_iff.1 unwinds with stage | ⟨level, prior, purpose⟩
  · obtain ⟨f, rest, frames, -⟩ := h.unwinding stage
    exact ⟨f, rest, frames⟩
  · rcases h.fits_or_entrusted purpose with ⟨f, rest, frames, -⟩ | ⟨new, f, rest, frames, -⟩
    · exact ⟨f, rest, frames⟩
    · exact ⟨new, f :: rest, frames⟩

/-- Completed frames are unwound until a running one is on top, or none is left. -/
theorem lands_turn {es : List (StackEvent G F)} (h : t.Coherent)
    (unwinds : t.stage.unwinds = true) (turn : t.Turn es u) :
    u.stage.unwinds = true ∨ u.stage = .ready ∧ ∀ f ∈ u.frames.head?, f.completed = false := by
  have same {p : Purpose} {s : Stage G F M} (underway : t.stage.underway? = some p)
      (purpose : s.purpose? = some p) : s.unwinds = true := by
    rw [Stage.unwinds_eq_shields purpose, ← unwinds]
    exact (Stage.unwinds_eq_shields (Stage.purpose?_of_underway? underway)).symm
  cases turn with
  | idle | cancelled => exact .inl unwinds
  | discharged => exact .inl rfl
  | undertaken => exact .inl rfl
  | entrusted new f rest prior stage frames running =>
    refine .inr ⟨rfl, fun g top => ?_⟩
    obtain rfl : new = g := Option.some.inj top
    exact running
  | popped f rest =>
    cases rest with
    | nil => exact .inr ⟨rfl, nofun⟩
    | cons below rest =>
      cases done : below.completed with
      | true =>
        rw [handDown_completed done]
        exact .inl rfl
      | false =>
        rw [handDown_running done]
        refine .inr ⟨rfl, fun g top => ?_⟩
        obtain rfl := Option.some.inj top
        exact done
  | onwards s p underway purpose => exact .inl (same underway purpose)
  | pushed g name slot p underway | registered f rest op p underway
  | recovered top below rest e p underway => exact .inl (same underway rfl)
  | forked outcome p stage => exact .inl (same (by rw [stage]; rfl) rfl)
  | quiet s none =>
    obtain ⟨f, rest, frames⟩ := exists_top h unwinds
    cases none.symm.trans frames
  | replaced f rest inner origin underway =>
    have yielded := Stage.unwinds_eq_shields (Stage.purpose?_of_underway? underway)
    cases yielded.symm.trans unwinds
  | resumed f rest stage | suspended f rest g y stage | completed f rest g outcome stage
  | returned result stage | stranded f rest result stage =>
    rw [stage] at unwinds
    cases unwinds

/-- A task that unwinds always waits for something. -/
theorem exists_expected (unwinds : t.stage.unwinds = true) :
    ∃ i : Impulse G F, i.isCancel = false ∧ t.expects i = true := by
  simp only [expects, unwinds, Bool.true_and]
  match stage : t.stage with
  | .unwinding | .dispatched .. => exact ⟨.move, rfl, rfl⟩
  | .dispatching .. => exact ⟨.move, rfl, by simp only [awaits, stage]⟩
  | .offering _ slot _ _ =>
    cases serves : slot.handler? with
    | none => exact ⟨.move, rfl, by simp [awaits, stage, serves]⟩
    | some m => exact ⟨.filtered true, rfl, by simp [awaits, stage, serves]⟩
  | .handling _ slot _ =>
    cases serves : slot.handler? with
    | none => exact ⟨.move, rfl, by simp [awaits, stage, serves]⟩
    | some m => exact ⟨.handled (.error .cancelled), rfl, by simp [awaits, stage, serves]⟩
  | .invoking _ => exact ⟨.invoked (.error .cancelled), rfl, by simp only [awaits, stage]⟩
  | .forking _ => exact ⟨.forked default, rfl, by simp only [awaits, stage]⟩
  | .replacing .. | .reporting .. => exact ⟨.move, rfl, by simp only [awaits, stage]⟩
  | .retiring frame _ _ _ =>
    exact ⟨.resumed (.complete (.ok .null)) frame.generator, rfl, by simp only [awaits, stage]⟩
  | .fresh _ | .ready | .resuming | .settled _ =>
    simp [stage, Stage.unwinds, Stage.purpose?, Stage.underway?] at unwinds

end Task

/-! ### Which frames are left -/

/-- What a completed frame keeps while it is unwound. -/
def Frame.body (f : Frame G F M) : G × String × Bool × Option (HandlerSlot M) :=
  (f.generator, f.name, f.completed, f.slot)

namespace Run

/-- From `t` to `r`, frames have been popped, and at most one has been pushed, with which the
unwinding ends. -/
inductive Trimmed (t : Task G F M) (r : Run G F M) : Prop
  | whole (pushes : r.history.countP StackEvent.isPush = 0)
    (kept : r.task.frames.map Frame.body =
      (t.frames.map Frame.body).drop (r.history.countP StackEvent.isPop))
    (level : ∀ level prior, r.task.stage.purpose? = some (.deferred level prior) →
      level = r.task.frames.length)
  | grown (new : Frame G F M) (rest : List (Frame G F M)) (frames : r.task.frames = new :: rest)
    (running : new.completed = false) (pushes : r.history.countP StackEvent.isPush = 1)
    (kept : rest.map Frame.body =
      (t.frames.map Frame.body).drop (r.history.countP StackEvent.isPop))
    (stage : (∃ prior, r.task.stage = .dispatched (.ok ()) (.deferred rest.length prior)) ∨
      r.task.stage = .ready)

namespace Trimmed

variable {t u u' : Task G F M} {es xs : List (StackEvent G F)}

theorem begun (top : t.stage = .unwinding) : Trimmed t ⟨t, []⟩ :=
  .whole rfl rfl fun level prior purpose => by
    simp [top, Stage.purpose?, Stage.underway?] at purpose

/-- Nothing has been popped or pushed. -/
theorem whole_of_same (pushes : es.countP StackEvent.isPush = 0)
    (kept : u.frames.map Frame.body =
      (t.frames.map Frame.body).drop (es.countP StackEvent.isPop))
    (none : xs.countP StackEvent.isPush = 0 ∧ xs.countP StackEvent.isPop = 0)
    (same : u'.frames.map Frame.body = u.frames.map Frame.body)
    (level : ∀ level prior, u'.stage.purpose? = some (.deferred level prior) →
      level = u.frames.length) : Trimmed t ⟨u', es ++ xs⟩ := by
  have length : u'.frames.length = u.frames.length := by
    simpa using congrArg List.length same
  refine .whole ?_ ?_ fun l prior purpose => (level l prior purpose).trans length.symm
  · rw [List.countP_append, pushes, none.1]
  · rw [List.countP_append, none.2, Nat.add_zero, same, kept]

/-- A deferred operation has pushed a frame, and the outcome of the frame below is put back. -/
theorem grown_turn {new : Frame G F M} {rest : List (Frame G F M)} {prior : Outcome}
    (frames : u.frames = new :: rest) (running : new.completed = false)
    (pushes : es.countP StackEvent.isPush = 1)
    (kept : rest.map Frame.body = (t.frames.map Frame.body).drop (es.countP StackEvent.isPop))
    (stage : u.stage = .dispatched (.ok ()) (.deferred rest.length prior))
    (turn : u.Turn xs u') : Trimmed t ⟨u', es ++ xs⟩ := by
  cases turn with
  | idle =>
    rw [List.append_nil]
    exact .grown new rest frames running pushes kept (.inl ⟨prior, stage⟩)
  | entrusted new' f rest' prior' stage' frames' running' =>
    obtain ⟨rfl, rfl⟩ := List.cons.inj (frames.symm.trans frames')
    rw [List.append_nil]
    exact .grown new _ rfl running pushes kept (.inr rfl)
  | cancelled =>
    refine .grown { new with mark := new.mark.cancel }
      (rest.map fun f => { f with mark := f.mark.cancel }) ?_ running ?_ ?_ (.inl ⟨prior, ?_⟩)
    · simp only [frames, List.map_cons]
    · rw [List.countP_append, pushes]
      rfl
    · rw [List.countP_append, List.map_map]
      exact kept
    · rw [List.length_map]
      exact stage
  | quiet s none => cases frames.symm.trans none
  | discharged f rest' result prior' stage' frames' done =>
    obtain ⟨rfl, -⟩ := List.cons.inj (frames.symm.trans frames')
    cases running.symm.trans done
  | onwards s p underway | pushed g name slot p underway | registered f rest' op p underway
  | recovered top below rest' e p underway | replaced f rest' inner origin underway =>
    rw [stage] at underway
    cases underway
  | resumed f rest' stage' | suspended f rest' g y stage' | completed f rest' g outcome stage'
  | forked outcome p stage' | returned result stage' | stranded f rest' result stage'
  | undertaken f rest' op ops stage' | popped f rest' stage' => cases stage.symm.trans stage'

/-- No frame has been pushed yet. -/
theorem whole_turn (coherent : u.Coherent) (unwinds : u.stage.unwinds = true)
    (pushes : es.countP StackEvent.isPush = 0)
    (kept : u.frames.map Frame.body = (t.frames.map Frame.body).drop (es.countP StackEvent.isPop))
    (level : ∀ level prior, u.stage.purpose? = some (.deferred level prior) →
      level = u.frames.length) (turn : u.Turn xs u') : Trimmed t ⟨u', es ++ xs⟩ := by
  have same : (xs.countP StackEvent.isPush = 0 ∧ xs.countP StackEvent.isPop = 0) →
      u'.frames.map Frame.body = u.frames.map Frame.body →
      (∀ level prior, u'.stage.purpose? = some (.deferred level prior) →
        level = u.frames.length) → Trimmed t ⟨u', es ++ xs⟩ := whole_of_same pushes kept
  cases turn with
  | idle => exact same ⟨rfl, rfl⟩ rfl level
  | quiet s frames =>
    obtain ⟨f, rest, some⟩ := Task.exists_top coherent unwinds
    cases frames.symm.trans some
  | onwards s p underway purpose fits =>
    refine same ⟨rfl, rfl⟩ rfl fun l prior is => level l prior ?_
    exact (Stage.purpose?_of_underway? underway).trans (purpose.symm.trans is)
  | pushed g name slot p underway fits =>
    have purpose := Stage.purpose?_of_underway? underway
    cases p with
    | yielded => cases (Stage.unwinds_eq_shields purpose).symm.trans unwinds
    | deferred l prior =>
      obtain rfl := level l prior purpose
      refine .grown _ u.frames rfl rfl ?_ ?_ (.inl ⟨prior, rfl⟩)
      · rw [List.countP_append, pushes]
        rfl
      · rw [List.countP_append, kept]
        rfl
  | registered f rest op p underway fits frames =>
    refine same ⟨rfl, rfl⟩ ?_ fun l prior is => level l prior ?_
    · rw [frames]
      rfl
    · exact (Stage.purpose?_of_underway? underway).trans is
  | recovered top below rest e p underway fits frames done =>
    refine same ⟨rfl, rfl⟩ ?_ fun l prior is => level l prior ?_
    · rw [frames]
      rfl
    · exact (Stage.purpose?_of_underway? underway).trans is
  | forked outcome p stage fits =>
    refine same ⟨rfl, rfl⟩ (Task.map_setCurrent (fun _ _ => rfl) outcome) fun l prior is =>
      level l prior ?_
    simp only [stage]
    exact is
  | discharged f rest result prior stage frames done =>
    refine same ⟨rfl, rfl⟩ ?_ nofun
    rw [frames]
    rfl
  | entrusted new f rest prior stage frames running done =>
    have short := level (rest.length + 1) prior (by rw [stage]; rfl)
    simp [frames] at short
  | undertaken f rest op ops stage frames done defers =>
    refine same ⟨rfl, rfl⟩ ?_ fun l prior is => ?_
    · rw [frames]
      rfl
    · obtain ⟨rfl, -⟩ := Purpose.deferred.inj (Option.some.inj is)
      rw [frames]
      rfl
  | popped f rest stage frames done defers =>
    refine .whole ?_ ?_ fun l prior is => ?_
    · rw [List.countP_append, pushes]
      split <;> rfl
    · have pops : es.countP StackEvent.isPop + 1 = (es ++ StackEvent.popped f.result ::
          (if rest.head?.any Frame.completed then [.discharged (Task.verdict f.result)]
            else [])).countP StackEvent.isPop := by
        rw [List.countP_append]
        split <;> rfl
      rw [← pops, ← List.drop_drop, ← kept, frames, Task.map_handDown fun _ _ => rfl]
      rfl
    · rcases Task.stage_handDown (t := u) f.result rest with stage | stage <;>
        rw [stage] at is <;> cases is
  | cancelled unsettled uncanceled =>
    refine same ⟨rfl, rfl⟩ ?_ level
    simp only [List.map_map]
    rfl
  | replaced f rest inner origin underway =>
    have yielded := Stage.unwinds_eq_shields (Stage.purpose?_of_underway? underway)
    cases yielded.symm.trans unwinds
  | resumed f rest stage | suspended f rest g y stage | completed f rest g outcome stage
  | returned result stage | stranded f rest result stage =>
    rw [stage] at unwinds
    cases unwinds

theorem turn (h : Trimmed t ⟨u, es⟩) (coherent : u.Coherent) (unwinds : u.stage.unwinds = true)
    (turn : u.Turn xs u') : Trimmed t ⟨u', es ++ xs⟩ := by
  cases h with
  | whole pushes kept level => exact whole_turn coherent unwinds pushes kept level turn
  | grown new rest frames running pushes kept stage =>
    rcases stage with ⟨prior, stage⟩ | stage
    · exact grown_turn frames running pushes kept stage turn
    · rw [stage] at unwinds
      cases unwinds

end Trimmed

/-- How far an unwinding has come that began with the task `t`, if no chain is longer than `c`. -/
structure Progress (c : Nat) (t : Task G F M) (impulses : List (Impulse G F)) (r : Run G F M) :
    Prop where
  coherent : r.task.Coherent
  trimmed : Trimmed t r
  lands : r.task.stage.unwinds = true ∨
    r.task.stage = .ready ∧ ∀ f ∈ r.task.frames.head?, f.completed = false
  origin : ∀ slot, r.task.stage.origin? = some slot → ∃ f ∈ t.frames, f.slot = some slot
  rounds : r.history.countP StackEvent.isRound + r.task.toil ≤ t.toil
  burden : impulses.countP (!·.isCancel) + r.task.burden c ≤ t.burden c

namespace Progress

variable {c : Nat} {t : Task G F M} {impulses : List (Impulse G F)} {r : Run G F M}

theorem begun (coherent : t.Coherent) (stage : t.stage = .unwinding) :
    Progress c t [] ⟨t, []⟩ where
  coherent := coherent
  trimmed := .begun stage
  lands := .inl (Stage.unwinds_iff.2 (.inl stage))
  origin slot h := by
    simp only [stage] at h
    cases h
  rounds := Nat.le_of_eq (Nat.zero_add _)
  burden := Nat.le_of_eq (Nat.zero_add _)

variable [Named G] {registry : Registry M} {i : Impulse G F}

theorem origin_take (h : Progress c t impulses r) (trimmed : Trimmed t (r.take registry i))
    {slot : HandlerSlot M} (place : (r.take registry i).task.stage.origin? = some slot) :
    ∃ f ∈ t.frames, f.slot = some slot := by
  rcases Task.origin?_take place with before | ⟨f, listed, place'⟩
  · exact h.origin slot before
  · cases trimmed with
    | grown new rest frames running pushes kept stage =>
      rcases stage with ⟨prior, stage⟩ | stage <;> rw [stage] at place <;> cases place
    | whole pushes =>
      cases h.trimmed with
      | grown new rest frames running one =>
        have more := pushes
        rw [Run.take, List.countP_append, one] at more
        omega
      | whole _ kept =>
        have body := List.mem_map_of_mem (f := Frame.body) listed
        rw [kept] at body
        obtain ⟨g, among, same⟩ := List.mem_map.1 (List.mem_of_mem_drop body)
        refine ⟨g, among, ?_⟩
        rw [← place']
        exact congrArg (·.2.2.2) same

theorem take (h : Progress c t impulses r) (chains : registry.registrations.length ≤ c)
    (slots : ∀ f ∈ t.frames, ∀ slot, f.slot = some slot → slot.handlers.length ≤ c)
    (expected : r.task.expects i = true) :
    Progress c t (impulses ++ [i]) (r.take registry i) := by
  have unwinds := (Bool.and_eq_true_iff.1 expected).1
  have turn : r.task.Turn (r.task.observe registry i) (r.task.take registry i) :=
    Task.turn_take h.coherent i
  have trimmed : Trimmed t (r.take registry i) := h.trimmed.turn h.coherent unwinds turn
  have origin (slot : HandlerSlot M)
      (place : (r.take registry i).task.stage.origin? = some slot) :
      ∃ f ∈ t.frames, f.slot = some slot := h.origin_take trimmed place
  have spans : r.task.Spans registry c :=
    ⟨chains, fun slot place => by
      obtain ⟨f, listed, same⟩ := h.origin slot place
      exact slots f listed slot same⟩
  obtain ⟨rounds, burden⟩ := Task.eases h.coherent spans expected
  refine ⟨h.coherent.take i, trimmed, Task.lands_turn h.coherent unwinds turn, origin, ?_, ?_⟩
  · rw [Run.take, List.countP_append, Nat.add_assoc]
    exact Nat.le_trans (Nat.add_le_add_left rounds _) h.rounds
  · rw [Run.take, List.countP_append, Nat.add_assoc]
    exact Nat.le_trans (Nat.add_le_add_left burden _) h.burden

theorem after (h : Progress c t impulses r) (chains : registry.registrations.length ≤ c)
    (slots : ∀ f ∈ t.frames, ∀ slot, f.slot = some slot → slot.handlers.length ≤ c)
    {more : List (Impulse G F)} (expected : r.task.unwindsWith registry more = true) :
    Progress c t (impulses ++ more) (r.after registry more) := by
  induction more generalizing impulses r with
  | nil =>
    rw [List.append_nil]
    exact h
  | cons i rest ih =>
    obtain ⟨first, others⟩ := Bool.and_eq_true_iff.1 expected
    rw [List.append_cons]
    exact ih (h.take chains slots first) others

end Progress

/-- What holds whenever completed frames of `t` are being unwound or have been.
* There have been no more rounds than there were frames and layers of deferred operations.
* Only the frames that were popped are gone, and one has been pushed at most.
* While a deferred operation is dispatched, the completed frame at the level that is remembered is
  there, and takes the outcome that is put back.
* The unwinding goes on, or it has ended with a running frame on top or without any. -/
structure Unwound (registry : Registry M) [Named G] (t : Task G F M) (r : Run G F M) : Prop where
  rounds : r.history.countP StackEvent.isRound ≤ t.frames.length + (t.frames.map Frame.owed).sum
  pushes : r.history.countP StackEvent.isPush ≤ 1
  frames : ∃ new kept, r.task.frames = new ++ kept ∧
    new.length = r.history.countP StackEvent.isPush ∧
    kept.map Frame.body = (t.frames.map Frame.body).drop (r.history.countP StackEvent.isPop) ∧
    ∀ level prior, r.task.stage.purpose? = some (.deferred level prior) →
      ∃ f rest, kept = f :: rest ∧ f.completed = true ∧ level = rest.length + 1 ∧
        ∀ result, r.task.stage = .dispatched result (.deferred level prior) →
          (r.task.take registry .move).frames =
            new ++ { f with result := Frame.afterDefer prior result } :: rest
  goesOn : r.task.stage.unwinds = true →
    ∃ i : Impulse G F, i.isCancel = false ∧ r.task.expects i = true
  ends : r.task.stage.unwinds = false →
    r.task.stage = .ready ∧ ∀ f ∈ r.task.frames.head?, f.completed = false

theorem Progress.unwound [Named G] (registry : Registry M) {c : Nat} {t : Task G F M}
    {impulses : List (Impulse G F)} {r : Run G F M} (h : Progress c t impulses r)
    (stage : t.stage = .unwinding) : Unwound registry t r where
  rounds := by
    have toil : t.toil = toilOf t.frames := by
      rw [Task.toil, stage]
      rfl
    have bound := toilOf_le t.frames
    have rounds := h.rounds
    omega
  pushes := by
    cases h.trimmed with
    | whole pushes => omega
    | grown _ _ _ _ pushes => omega
  frames := by
    cases h.trimmed with
    | whole pushes kept level =>
      refine ⟨[], r.task.frames, rfl, pushes.symm, kept, fun l prior purpose => ?_⟩
      rcases h.coherent.fits_or_entrusted purpose with fits | entrusted
      · obtain ⟨f, rest, frames, completed, rfl⟩ := fits
        refine ⟨f, rest, frames, completed, rfl, fun result stage => ?_⟩
        simp [Task.take, Task.step, stage, Task.conclude, frames, atLevel]
      · obtain ⟨new, f, rest, frames, -, -, rfl⟩ := entrusted
        have short := level _ prior purpose
        simp [frames] at short
    | grown new rest frames running pushes kept stage =>
      refine ⟨[new], rest, frames, pushes.symm, kept, fun l prior purpose => ?_⟩
      rcases h.coherent.fits_or_entrusted purpose with fits | entrusted
      · obtain ⟨f, rest', frames', completed, -⟩ := fits
        obtain ⟨rfl, -⟩ := List.cons.inj (frames.symm.trans frames')
        cases running.symm.trans completed
      · obtain ⟨new', f, rest', frames', -, completed, rfl⟩ := entrusted
        obtain ⟨rfl, rfl⟩ := List.cons.inj (frames.symm.trans frames')
        refine ⟨f, rest', rfl, completed, rfl, fun result stage => ?_⟩
        simp [Task.take, Task.step, stage, Task.conclude, frames, atLevel]
  goesOn := Task.exists_expected
  ends ended := h.lands.resolve_left (by simp [ended])

end Run

namespace Task

theorem exists_longest (frames : List (Frame G F M)) :
    ∃ c, ∀ f ∈ frames, ∀ slot, f.slot = some slot → slot.handlers.length ≤ c := by
  induction frames with
  | nil => exact ⟨0, nofun⟩
  | cons f rest ih =>
    obtain ⟨c, longest⟩ := ih
    refine ⟨c + (f.slot.map (·.handlers.length)).getD 0, fun g hg slot place => ?_⟩
    rcases List.mem_cons.1 hg with rfl | hg
    · rw [place]
      exact Nat.le_add_left ..
    · exact Nat.le_add_right_of_le (longest g hg slot place)

/-- A task whose top frame has completed unwinds to the end, whatever is answered to it and however
often it is cancelled meanwhile: there is a bound on the moves and answers that it takes, and as
long as it has not ended it awaits one. -/
theorem unwinding_ends [Named G] (registry : Registry M) {t : Task G F M} {f : Frame G F M}
    {rest : List (Frame G F M)} (stage : t.stage = .unwinding) (frames : t.frames = f :: rest)
    (completed : f.completed = true) :
    ∃ n, ∀ impulses, t.unwindsWith registry impulses = true →
      impulses.countP (!·.isCancel) ≤ n ∧
        Run.Unwound registry t ((⟨t, []⟩ : Run G F M).after registry impulses) := by
  obtain ⟨c, longest⟩ := exists_longest t.frames
  let c' := registry.registrations.length + c
  have slots (f : Frame G F M) (hf : f ∈ t.frames) (slot : HandlerSlot M)
      (place : f.slot = some slot) : slot.handlers.length ≤ c' :=
    Nat.le_add_left_of_le (longest f hf slot place)
  have coherent : t.Coherent := by
    obtain ⟨id, canceled, _, root, _⟩ := t
    subst stage frames
    exact .of_unwinding completed
  refine ⟨t.burden c', fun impulses expected => ?_⟩
  have progress := (Run.Progress.begun coherent stage).after (Nat.le_add_right ..) slots expected
  exact ⟨Nat.le_of_add_right_le progress.burden, progress.unwound registry stage⟩

/-- A completed frame has deferred a `terminal`, which is refused, and before that a `defer`, whose
operation is undertaken in a round of its own. The frame is popped in the fourth round. -/
theorem unwinding_ends_above_caller :
    let frame (name : String) (defers : List (Operation Stub Unit)) (completed : Bool) :
      Frame Stub Unit Unit := ⟨⟨name⟩, name, .clear, .ok .null, defers, completed, none⟩
    let top := frame "top" [.terminal .recover, .defer (.start .recover)] true
    let caller := frame "caller" [] false
    let t : Task Stub Unit Unit := ⟨default, false, [top, caller], .ok .null, .unwinding⟩
    let impulses : List (Impulse Stub Unit) := .replicate 15 .move
    let r : Run Stub Unit Unit := (⟨t, []⟩ : Run Stub Unit Unit).after default impulses
    top.completed = true ∧ t.unwindsWith default impulses = true ∧
      r.task.stage.unwinds = false ∧ r.task.frames.length = 1 ∧
      r.history.countP StackEvent.isRound = 4 ∧ Run.Unwound default t r := by
  intro frame top caller t impulses r
  have expected : t.unwindsWith default impulses = true := by decide +kernel
  have frames : t.frames = [top, caller] := rfl
  obtain ⟨n, ends⟩ := unwinding_ends default rfl frames rfl
  exact ⟨rfl, expected, by decide +kernel, by decide +kernel, by decide +kernel,
    (ends impulses expected).2⟩

end Task

end EffectEngine
