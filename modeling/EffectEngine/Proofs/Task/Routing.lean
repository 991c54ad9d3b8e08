import EffectEngine.Proofs.Task.Dispatch
import EffectEngine.Proofs.Task.Permits
import EffectEngine.Script.Setup
import Mathlib.Data.List.Forall2

/-!
# To which middleware an operation goes

`Routing` collects what a registry means for the dispatch of operations: each goes to the first
middleware of its kind that accepts it, and the operation inside `next` to the first one behind the
handler frame that yielded it. `Task.Placed` says that handler frames stand for places in the chain
of their kind, and `Delegates` that a handler frame hands its operation on to another one.
-/

namespace EffectEngine

variable {G F M : Type}

/-! ### Chains -/

namespace Registry

/-- The chain of a kind holds the middleware registered for it, in the order of registration. -/
theorem getElem?_handlers (registry : Registry M) (kind : String) (i : Nat) (m : M) :
    (registry.handlers kind)[i]? = some m ↔ ∃ before after,
      registry.registrations = before ++ ⟨kind, m⟩ :: after ∧
        (before.filter (·.kind == kind)).length = i := by
  obtain ⟨rs⟩ := registry
  simp only [handlers]
  constructor
  · intro found
    induction rs generalizing i with
    | nil => cases found
    | cons r rs ih =>
      by_cases same : r.kind = kind
      · subst same
        rw [List.filter_cons_of_pos (by simp), List.map_cons] at found
        cases i with
        | zero =>
          obtain rfl : r.middleware = m := Option.some.inj found
          exact ⟨[], rs, rfl, rfl⟩
        | succ i =>
          obtain ⟨before, after, rfl, count⟩ := ih i found
          exact ⟨r :: before, after, rfl, by simp [count]⟩
      · rw [List.filter_cons_of_neg (by simpa using same)] at found
        obtain ⟨before, after, rfl, count⟩ := ih i found
        exact ⟨r :: before, after, rfl, by simp [same, count]⟩
  · rintro ⟨before, after, rfl, rfl⟩
    simp

end Registry

namespace Script

/-- The middleware that an entry of a setup registers, in order. -/
def SetupEntry.entries : SetupEntry → List MiddlewareEntry
  | .middleware m => [m]
  | .batching config => [⟨callKind, .batchCalls config⟩, ⟨Batch.executeKind, .executeBatch⟩]
  | .plugin registrations _ => registrations
  | .listener _ => []

/-- A middleware is of a form. -/
def MiddlewareForm.Fits : MiddlewareForm → Middleware MiddlewareTerm → Prop
  | .client m, mw => mw = .client m
  | .trace label, mw => mw = .trace label
  | .metrics _, mw => ∃ id, mw = .metrics id
  | .batchCalls config, mw => mw = .batchCalls config.timeoutMs.toNat
  | .executeBatch, mw => mw = .executeBatch

def MiddlewareEntry.Fits (m : MiddlewareEntry) (r : Registration (Middleware MiddlewareTerm)) :
    Prop := m.kind = r.kind ∧ m.form.Fits r.middleware

namespace Builder

theorem register_fits (b : Builder) (m : MiddlewareEntry) :
    ∃ r, (b.register m).registrations = b.registrations ++ [r] ∧ m.Fits r := by
  refine ⟨_, rfl, rfl, ?_⟩
  cases m.form with
  | metrics name => exact ⟨_, rfl⟩
  | _ => rfl

theorem foldl_register_fits (ms : List MiddlewareEntry) (b : Builder) :
    ∃ rs, (ms.foldl register b).registrations = b.registrations ++ rs ∧
      List.Forall₂ MiddlewareEntry.Fits ms rs := by
  induction ms generalizing b with
  | nil => exact ⟨[], (List.append_nil _).symm, .nil⟩
  | cons m ms ih =>
    obtain ⟨r, first, fits⟩ := b.register_fits m
    obtain ⟨rs, others, rest⟩ := ih (b.register m)
    exact ⟨r :: rs, by rw [List.foldl_cons, others, first, List.append_assoc]; rfl, .cons fits rest⟩

theorem add_fits (b : Builder) (e : SetupEntry) :
    ∃ rs, (b.add e).registrations = b.registrations ++ rs ∧
      List.Forall₂ MiddlewareEntry.Fits e.entries rs := by
  cases e with
  | middleware m => exact foldl_register_fits [m] b
  | batching config => exact foldl_register_fits (SetupEntry.batching config).entries b
  | plugin ms listener =>
    obtain ⟨rs, registered, fits⟩ := foldl_register_fits ms b
    exact ⟨rs, by cases listener <;> exact registered, fits⟩
  | listener l => exact ⟨[], (List.append_nil _).symm, .nil⟩

end Builder

/-- A setup registers its middleware in the order of its entries, however they do it. -/
theorem Program.registrations_fit (p : Program) :
    List.Forall₂ MiddlewareEntry.Fits (p.setup.flatMap SetupEntry.entries)
      p.builder.registry.registrations := by
  have fits (entries : List SetupEntry) (b : Builder) :
      ∃ rs, (entries.foldl Builder.add b).registrations = b.registrations ++ rs ∧
        List.Forall₂ MiddlewareEntry.Fits (entries.flatMap SetupEntry.entries) rs := by
    induction entries generalizing b with
    | nil => exact ⟨[], (List.append_nil _).symm, .nil⟩
    | cons e entries ih =>
      obtain ⟨rs, first, fits⟩ := b.add_fits e
      obtain ⟨rs', others, rest⟩ := ih (b.add e)
      refine ⟨rs ++ rs', ?_, List.rel_append fits rest⟩
      rw [List.foldl_cons, others, first, List.append_assoc]
  obtain ⟨rs, registered, fits⟩ := fits p.setup ⟨stateWith p.functions, [], []⟩
  have all : p.builder.registry.registrations = rs := registered
  exact all ▸ fits

end Script

/-! ### Places -/

/-- The slots that a task may still use. -/
def Stage.slots : Stage G F M → List (HandlerSlot M)
  | dispatching _ origin _ | replacing _ _ origin _ | retiring _ _ origin _
  | reporting _ _ origin _ => origin.toList
  | offering _ slot origin _ => slot :: origin.toList
  | handling _ slot _ => [slot]
  | _ => []

/-- A slot is a place in the chain of its kind. -/
def HandlerSlot.InChain (registry : Registry M) (s : HandlerSlot M) : Prop :=
  s.handlers = registry.handlers s.kind

theorem inChain_of_entry {registry : Registry M} {origin : Option (HandlerSlot M)}
    {op op' : Operation G F} {slot : HandlerSlot M}
    (entry : registry.entry origin op = .ok (op', slot))
    (place : ∀ s ∈ origin, s.InChain registry) : slot.InChain registry := by
  cases op with
  | next inner =>
    cases origin with
    | none => cases entry
    | some s =>
      simp only [Registry.entry] at entry
      split at entry
      · obtain ⟨rfl, rfl⟩ := Prod.mk.inj (Except.ok.inj entry)
        exact place s rfl
      · cases entry
  | call | execute | fork | defer | recover | terminal | start | custom =>
    obtain ⟨rfl, rfl⟩ := Prod.mk.inj (Except.ok.inj entry)
    rfl

namespace Task

structure Placed (registry : Registry M) (t : Task G F M) : Prop where
  frames : ∀ slot ∈ t.frames.map (·.slot), ∀ s ∈ slot, s.InChain registry
  stage : ∀ s ∈ t.stage.slots, s.InChain registry

namespace Placed

variable {registry : Registry M} {t t' : Task G F M} {origin : Option (HandlerSlot M)}

theorem alike (h : t.Placed registry) (frames : t'.frames.map (·.slot) = t.frames.map (·.slot))
    (stage : ∀ s ∈ t'.stage.slots, s.InChain registry) : t'.Placed registry :=
  ⟨frames ▸ h.frames, stage⟩

theorem become (h : t.Placed registry) {s : Stage G F M}
    (stage : ∀ slot ∈ s.slots, slot.InChain registry) : (t.become s).Placed registry :=
  h.alike rfl stage

theorem push (h : t.Placed registry) {g : G} {name : String} {slot : Option (HandlerSlot M)}
    (place : ∀ s ∈ slot, s.InChain registry) (p : Purpose) :
    (t.push g name slot p).Placed registry :=
  ⟨List.forall_mem_cons.2 ⟨place, h.frames⟩, List.forall_mem_nil _⟩

theorem pushPlain [Named G] (h : t.Placed registry) (g : G) (p : Purpose) :
    (t.pushPlain g p).Placed registry := by
  have nowhere : ∀ s ∈ (none : Option (HandlerSlot M)), s.InChain registry := nofun
  exact h.push nowhere p

theorem dispatch [Named G] (h : t.Placed registry) (y : Yielded G F)
    (place : ∀ s ∈ origin, s.InChain registry) (p : Purpose) :
    (t.dispatch registry y origin p).Placed registry := by
  have origin_place : ∀ s ∈ origin.toList, s.InChain registry :=
    fun s hs => place s (Option.mem_toList.1 hs)
  cases y with
  | generator g =>
    simp only [Task.dispatch]
    split
    · exact h.become origin_place
    · exact h.pushPlain g p
  | operation op =>
    cases entry : registry.entry origin op with
    | error e =>
      rw [dispatch_of_error entry]
      exact h.become (List.forall_mem_nil _)
    | ok first =>
      obtain ⟨op', slot⟩ := first
      rw [dispatch_of_entry entry]
      refine h.become (List.forall_mem_cons.2 ⟨?_, origin_place⟩)
      exact inChain_of_entry entry place

theorem core [Named G] (h : t.Placed registry) (op : Operation G F)
    (place : ∀ s ∈ origin, s.InChain registry) (p : Purpose) :
    (t.core op origin p).1.Placed registry := by
  have origin_place : ∀ s ∈ origin.toList, s.InChain registry :=
    fun s hs => place s (Option.mem_toList.1 hs)
  cases op with
  | call | fork | next | custom => exact h.become (List.forall_mem_nil _)
  | execute g => exact h.pushPlain g p
  | start inner => exact h.become origin_place
  | recover =>
    refine h.alike ?_ (List.forall_mem_nil _)
    simp only [Task.core, Task.recover, Task.become]
    split
    · rename_i top below rest frames
      rw [frames]
      split
      · rfl
      · rw [frames]
    · rfl
  | defer inner =>
    simp only [Task.core]
    split
    · exact h.become (List.forall_mem_nil _)
    · rename_i f rest frames
      exact h.alike (by rw [frames]; rfl) (List.forall_mem_nil _)
  | terminal inner =>
    cases refused : inner.refusal? t.frames with
    | some e =>
      rw [core_refused refused]
      exact h.become (List.forall_mem_nil _)
    | none =>
      obtain ⟨-, f, rest, frames, -⟩ := Operation.refusal?_eq_none.1 refused
      rw [core_replaces refused frames]
      have below := h.frames
      rw [frames] at below
      exact ⟨(List.forall_mem_cons.1 below).2, origin_place⟩

theorem conclude (h : t.Placed registry) (result : Except Error Unit) (p : Purpose) :
    (t.conclude result p).Placed registry := by
  cases p with
  | yielded =>
    refine h.alike (map_conclude (by intros; rfl) result) ?_
    cases result <;> exact List.forall_mem_nil _
  | deferred level prior =>
    refine h.alike (map_atLevel (by intros; rfl) level _) ?_
    simp only [Task.conclude]
    split <;> exact List.forall_mem_nil _

theorem unwind (h : t.Placed registry) : t.unwind.Placed registry := by
  unfold Task.unwind
  split
  · exact h.become (List.forall_mem_nil _)
  · rename_i f rest frames
    have places := h.frames
    rw [frames] at places
    obtain ⟨place, below⟩ := List.forall_mem_cons.1 places
    split
    · exact h.alike (by rw [frames]; rfl) fun s hs => place s (Option.mem_toList.1 hs)
    · refine ⟨?_, ?_⟩
      · rw [map_handDown (by intros; rfl)]
        exact below
      · unfold Task.handDown
        split
        · exact List.forall_mem_nil _
        · split <;> exact List.forall_mem_nil _

theorem step [Named G] (h : t.Placed registry) : (t.step registry).1.Placed registry := by
  have stage := h.stage
  have of_origin {origin : Option (HandlerSlot M)} (slots : t.stage.slots = origin.toList) :
      ∀ s ∈ origin, s.InChain registry :=
    fun s hs => stage s (slots ▸ Option.mem_toList.2 hs)
  match hs : t.stage with
  | .fresh root =>
    simp only [Task.step, hs]
    split <;> exact h.become (List.forall_mem_nil _)
  | .ready =>
    simp only [Task.step, hs]
    split
    · exact h.become (List.forall_mem_nil _)
    · rename_i f rest frames
      exact h.alike (by rw [frames]; rfl) (List.forall_mem_nil _)
  | .dispatching y origin p =>
    simp only [Task.step, hs]
    exact h.dispatch y (of_origin (by rw [hs]; rfl)) p
  | .offering op slot origin p =>
    simp only [Task.step, hs]
    split
    · exact h
    · refine h.core op (fun s member => stage s ?_) p
      rw [hs]
      exact List.mem_cons_of_mem _ (Option.mem_toList.2 member)
  | .handling op slot p =>
    simp only [Task.step, hs]
    split
    · exact h
    · exact h.become (List.forall_mem_nil _)
  | .replacing f inner origin p | .reporting d inner origin p =>
    simp only [Task.step, hs]
    rw [hs] at stage
    exact h.become stage
  | .retiring f inner origin p =>
    simp only [Task.step, hs]
    exact h
  | .dispatched result p =>
    simp only [Task.step, hs]
    exact h.conclude result p
  | .unwinding =>
    simp only [Task.step, hs]
    exact h.unwind
  | .resuming | .invoking _ | .forking _ | .settled _ =>
    simp only [Task.step, hs]
    exact h

theorem take [Named G] (h : t.Placed registry) (i : Impulse G F) :
    (t.take registry i).Placed registry := by
  have stage := h.stage
  cases i with
  | move => exact h.step
  | cancel =>
    simp only [Task.take, Task.requestCancel]
    split
    · exact h
    · exact h.alike (by simp) stage
  | resumed signal g =>
    simp only [Task.take]
    split
    · rename_i f inner origin p hs
      rw [hs] at stage
      simp only [Task.retired, hs]
      split
      all_goals exact h.become stage
    · unfold Task.resumed
      split
      · rename_i f rest _ frames
        have places := h.frames
        rw [frames] at places
        obtain ⟨place, -⟩ := List.forall_mem_cons.1 places
        cases signal with
        | complete outcome => exact h.alike (by rw [frames]; rfl) (List.forall_mem_nil _)
        | yielded y =>
          refine h.alike (by rw [frames]; rfl) ?_
          simp only
          split
          · exact List.forall_mem_nil _
          · exact fun s hs => place s (Option.mem_toList.1 hs)
      · exact h
  | filtered accepts =>
    simp only [Task.take, Task.filtered]
    split
    · rename_i op slot origin p hs
      rw [hs] at stage
      obtain ⟨place, origin⟩ := List.forall_mem_cons.1 stage
      split
      · exact h.become (List.forall_mem_singleton.2 place)
      · exact h.become (List.forall_mem_cons.2 ⟨place, origin⟩)
    · exact h
  | handled result =>
    simp only [Task.take, Task.handled]
    split
    · rename_i op slot p hs
      rw [hs] at stage
      have place : slot.InChain registry := stage slot List.mem_cons_self
      cases result with
      | ok g => exact h.push (fun s hs => Option.some.inj hs ▸ place) p
      | error e => exact h.become (List.forall_mem_nil _)
    · exact h
  | invoked result =>
    simp only [Task.take, Task.invoked]
    split
    · cases result with
      | ok g => exact h.pushPlain g _
      | error e => exact h.become (List.forall_mem_nil _)
    · exact h
  | forked child =>
    simp only [Task.take, Task.forked]
    split
    · exact h.alike (map_setCurrent (by intros; rfl) _) (List.forall_mem_nil _)
    · exact h

end Placed

end Task

/-- Every handler frame of a run stands for a place in the chain of its kind. -/
theorem Run.placed [Named G] {registry : Registry M} (id : TaskId) (root : Yielded G F)
    (impulses : List (Impulse G F)) :
    ((Run.start id root).after registry impulses).task.Placed registry := by
  have fresh : (Task.fresh id root : Task G F M).Placed registry :=
    ⟨List.forall_mem_nil _, List.forall_mem_nil _⟩
  exact Run.after_induction (P := fun r => r.task.Placed registry) fresh
    (fun r i placed => placed.take i) impulses

namespace Task

/-- Without a dispatch under way, nobody waits for answers to it. -/
theorem answered_idle [Named G] {t : Task G F M} (idle : t.stage.underway? = none) :
    (∀ accepts, t.filtered accepts = t) ∧ (∀ result, t.handled result = t) ∧
      (∀ result, t.invoked result = t) ∧ ∀ child, t.forked child = t := by
  obtain ⟨id, canceled, frames, root, stage⟩ := t
  cases stage with
  | dispatching | offering | handling | invoking | forking | replacing | retiring | reporting =>
    cases idle
  | _ => exact ⟨fun _ => rfl, fun _ => rfl, fun _ => rfl, fun _ => rfl⟩

/-- A dispatch begins with the slot of the frame on top, if there is one and it is a handler frame:
of the frame that yields the operation or that had deferred it. -/
theorem origin_of_begins [Named G] {registry : Registry M} {t : Task G F M} {i : Impulse G F}
    (coherent : t.Coherent) (idle : t.stage.underway? = none) {y : Yielded G F}
    {origin : Option (HandlerSlot M)} {p : Purpose}
    (begins : (t.take registry i).stage = .dispatching y origin p) :
    origin = (t.take registry i).frames.head?.bind (·.slot) := by
  have moves (same : (t.take registry i).stage = t.stage) :
      origin = (t.take registry i).frames.head?.bind (·.slot) := by
    rw [← same, begins] at idle
    cases idle
  obtain ⟨filtered, handled, invoked, forked⟩ := answered_idle idle
  cases i with
  | cancel => exact moves stage_requestCancel
  | filtered accepts => exact moves (congrArg Task.stage (filtered accepts))
  | handled result => exact moves (congrArg Task.stage (handled result))
  | invoked result => exact moves (congrArg Task.stage (invoked result))
  | forked child => exact moves (congrArg Task.stage (forked child))
  | resumed signal g =>
    clear moves filtered handled invoked forked
    obtain ⟨id, canceled, frames, root, stage⟩ := t
    cases stage with
    | dispatching | offering | handling | invoking | forking | replacing | retiring | reporting =>
      cases idle
    | fresh | ready | dispatched | unwinding | settled => cases begins
    | resuming =>
      cases frames with
      | nil => cases begins
      | cons f rest =>
        cases signal with
        | complete outcome => cases begins
        | yielded y' =>
          simp only [Task.take, Task.resumed] at begins ⊢
          split at begins
          · cases begins
          · cases begins
            rfl
  | move =>
    clear moves filtered handled invoked forked
    have fresh := coherent.fresh
    obtain ⟨id, canceled, frames, root, stage⟩ := t
    cases stage with
    | dispatching | offering | handling | invoking | forking | replacing | retiring | reporting =>
      cases idle
    | resuming | settled => cases begins
    | fresh root' =>
      obtain rfl : frames = [] := fresh root' rfl
      cases canceled with
      | true => cases begins
      | false =>
        cases begins
        rfl
    | ready => cases frames <;> cases begins
    | dispatched result p' =>
      cases p' with
      | yielded => cases result <;> cases begins
      | deferred level prior =>
        simp only [Task.take, Task.step, Task.conclude] at begins
        split at begins <;> cases begins
    | unwinding =>
      cases frames with
      | nil => cases begins
      | cons f rest =>
        simp only [Task.take, Task.step, Task.unwind] at begins ⊢
        split at begins
        · cases begins
          rfl
        · cases rest with
          | nil => cases begins
          | cons below rest =>
            simp only [Task.handDown] at begins
            split at begins <;> cases begins

end Task

/-! ### Delegation -/

namespace Operation

/-- An operation in layers of `start` and `terminal`. -/
inductive Wraps (inner : Operation G F) : Operation G F → Prop
  | bare : Wraps inner inner
  | start {op : Operation G F} (wraps : Wraps inner op) : Wraps inner (.start op)
  | terminal {op : Operation G F} (wraps : Wraps inner op) : Wraps inner (.terminal op)

end Operation

/-- A frame that handles operations at `s` yields one with `next`, in layers or not, and it comes to
be handled at `s'`. -/
def Delegates (G F : Type) [Named G] (registry : Registry M) (s s' : HandlerSlot M) : Prop :=
  ∃ (t : Task G F M) (inner op : Operation G F) (p : Purpose) (impulses : List (Impulse G F))
    (m : M) (g : G), Operation.Wraps (.next inner) op ∧
    let d := (Dispatch.begin t op (some s) p).after registry impulses
    .handled m inner (.ok g) ∈ d.exchanges ∧ d.task.frames.head?.bind (·.slot) = some s'

section Delegation

open Exchange

variable {registry : Registry M} {origin : Option (HandlerSlot M)} {p : Purpose}
  {t t' u base : Task G F M} {op op' inner : Operation G F} {slot s s' : HandlerSlot M}
  {xs : List (Exchange G F M)} {stage : Stage G F M} {m : M} {result : Except Error G}

theorem not_handled_declines {ms : List M} :
    .handled m op result ∉ (declines op' ms : List (Exchange G F M)) := by
  simp [declines]

theorem not_handled_skipped {id : TaskId} {f : Frame G F M} :
    .handled m op result ∉ (skipped id f : List (Exchange G F M)) := by
  unfold skipped
  split <;> simp

theorem Sheds.not_handled (h : Sheds registry origin t op xs t' op') :
    .handled m inner result ∉ xs := by
  induction h with
  | none => exact List.not_mem_nil
  | more before undone ih =>
    intro member
    rcases List.mem_append.1 member with member | member
    · exact ih member
    · cases undone with
      | start => exact not_handled_declines member
      | terminal => simp [retirement, not_handled_declines, not_handled_skipped] at member

theorem Position.not_handled (h : Position registry origin p t op xs base stage) :
    .handled m inner result ∉ xs := by
  cases h <;> simp [not_handled_declines, not_handled_skipped]

/-- An operation that has been handled was the outermost layer left, and the frame stands for the
place of the middleware that accepted it. -/
theorem Ended.of_handled [Named G] {g : G} (h : Ended registry origin p t op xs u)
    (member : .handled m inner (.ok g) ∈ xs) : ∃ slot k,
      registry.entry origin op = .ok (inner, slot) ∧
        u.frames.head?.bind (·.slot) = some (slot.onward k) := by
  cases h with
  | handled k entry handler g' still =>
    simp only [List.mem_append, not_handled_declines, List.mem_cons, reduceCtorEq, false_or,
      Exchange.handled.injEq, List.not_mem_nil, or_false] at member
    obtain ⟨-, rfl, -⟩ := member
    exact ⟨_, k, entry, rfl⟩
  | _ => simp [not_handled_declines] at member

theorem entry_cases (entry : registry.entry origin op = .ok (op', slot)) :
    (op = op' ∧ slot = ⟨op.kind, registry.handlers op.kind, 0⟩) ∨
      op = .next op' ∧ ∃ s, origin = some s ∧ op'.kind = s.kind ∧ slot = s.onward 1 := by
  cases op with
  | next inner =>
    cases origin with
    | none => cases entry
    | some s =>
      simp only [Registry.entry] at entry
      split at entry
      · rename_i same
        cases entry
        exact .inr ⟨rfl, s, rfl, same, rfl⟩
      · cases entry
  | call | execute | fork | defer | recover | terminal | start | custom =>
    cases entry
    exact .inl ⟨rfl, rfl⟩

theorem sizeOf_entry (entry : registry.entry origin op = .ok (op', slot)) :
    sizeOf op' ≤ sizeOf op := by
  rcases entry_cases entry with ⟨rfl, -⟩ | ⟨rfl, -⟩
  · exact Nat.le_refl _
  · simp

theorem Undone.sizeOf_lt (h : Undone registry origin t op xs t' op') : sizeOf op' < sizeOf op := by
  cases h with
  | start entry | terminal entry =>
    have bound := sizeOf_entry entry
    simp only [Operation.start.sizeOf_spec, Operation.terminal.sizeOf_spec] at bound
    omega

/-- As long as the operation inside `next` has not been undone, the layers around are left. -/
theorem Sheds.wraps (h : Sheds registry origin t op xs t' op')
    (wraps : Operation.Wraps (.next inner) op) :
    Operation.Wraps (.next inner) op' ∨ sizeOf op' < sizeOf inner := by
  induction h with
  | none => exact .inl wraps
  | more before undone ih =>
    rcases ih with wraps | below
    · cases undone with
      | start entry | terminal entry =>
        cases wraps with
        | bare =>
          rcases entry_cases entry with ⟨same, -⟩ | ⟨same, -⟩
          · cases same
          · cases same
            simp
        | start wraps | terminal wraps =>
          rcases entry_cases entry with ⟨same, -⟩ | ⟨same, -⟩ <;> cases same <;> exact .inl wraps
    · exact .inr (Nat.lt_trans undone.sizeOf_lt below)

theorem Operation.Wraps.sizeOf_lt (h : Operation.Wraps (.next inner) op) :
    sizeOf inner < sizeOf op := by
  induction h with
  | bare => simp
  | start _ ih | terminal _ ih =>
    simp only [Operation.start.sizeOf_spec, Operation.terminal.sizeOf_spec]
    omega

/-- What is handed on goes to a place further on in the same chain. -/
theorem Delegates.further [Named G] (h : Delegates G F registry s s') :
    s.kind = s'.kind ∧ s.handlers = s'.handlers ∧ s.index < s'.index := by
  obtain ⟨t, inner, op, p, impulses, m, g, wraps, member, handler⟩ := h
  obtain ⟨xs, t', op', ys, passed, sheds, stands⟩ :=
    Dispatch.traced registry t op (some s) p impulses
  rw [passed] at member
  have member := (List.mem_append.1 member).resolve_left sheds.not_handled
  cases stands with
  | underway position still => exact absurd member position.not_handled
  | ended ended =>
    obtain ⟨slot, k, entry, place⟩ := ended.of_handled member
    obtain rfl : slot.onward k = s' := Option.some.inj (place.symm.trans handler)
    have bound := sizeOf_entry entry
    have delegated : slot = s.onward 1 := by
      rcases entry_cases entry with ⟨rfl, -⟩ | ⟨-, s₀, same, -, rfl⟩
      · rcases sheds.wraps wraps with wraps | below
        · exact absurd wraps.sizeOf_lt (Nat.lt_irrefl _)
        · exact absurd below (Nat.lt_irrefl _)
      · rw [Option.some.inj same]
    subst delegated
    refine ⟨rfl, rfl, ?_⟩
    simp only [HandlerSlot.onward]
    omega

end Delegation

/-! ### Routing -/

open Exchange in
/-- What a registry means for the dispatch of operations. -/
structure Routing (G F : Type) [Named G] (registry : Registry M) : Prop where
  /-- A chain holds the middleware of its kind in the order of registration. -/
  chain : ∀ kind i m, (registry.handlers kind)[i]? = some m ↔ ∃ before after,
    registry.registrations = before ++ ⟨kind, m⟩ :: after ∧
      (before.filter (·.kind == kind)).length = i
  /-- A handler frame stands for a place in the chain of its kind. -/
  slots : ∀ id (root : Yielded G F) impulses,
    ∀ f ∈ ((Run.start id root).after registry impulses).task.frames, ∀ slot ∈ f.slot,
      slot.handlers = registry.handlers slot.kind
  /-- A dispatch that begins has the slot of the frame on top: the one that yields the operation or
  that had deferred it. -/
  origin : ∀ id (root : Yielded G F) impulses i y origin p,
    let r := (Run.start id root).after registry impulses
    r.task.stage.underway? = none →
    (r.take registry i).task.stage = .dispatching y origin p →
    origin = (r.take registry i).task.frames.head?.bind (·.slot)
  /-- At any time, the layers that nobody took have been undone, and the next one has been offered
  to its chain from where `Registry.entry` says, up to the first that accepts it. -/
  traced : ∀ (t : Task G F M) op origin p impulses,
    ((Dispatch.begin t op origin p).after registry impulses).Traced registry origin p t op
  /-- If the first that accepts an operation is the `k`-th from there, it comes to handle it. -/
  handled : ∀ {t t' : Task G F M} {op op' op'' origin xs slot}, Sheds registry origin t op xs t' op' →
    registry.entry origin op' = .ok (op'', slot) → ∀ {k m}, slot.rest[k]? = some m →
    ∀ result p, ∃ impulses, (Dispatch.begin t op origin p).after registry impulses =
      ⟨(t'.become (.handling op'' (slot.onward k) p)).handled result,
        xs ++ (declines op'' (slot.rest.take k) ++
          [.filtered m op'' true, .handled m op'' result])⟩
  /-- If nobody accepts it, its built-in handling applies. -/
  untaken : ∀ {t t' : Task G F M} {op op' op'' origin xs slot}, Sheds registry origin t op xs t' op' →
    registry.entry origin op' = .ok (op'', slot) →
    ∀ p, ∃ impulses, (Dispatch.begin t op origin p).after registry impulses =
      ⟨(t'.core op'' origin p).1, xs ++ (declines op'' slot.rest ++
        ((t'.core op'' origin p).2.exchange? .move).toList)⟩
  /-- If it was yielded with `next` and there is no chain to go on with, the dispatch fails. -/
  misdirected : ∀ {t t' : Task G F M} {op op' origin xs e}, Sheds registry origin t op xs t' op' →
    registry.entry origin op' = .error e →
    ∀ p, ∃ impulses, (Dispatch.begin t op origin p).after registry impulses =
      ⟨t'.become (.dispatched (.error e) p), xs⟩
  /-- The built-in handling finds just custom operations unrecognized. -/
  unrecognized : ∀ (t : Task G F M) op origin p kind, t.core op origin p =
      (t.become (.dispatched (.error (.unrecognizedOperation kind)) p), .silent) ↔
    ∃ payload, op = .custom kind payload
  /-- Handler frames that hand an operation on one to the other stand ever further on in a chain. -/
  delegation : ∀ slots : List (HandlerSlot M), slots.IsChain (Delegates G F registry) →
    slots.Pairwise fun s s' => s.kind = s'.kind ∧ s.handlers = s'.handlers ∧ s.index < s'.index

theorem Registry.routing (G F : Type) [Named G] (registry : Registry M) :
    Routing G F registry where
  chain := registry.getElem?_handlers
  slots id root impulses f hf slot hs :=
    (Run.placed id root impulses).frames _ (List.mem_map_of_mem hf) slot hs
  origin id root impulses i y origin p idle begins :=
    Task.origin_of_begins (Run.coherent impulses) idle begins
  traced := Dispatch.traced registry
  handled sheds entry _ _ handler result p :=
    sheds.andThen (Dispatch.passes_handled entry handler result)
  untaken sheds entry p := sheds.andThen (Dispatch.passes_core entry)
  misdirected {_ _ _ _ _ xs _} sheds entry p :=
    (List.append_nil xs) ▸ sheds.andThen (Dispatch.passes_error entry)
  unrecognized t op origin p kind := Task.core_unrecognized
  delegation slots delegates := by
    let Further (s s' : HandlerSlot M) : Prop :=
      s.kind = s'.kind ∧ s.handlers = s'.handlers ∧ s.index < s'.index
    have further : slots.IsChain Further := delegates.imp fun s s' h => h.further
    have trans : Trans Further Further Further :=
      ⟨fun h h' => ⟨h.1.trans h'.1, h.2.1.trans h'.2.1, Nat.lt_trans h.2.2 h'.2.2⟩⟩
    exact further.pairwise

/-- However middleware was registered, operations go to it in the order of registration, and with
`next` further on in it. -/
theorem Registry.routes_in_order :
    (∀ program : Script.Program, List.Forall₂ Script.MiddlewareEntry.Fits
      (program.setup.flatMap Script.SetupEntry.entries) program.builder.registry.registrations) ∧
    ∀ (G F M : Type) [Named G] (registry : Registry M), Routing G F registry := by
  refine ⟨Script.Program.registrations_fit, fun G F M named registry => ?_⟩
  exact registry.routing G F

end EffectEngine
