import EffectEngine.Proofs.Task.Turn
import Mathlib.Data.List.Forall2

/-!
# The lives of frames

A `Ledger` tells the history of a task frame by frame: the `Life` of each live frame, and of each
frame that has left the stack. `Life.Phase.Goes` is what can happen to a single frame, which leaves
the stack at most once and has its deferred operations dispatched after its completion, the most
recently registered first. `Lawful` says that every life in the ledger follows it, and
`StackEvent.Shows` what each event in it is on the frames themselves.
-/

namespace EffectEngine

abbrev Life (G F : Type) := List (StackEvent G F)

/-- The lives of the frames of a task: of the live ones, the top one first, and of those that have
left the stack, the last one first. -/
structure Ledger (G F : Type) where
  live : List (Life G F)
  ended : List (Life G F)

namespace Ledger

variable {G F : Type}

def note (l : Ledger G F) (e : StackEvent G F) : Ledger G F :=
  match e, l.live with
  | .cancelled, _ => l
  | .pushed _, lives => { l with live := [e] :: lives }
  | .popped _, life :: lives | .replaced, life :: lives => ⟨lives, (life ++ [e]) :: l.ended⟩
  | .recovered, top :: life :: lives => { l with live := top :: (life ++ [e]) :: lives }
  | _, life :: lives => { l with live := (life ++ [e]) :: lives }
  | _, [] => l

def replay (history : List (StackEvent G F)) : Ledger G F := history.foldl note ⟨[], []⟩

end Ledger

/-- Labelled steps one after another. -/
inductive Path {σ α : Type} (step : σ → α → σ → Prop) (s : σ) : List α → σ → Prop
  | nil : Path step s [] s
  | snoc {as : List α} {u v : σ} {a : α} (path : Path step s as u) (last : step u a v) :
      Path step s (as ++ [a]) v

/-- How far a frame has come. The operations are those deferred and not yet dispatched, the most
recently registered first. -/
inductive Life.Phase (G F : Type) where
  | unborn
  | running (ops : List (Operation G F))
  | completed (ops : List (Operation G F))
  | popped
  | removed

namespace StackEvent

variable {G F : Type}

/-- Whether an event concerns neither the deferred operations of a completed frame nor its stay on
the stack. -/
def isIncidental : StackEvent G F → Bool
  | resumed _ | completed _ | discharged _ | recovered | stranded => true
  | _ => false

/-- Whether an event concerns all frames at once. -/
def isCommon : StackEvent G F → Bool
  | cancelled => true
  | _ => false

def registered? : StackEvent G F → Option (Operation G F)
  | registered op => some op
  | _ => none

def undertaken? : StackEvent G F → Option (Operation G F)
  | undertaken op => some op
  | _ => none

theorem registered?_of_isIncidental {e : StackEvent G F} (h : e.isIncidental = true) :
    e.registered? = none := by cases e <;> first | rfl | cases h

theorem undertaken?_of_isIncidental {e : StackEvent G F} (h : e.isIncidental = true) :
    e.undertaken? = none := by cases e <;> first | rfl | cases h

end StackEvent

namespace Life

variable {G F : Type}

def registered (life : Life G F) : List (Operation G F) := life.filterMap (·.registered?)

def undertaken (life : Life G F) : List (Operation G F) := life.filterMap (·.undertaken?)

theorem registered_snoc (life : Life G F) (e : StackEvent G F) :
    registered (life ++ [e]) = registered life ++ e.registered?.toList := by
  rw [registered, List.filterMap_append]
  cases h : e.registered? <;> simp [registered, h]

theorem undertaken_snoc (life : Life G F) (e : StackEvent G F) :
    undertaken (life ++ [e]) = undertaken life ++ e.undertaken?.toList := by
  rw [undertaken, List.filterMap_append]
  cases h : e.undertaken? <;> simp [undertaken, h]

end Life

namespace Life.Phase

variable {G F : Type}

inductive Goes : Life.Phase G F → StackEvent G F → Life.Phase G F → Prop
  | push (isShielded : Bool) : Goes unborn (.pushed isShielded) (running [])
  | resume (ops : List (Operation G F)) (input : Resume) :
      Goes (running ops) (.resumed input) (running ops)
  | register (ops : List (Operation G F)) (op : Operation G F) :
      Goes (running ops) (.registered op) (running (op :: ops))
  | replace (ops : List (Operation G F)) : Goes (running ops) .replaced removed
  | complete (ops : List (Operation G F)) (outcome : Outcome) :
      Goes (running ops) (.completed outcome) (completed ops)
  | registerLate (ops : List (Operation G F)) (op : Operation G F) :
      Goes (completed ops) (.registered op) (completed (op :: ops))
  | undertake (ops : List (Operation G F)) (op : Operation G F) :
      Goes (completed (op :: ops)) (.undertaken op) (completed ops)
  | linger (ops : List (Operation G F)) (e : StackEvent G F) (incidental : e.isIncidental = true) :
      Goes (completed ops) e (completed ops)
  | pop (outcome : Outcome) : Goes (completed []) (.popped outcome) popped

def pending : Life.Phase G F → List (Operation G F)
  | running ops | completed ops => ops
  | _ => []

/-- Unless a frame was replaced, the operations deferred on it are those dispatched and those still
pending. -/
theorem registered_perm {life : Life G F} {p : Life.Phase G F} (h : Path Goes unborn life p)
    (hp : p ≠ removed) : life.registered.Perm (life.undertaken ++ p.pending) := by
  induction h with
  | nil => exact .nil
  | @snoc es u v e path last ih =>
    rw [Life.registered_snoc, Life.undertaken_snoc]
    cases last with
    | replace => exact absurd rfl hp
    | push | resume | complete | pop =>
      simpa [StackEvent.registered?, StackEvent.undertaken?, pending] using ih nofun
    | linger ops _ he =>
      simpa [StackEvent.registered?_of_isIncidental he, StackEvent.undertaken?_of_isIncidental he]
        using ih nofun
    | register ops op | registerLate ops op =>
      have := (ih nofun).append_right [op]
      simp only [StackEvent.registered?, StackEvent.undertaken?, Option.toList, pending,
        List.append_assoc, List.append_nil] at this ⊢
      exact this.trans ((List.perm_append_singleton op ops).append_left _)
    | undertake ops op =>
      simpa [StackEvent.registered?, StackEvent.undertaken?, pending] using ih nofun

theorem undertaken_eq_nil {life : Life G F} {p : Life.Phase G F} (h : Path Goes unborn life p) :
    match p with
    | unborn | running _ | removed => life.undertaken = []
    | completed _ | popped => True := by
  induction h with
  | nil => rfl
  | @snoc es u v e path last ih =>
    cases last <;> first | trivial | (rw [Life.undertaken_snoc, ih]; rfl)

end Life.Phase

/-! ### The ledger of a task -/

namespace Ledger

variable {G F : Type} {l : Ledger G F} {life : Life G F} {lives : List (Life G F)}

def events (l : Ledger G F) : List (StackEvent G F) := (l.live ++ l.ended).flatten

theorem events_pushed (isShielded : Bool) :
    (l.note (.pushed isShielded)).events.Perm (l.events ++ [.pushed isShielded]) :=
  (List.perm_append_singleton _ _).symm

theorem events_top {e : StackEvent G F} (a b : List (StackEvent G F)) :
    (a ++ [e] ++ b).Perm (a ++ b ++ [e]) := by
  rw [List.append_assoc, List.append_assoc]
  exact (List.perm_append_comm).append_left a

/-- An event of a live frame is entered once. -/
theorem events_note {e : StackEvent G F} (hl : l.live ≠ []) (he : e.isCommon = false) :
    (l.note e).events.Perm (l.events ++ [e]) := by
  obtain ⟨live, ended⟩ := l
  obtain ⟨life, lives, rfl⟩ := List.exists_cons_of_ne_nil hl
  cases e with
  | pushed => exact events_pushed _
  | cancelled => cases he
  | popped | replaced =>
    have moved (e : StackEvent G F) : (lives.flatten ++ life ++ (ended.flatten ++ [e])).Perm
        (life ++ lives.flatten ++ (ended.flatten ++ [e])) := List.perm_append_comm.append_right _
    refine .trans ?_ (by simpa [events] using moved _)
    simpa [events, note] using events_top (lives.flatten ++ life) ended.flatten
  | recovered =>
    cases lives with
    | nil => simpa [events, note] using events_top life ended.flatten
    | cons second lives =>
      simpa [events, note] using events_top (life ++ second) (lives ++ ended).flatten
  | _ => simpa [events, note] using events_top life (lives ++ ended).flatten

theorem length_popped (outcome : Outcome) :
    (l.note (.popped outcome)).live.length = l.live.length - 1 := by
  obtain ⟨live, ended⟩ := l
  cases live <;> rfl

end Ledger

/-- The lives in a ledger follow `Life.Phase.Goes`: those of live frames up to the given phases, and
all others to the end. -/
structure Lawful {G F : Type} (l : Ledger G F) (phases : List (Life.Phase G F)) : Prop where
  live : List.Forall₂ (Path Life.Phase.Goes .unborn) l.live phases
  ended : ∀ life ∈ l.ended,
    Path Life.Phase.Goes .unborn life .popped ∨ Path Life.Phase.Goes .unborn life .removed

namespace Lawful

variable {G F : Type} {l : Ledger G F} {p q : Life.Phase G F} {ps : List (Life.Phase G F)}
  {e : StackEvent G F}

theorem pushed (h : Lawful l ps) (isShielded : Bool) :
    Lawful (l.note (.pushed isShielded)) (.running [] :: ps) :=
  ⟨.cons (.snoc .nil (.push isShielded)) h.live, h.ended⟩

theorem top (h : Lawful l (p :: ps)) (step : Life.Phase.Goes p e q)
    (he : ∀ life lives, (⟨life :: lives, l.ended⟩ : Ledger G F).note e =
      ⟨(life ++ [e]) :: lives, l.ended⟩) : Lawful (l.note e) (q :: ps) := by
  obtain ⟨live, ended⟩ := l
  obtain ⟨hlive, hended⟩ := h
  cases hlive with
  | cons path rest =>
    rw [he]
    exact ⟨.cons (path.snoc step) rest, hended⟩

theorem recovered {ops : List (Operation G F)} (h : Lawful l (p :: .completed ops :: ps)) :
    Lawful (l.note .recovered) (p :: .completed ops :: ps) := by
  obtain ⟨live, ended⟩ := l
  obtain ⟨hlive, hended⟩ := h
  cases hlive with
  | cons path rest =>
    cases rest with
    | cons path' rest => exact ⟨.cons path (.cons (path'.snoc (.linger ops _ rfl)) rest), hended⟩

theorem popped (h : Lawful l (.completed [] :: ps)) (outcome : Outcome) :
    Lawful (l.note (.popped outcome)) ps := by
  obtain ⟨live, ended⟩ := l
  obtain ⟨hlive, hended⟩ := h
  cases hlive with
  | cons path rest => exact ⟨rest, List.forall_mem_cons.2 ⟨.inl (path.snoc (.pop outcome)), hended⟩⟩

theorem replaced {ops : List (Operation G F)} (h : Lawful l (.running ops :: ps)) :
    Lawful (l.note .replaced) ps := by
  obtain ⟨live, ended⟩ := l
  obtain ⟨hlive, hended⟩ := h
  cases hlive with
  | cons path rest => exact ⟨rest, List.forall_mem_cons.2 ⟨.inr (path.snoc (.replace ops)), hended⟩⟩

end Lawful

def Frame.phase {G F M : Type} (f : Frame G F M) : Life.Phase G F :=
  if f.completed then .completed f.defers else .running f.defers

namespace Frame

variable {G F M : Type} {f : Frame G F M}

theorem phase_of_completed (h : f.completed = true) : f.phase = .completed f.defers := if_pos h

theorem phase_of_running (h : f.completed = false) : f.phase = .running f.defers := by
  simp [phase, h]

theorem phase_resume (f : Frame G F M) (input : Resume) :
    Life.Phase.Goes f.phase (.resumed input) f.phase := by
  unfold phase
  split
  · exact .linger _ _ rfl
  · exact .resume _ _

theorem phase_complete (f : Frame G F M) (outcome : Outcome) :
    Life.Phase.Goes f.phase (.completed outcome) (.completed f.defers) := by
  unfold phase
  split
  · exact .linger _ _ rfl
  · exact .complete _ _

theorem phase_register (f : Frame G F M) (op : Operation G F) :
    Life.Phase.Goes f.phase (.registered op) { f with defers := op :: f.defers }.phase := by
  unfold phase
  split
  · exact .registerLate _ _
  · exact .register _ _

end Frame

namespace Task

variable {G F M : Type} {t t' : Task G F M} {es : List (StackEvent G F)} {l : Ledger G F}

def phases (t : Task G F M) : List (Life.Phase G F) := t.frames.map (·.phase)

theorem phases_setCurrent (outcome : Outcome) : (t.setCurrent outcome).phases = t.phases :=
  map_setCurrent (fun _ _ => rfl) outcome

theorem phases_conclude (result : Except Error Unit) :
    (t.conclude result .yielded).phases = t.phases :=
  map_conclude (fun _ _ => rfl) result

theorem phases_handDown {outcome : Outcome} {rest : List (Frame G F M)} :
    (t.handDown outcome rest).phases = rest.map (·.phase) :=
  map_handDown (fun _ _ => rfl) outcome rest

theorem lawful_turn (h : Lawful l t.phases) (turn : Turn t es t') :
    Lawful (es.foldl Ledger.note l) t'.phases := by
  cases turn with
  | idle | quiet | onwards => exact h
  | pushed g name slot p => exact h.pushed _
  | forked outcome => rw [← phases_setCurrent outcome] at h; exact h
  | returned result => rw [phases_conclude]; exact h
  | suspended f rest g y stage frames | entrusted new f rest prior stage frames =>
    simpa [phases, frames, Frame.phase] using h
  | cancelled => simpa [Ledger.note, phases, Frame.phase, Function.comp_def] using h
  | resumed f rest stage frames =>
    rw [phases, frames] at h
    exact h.top (f.phase_resume _) fun _ _ => rfl
  | completed f rest g outcome stage frames =>
    rw [phases, frames] at h
    exact h.top (f.phase_complete _) fun _ _ => rfl
  | registered f rest op p purpose fits frames =>
    rw [phases, frames] at h
    exact h.top (f.phase_register _) fun _ _ => rfl
  | recovered top below rest e p purpose fits frames done =>
    rw [phases, frames, List.map_cons, List.map_cons, Frame.phase_of_completed done] at h
    simpa [phases, Frame.phase, done] using h.recovered
  | replaced f rest inner origin purpose frames running =>
    rw [phases, frames, List.map_cons, Frame.phase_of_running running] at h
    exact h.replaced
  | stranded f rest result stage frames done =>
    rw [phases_conclude]
    rw [phases, frames, List.map_cons, Frame.phase_of_completed done] at h ⊢
    exact h.top (.linger _ _ rfl) fun _ _ => rfl
  | discharged f rest result prior stage frames done =>
    rw [phases, frames, List.map_cons, Frame.phase_of_completed done] at h
    simp only [phases, List.map_cons, Frame.phase, done, if_true]
    exact h.top (.linger _ _ rfl) fun _ _ => rfl
  | undertaken f rest op ops stage frames done defers =>
    rw [phases, frames, List.map_cons, Frame.phase_of_completed done, defers] at h
    simp only [phases, List.map_cons, Frame.phase, done, if_true]
    exact h.top (.undertake _ _) fun _ _ => rfl
  | popped f rest stage frames done defers =>
    rw [phases, frames, List.map_cons, Frame.phase_of_completed done, defers] at h
    have popped := h.popped f.result
    rw [phases_handDown, List.foldl_cons]
    cases rest with
    | nil => exact popped
    | cons below rest =>
      rw [List.head?_cons, Option.any_some]
      by_cases hd : below.completed = true
      · rw [if_pos hd]
        rw [List.map_cons, Frame.phase_of_completed hd] at popped ⊢
        exact popped.top (.linger _ _ rfl) fun _ _ => rfl
      · rw [if_neg hd]
        exact popped

theorem events_turn (h : l.live.length = t.frames.length) (turn : Turn t es t') :
    (es.foldl Ledger.note l).events.Perm (l.events ++ es.filter (!·.isCommon)) := by
  have entered {f : Frame G F M} {rest : List (Frame G F M)} (hf : t.frames = f :: rest)
      {e : StackEvent G F} (he : e.isCommon = false) : (l.note e).events.Perm (l.events ++ [e]) :=
    Ledger.events_note (fun hl => by rw [hf, hl] at h; cases h) he
  cases turn with
  | idle | quiet | onwards | suspended | forked | returned | entrusted | cancelled =>
    simp [StackEvent.isCommon, Ledger.note]
  | pushed => exact Ledger.events_pushed _
  | resumed f rest stage frames | completed f rest g outcome stage frames
  | registered f rest op p purpose fits frames
  | recovered top below rest e p purpose fits frames
  | replaced f rest inner origin purpose frames
  | stranded f rest result stage frames
  | discharged f rest result prior stage frames
  | undertaken f rest op ops stage frames => exact entered frames rfl
  | popped f rest stage frames =>
    have popped := entered frames (e := .popped f.result) rfl
    rw [List.foldl_cons]
    split
    · rename_i hd
      -- The deferred operation whose frame was popped is one of the frame below.
      have live : (l.note (.popped f.result)).live ≠ [] := fun hl => by
        have := Ledger.length_popped (l := l) f.result
        rw [hl, h, frames] at this
        rw [List.eq_nil_of_length_eq_zero this.symm] at hd
        simp at hd
      have discharged := Ledger.events_note live (e := .discharged (verdict f.result)) rfl
      simpa [StackEvent.isCommon] using discharged.trans (popped.append_right _)
    · exact popped

end Task

/-- What an event is on the frames and the stage of a task `t` that comes to be `t'`. -/
def StackEvent.Shows {G F M : Type} (t t' : Task G F M) : StackEvent G F → Prop
  | pushed _ => ∃ new, t'.frames = new :: t.frames ∧ new.completed = false ∧ new.defers = []
  | resumed input => ∃ f rest, t.stage = .ready ∧ t.frames = f :: rest ∧ input = f.input ∧
      t' = (t.resumeTop f rest).1
  | completed outcome => ∃ f rest g, t.stage = .resuming ∧ t.frames = f :: rest ∧
      t'.frames = { f with generator := g, result := outcome, completed := true } :: rest ∧
      t'.stage = .unwinding
  | registered op => ∃ f rest, t.frames = f :: rest ∧
      t'.frames = { f with defers := op :: f.defers } :: rest
  | undertaken op => ∃ f rest ops, t.stage = .unwinding ∧ t.frames = f :: rest ∧
      f.completed = true ∧ f.defers = op :: ops ∧
      t'.frames = { f with defers := ops, result := .ok .null } :: rest ∧
      t'.stage = .dispatching (.operation op) f.slot (.deferred (rest.length + 1) f.result)
  | discharged _ => ∃ f rest, t'.frames = f :: rest ∧ f.completed = true ∧ t'.stage = .unwinding
  | popped outcome => ∃ f rest, t.stage = .unwinding ∧ t.frames = f :: rest ∧
      f.completed = true ∧ f.defers = [] ∧ f.result = outcome ∧ t' = t.handDown outcome rest
  | replaced => ∃ f rest inner origin, t.frames = f :: rest ∧ f.completed = false ∧
      t'.frames = rest ∧ t'.stage = .replacing f inner origin .yielded
  | recovered | stranded | cancelled => t'.phases = t.phases

namespace Task

variable {G F M : Type} {t t' : Task G F M} {es : List (StackEvent G F)}

theorem Turn.shows (turn : Turn t es t') {e : StackEvent G F} (he : e ∈ es) : e.Shows t t' := by
  have only {e' : StackEvent G F} (he : e ∈ [e']) (h : e'.Shows t t') : e.Shows t t' := by
    rwa [List.mem_singleton.1 he]
  cases turn with
  | idle | quiet | onwards | suspended | forked | returned | entrusted => cases he
  | pushed => exact only he ⟨_, rfl, rfl, rfl⟩
  | resumed f rest stage frames => exact only he ⟨f, rest, stage, frames, rfl, rfl⟩
  | completed f rest g outcome stage frames => exact only he ⟨f, rest, g, stage, frames, rfl, rfl⟩
  | registered f rest op p underway fits frames => exact only he ⟨f, rest, frames, rfl⟩
  | recovered top below rest e p underway fits frames =>
    exact only he (by simp [StackEvent.Shows, phases, frames, Frame.phase])
  | replaced f rest inner origin underway frames running =>
    exact only he ⟨f, rest, inner, origin, frames, running, rfl, rfl⟩
  | stranded f rest result => exact only he (phases_conclude result)
  | discharged f rest result prior stage frames done => exact only he ⟨_, rest, rfl, done, rfl⟩
  | undertaken f rest op ops stage frames done defers =>
    exact only he ⟨f, rest, ops, stage, frames, done, defers, rfl, rfl⟩
  | popped f rest stage frames done defers =>
    rcases List.mem_cons.1 he with rfl | he
    · exact ⟨f, rest, stage, frames, done, defers, rfl, rfl⟩
    · -- The frame below had undertaken the operation that ends with the frame popped.
      cases rest with
      | nil => cases he
      | cons below rest =>
        cases hd : below.completed with
        | false => simp [hd] at he
        | true =>
          rw [List.head?_cons, Option.any_some, if_pos hd] at he
          exact only he ⟨_, rest, rfl, receive_completed below f.result ▸ hd, if_pos hd⟩
  | cancelled => exact only he (by simp [StackEvent.Shows, phases, Frame.phase])

end Task

namespace Run

variable {G F M : Type} [Named G] {registry : Registry M} {id : TaskId} {root : Yielded G F}

theorem lawful (impulses : List (Impulse G F)) :
    let r : Run G F M := (start id root).after registry impulses
    Lawful (Ledger.replay r.history) r.task.phases := by
  refine turn_induction (P := fun r => Lawful (Ledger.replay r.history) r.task.phases)
    ⟨.nil, nofun⟩ ?_ impulses
  intro t h es t' _ turn ih
  rw [Ledger.replay, List.foldl_append]
  exact Task.lawful_turn ih turn

theorem events_perm (impulses : List (Impulse G F)) :
    let r : Run G F M := (start id root).after registry impulses
    (Ledger.replay r.history).events.Perm (r.history.filter (!·.isCommon)) := by
  -- The ledger takes in every event because it has as many lives as there are frames.
  refine (turn_induction (P := fun r => Lawful (Ledger.replay r.history) r.task.phases ∧
    (Ledger.replay r.history).events.Perm (r.history.filter (!·.isCommon)))
    ⟨⟨.nil, nofun⟩, .nil⟩ ?_ impulses).2
  intro t h es t' _ turn ih
  obtain ⟨lawful, perm⟩ := ih
  rw [Ledger.replay, List.foldl_append, List.filter_append]
  constructor
  · exact Task.lawful_turn lawful turn
  · have length : (Ledger.replay h).live.length = t.frames.length := by
      rw [lawful.live.length_eq, Task.phases, List.length_map]
    exact (Task.events_turn length turn).trans (perm.append_right _)

/-- When a task settles, no frame is left. Every frame that was ever pushed has either completed and
was then popped, with each operation deferred on it dispatched once in the meantime, the most
recently registered first, or it was replaced and none of them was dispatched. Nothing else happened
to any frame: at all times the lives in the ledger are those of the frames on the stack, and each
event entered is one of these frames changing. -/
theorem settled_lives (registry : Registry M) (id : TaskId) (root : Yielded G F)
    (impulses : List (Impulse G F)) (outcome : Outcome)
    (settled :
      ((start id root).after registry impulses : Run G F M).task.stage = .settled outcome) :
    let r : Run G F M := (start id root).after registry impulses
    let ledger := Ledger.replay r.history
    r.task.frames = [] ∧ ledger.live = [] ∧
    ledger.ended.flatten.Perm (r.history.filter (!·.isCommon)) ∧
    (∀ life ∈ ledger.ended,
      (Path Life.Phase.Goes .unborn life .popped ∧ life.registered.Perm life.undertaken) ∨
      (Path Life.Phase.Goes .unborn life .removed ∧ life.undertaken = [])) ∧
    ∀ before i later, impulses = before ++ i :: later →
      let s : Run G F M := (start id root).after registry before
      List.Forall₂ (Path Life.Phase.Goes .unborn) (Ledger.replay s.history).live s.task.phases ∧
      ∀ e ∈ s.task.observe registry i, e.Shows s.task (s.task.take registry i) := by
  intro r ledger
  have empty : r.task.frames = [] := (Run.coherent impulses).settled outcome settled
  have lawful : Lawful ledger r.task.phases := Run.lawful impulses
  have gone : ledger.live = [] := by
    have := lawful.live
    rw [Task.phases, empty] at this
    exact List.forall₂_nil_right_iff.1 this
  refine ⟨empty, gone, ?_, ?_, ?_⟩
  · have perm : ledger.events.Perm (r.history.filter (!·.isCommon)) := events_perm impulses
    rwa [Ledger.events, gone, List.nil_append] at perm
  · intro life hl
    rcases lawful.ended life hl with path | path
    · have perm := Life.Phase.registered_perm path nofun
      simp only [Life.Phase.pending, List.append_nil] at perm
      exact .inl ⟨path, perm⟩
    · exact .inr ⟨path, Life.Phase.undertaken_eq_nil path⟩
  · intro before i _ _ s
    have turn : s.task.Turn (s.task.observe registry i) (s.task.take registry i) :=
      Task.turn_take (Run.coherent before) i
    exact ⟨(Run.lawful before).live, fun e he => turn.shows he⟩

/-- A frame with two deferred operations calls a function whose frame, with one of its own, replaces
itself. The task is cancelled before the frame that takes its place is pushed. -/
theorem settled_lives_deferring :
    let main : Stub := ⟨"main"⟩
    let helper : Stub := ⟨"helper"⟩
    let tail : Stub := ⟨"tail"⟩
    let cleanup : Stub := ⟨"cleanup"⟩
    let call : Operation Stub Unit := .call () []
    let yields (op : Operation Stub Unit) : Signal Stub Unit := .yielded (.operation op)
    let returns (outcome : Outcome) : Signal Stub Unit := .complete outcome
    let upTo (moves : Nat) (i : Impulse Stub Unit) : List (Impulse Stub Unit) :=
      .replicate moves .move ++ [i]
    let impulses : List (Impulse Stub Unit) := [
      upTo 4 (.resumed (yields (.defer call)) main),
      upTo 4 (.resumed (yields (.defer .recover)) main),
      upTo 4 (.resumed (yields call) main),
      upTo 2 (.invoked (.ok helper)),
      upTo 2 (.resumed (yields (.defer call)) helper),
      upTo 4 (.resumed (yields (.terminal call)) helper),
      upTo 3 (.resumed (returns (.error .interrupted)) helper),
      upTo 2 .cancel,
      upTo 0 (.invoked (.ok tail)),
      upTo 2 (.resumed (returns (.error .interrupted)) tail),
      upTo 2 (.resumed (returns (.error .interrupted)) main),
      upTo 7 (.invoked (.ok cleanup)),
      upTo 2 (.resumed (returns (.ok .null)) cleanup),
      upTo 2 .move].flatten
    let r : Run Stub Unit Unit := (start default (.generator main)).after default impulses
    let ledger := Ledger.replay r.history
    r.task.isSettled = true ∧ r.task.canceled = true ∧
    ledger.ended.map (·.registered.map (·.kind)) = [["call", "recover"], [], [], ["call"]] ∧
    ledger.ended.map (·.undertaken.map (·.kind)) = [["recover", "call"], [], [], []] ∧
    r.task.frames = [] ∧ ledger.live = [] ∧
    ledger.ended.flatten.Perm (r.history.filter (!·.isCommon)) ∧
    (∀ life ∈ ledger.ended,
      (Path Life.Phase.Goes .unborn life .popped ∧ life.registered.Perm life.undertaken) ∨
      (Path Life.Phase.Goes .unborn life .removed ∧ life.undertaken = [])) ∧
    ∀ before i later, impulses = before ++ i :: later →
      let s : Run Stub Unit Unit := (start default (.generator main)).after default before
      List.Forall₂ (Path Life.Phase.Goes .unborn) (Ledger.replay s.history).live s.task.phases ∧
      ∀ e ∈ s.task.observe default i, e.Shows s.task (s.task.take default i) := by
  intro main helper tail cleanup call yields returns upTo impulses r ledger
  have settled : r.task.isSettled = true := by decide +kernel
  obtain ⟨outcome, stage⟩ := Task.isSettled_iff.1 settled
  exact ⟨settled, by decide +kernel, by decide +kernel, by decide +kernel,
    settled_lives _ _ _ impulses outcome stage⟩

end Run

end EffectEngine
