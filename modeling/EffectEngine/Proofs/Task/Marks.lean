import EffectEngine.Proofs.Task.Turn

/-!
# Cancellation marks

A `Board` keeps one mark per frame apart from the frames, the bottom one first, and changes it only
with what happens to the stack. `Standing canceled frames` is the invariant on the marks of a stack:
which mark a frame may carry depends on the frame below it alone, and it determines the shape of the
whole board (`Regular`).
-/

namespace EffectEngine

/-- Whether a cancellation was requested, and the marks of the live frames, the bottom one first. -/
structure Board where
  canceled : Bool
  marks : List Mark

namespace Board

def pushMark (b : Board) (isShielded : Bool) : Board :=
  { b with marks := b.marks ++ [.pushed isShielded b.canceled b.marks.getLast?] }

def popMark (b : Board) : Board := { b with marks := b.marks.dropLast }

/-- Consumes a pending cancellation of the frame at `depth`. -/
def beginForcedReturn (b : Board) (depth : Nat) : Board :=
  if b.marks[depth]? = some .pending then { b with marks := b.marks.set depth .forced } else b

def requestCancel (b : Board) : Board := ⟨true, b.marks.map Mark.cancel⟩

variable {G F : Type} {b : Board} {k : Nat} {e : StackEvent G F}

/-- What the driver and the handles of a task do to its board. -/
def note (b : Board) : StackEvent G F → Board
  | .pushed isShielded => b.pushMark isShielded
  | .resumed _ => b.beginForcedReturn (b.marks.length - 1)
  | .popped _ | .replaced => b.popMark
  | .cancelled => b.requestCancel
  | _ => b

def replay (history : List (StackEvent G F)) : Board := history.foldl note ⟨false, []⟩

theorem note_forced (h : b.marks[k]? = some .forced) (hk : k < (b.note e).marks.length) :
    (b.note e).marks[k]? = some .forced := by
  have hk' : k < b.marks.length := (List.getElem?_eq_some_iff.1 h).1
  cases e with
  | pushed => exact (List.getElem?_append_left hk').trans h
  | resumed =>
    simp only [note, beginForcedReturn]
    split
    · rw [List.getElem?_set]; split <;> simp_all
    · exact h
  | popped | replaced =>
    simp only [note, popMark, List.length_dropLast] at hk ⊢
    rw [List.getElem?_dropLast, if_pos hk, h]
  | cancelled => simp [note, requestCancel, h, Mark.cancel]
  | _ => exact h

end Board

/-- The shape of the marks, the bottom one first: before a cancellation clear ones and then shielded
ones, afterwards pending ones, possibly a frame in its forced return with clear ones on it, and then
shielded ones. -/
def Regular (canceled : Bool) (marks : List Mark) : Prop :=
  if canceled then
    (∃ p s, marks = .replicate p .pending ++ .replicate s .shielded) ∨
    (∃ p c s, marks = .replicate p .pending ++ .forced :: .replicate c .clear ++
      .replicate s .shielded)
  else ∃ c s, marks = .replicate c .clear ++ .replicate s .shielded

/-- What the mark of the frame above depends on. -/
structure Footing where
  mark : Mark
  completed : Bool

namespace Footing

def cancel (f : Footing) : Footing := { f with mark := f.mark.cancel }

end Footing

/-- Whether a frame may carry a mark, given the footing that the frame below it offers. -/
def Admitted (canceled : Bool) (below? : Option Footing) : Mark → Prop
  | .shielded => ∃ b, below? = some b ∧ (b.completed = true ∨ b.mark = .shielded)
  | .clear =>
    if canceled then ∃ b, below? = some b ∧ (b.mark = .forced ∨ b.mark = .clear)
    else ∀ b, below? = some b → b.mark = .clear
  | .pending | .forced => canceled = true ∧ ∀ b, below? = some b → b.mark = .pending

/-- Every frame of a stack, the top one first, carries a mark that the frame below it admits. -/
inductive Standing (canceled : Bool) : List Footing → Prop
  | nil : Standing canceled []
  | cons {f : Footing} {rest : List Footing} (admitted : Admitted canceled rest.head? f.mark)
      (below : Standing canceled rest) : Standing canceled (f :: rest)

namespace Standing

variable {c : Bool} {f g : Footing} {stack rest : List Footing}

theorem tail (h : Standing c (f :: rest)) : Standing c rest := by cases h; assumption

theorem admitted (h : Standing c (f :: rest)) : Admitted c rest.head? f.mark := by
  cases h; assumption

theorem pushed (isShielded : Bool) (h : Standing c stack)
    (hs : isShielded = true → ∃ f rest, stack = f :: rest ∧ f.completed = true) :
    Admitted c stack.head? (.pushed isShielded c (stack.head?.map (·.mark))) := by
  unfold Mark.pushed
  split
  · obtain ⟨f, rest, rfl, hf⟩ := hs ‹_›
    exact ⟨f, rfl, .inl hf⟩
  · cases h with
    | nil => cases c <;> simp [Admitted]
    | @cons f rest admitted below =>
      rw [List.head?_cons, Option.map_some]
      cases hm : f.mark <;> rw [hm] at admitted <;> cases c <;> simp_all [Admitted]

theorem cancel (h : Standing false stack) : Standing true (stack.map Footing.cancel) := by
  induction h with
  | nil => exact .nil
  | @cons f rest admitted below ih =>
    refine .cons ?_ ih
    show Admitted true _ f.mark.cancel
    rw [List.head?_map]
    cases hm : f.mark <;> rw [hm] at admitted
    case clear =>
      refine ⟨rfl, fun b hb => ?_⟩
      obtain ⟨b', hb', rfl⟩ := Option.map_eq_some_iff.1 hb
      simp [Footing.cancel, admitted b' hb', Mark.cancel]
    case pending | forced => cases admitted.1
    case shielded =>
      obtain ⟨b, hb, hd⟩ := admitted
      exact ⟨b.cancel, by rw [hb]; rfl,
        hd.imp id fun hs => by simp [Footing.cancel, hs, Mark.cancel]⟩

/-! ### The shape of a standing stack -/

theorem eq_clear (h : Standing false stack) (hc : ∀ b, stack.head? = some b → b.mark = .clear) :
    stack.map (·.mark) = .replicate stack.length .clear := by
  induction h with
  | nil => rfl
  | @cons f rest admitted below ih =>
    have hf := hc f rfl
    rw [hf] at admitted
    rw [List.map_cons, hf, ih admitted, List.length_cons, List.replicate_succ]

theorem eq_pending (h : Standing c stack) (hp : ∀ b, stack.head? = some b → b.mark = .pending) :
    stack.map (·.mark) = .replicate stack.length .pending := by
  induction h with
  | nil => rfl
  | @cons f rest admitted below ih =>
    have hf := hp f rfl
    rw [hf] at admitted
    rw [List.map_cons, hf, ih admitted.2, List.length_cons, List.replicate_succ]

/-- In a cancelled stack, the clear frames on top stand on one in its forced return. -/
theorem eq_forced (h : Standing true (f :: rest)) (hf : f.mark = .forced ∨ f.mark = .clear) :
    ∃ n p, (f :: rest).map (·.mark) = .replicate n .clear ++ .forced :: .replicate p .pending := by
  induction rest generalizing f with
  | nil =>
    rcases hf with hf | hf
    · exact ⟨0, 0, by simp [hf]⟩
    · obtain ⟨b, hb, -⟩ := hf ▸ h.admitted
      cases hb
  | cons g rest ih =>
    have admitted := h.admitted
    rcases hf with hf | hf <;> rw [hf] at admitted
    · exact ⟨0, _, by rw [List.map_cons, hf, h.tail.eq_pending admitted.2]; rfl⟩
    · obtain ⟨b, hb, hg⟩ := admitted
      obtain rfl : g = b := Option.some.inj hb
      obtain ⟨n, p, hr⟩ := ih h.tail hg
      exact ⟨n + 1, p, by rw [List.map_cons, hf, hr]; rfl⟩

/-- Without a cancellation no mark is pending or forced. -/
theorem calm (h : Standing false stack) : ∀ f ∈ stack, f.mark = .clear ∨ f.mark = .shielded := by
  induction h with
  | nil => exact nofun
  | @cons f rest admitted below ih =>
    refine List.forall_mem_cons.2 ⟨?_, ih⟩
    cases mark : f.mark with
    | clear => exact .inl rfl
    | shielded => exact .inr rfl
    | pending | forced =>
      rw [mark] at admitted
      exact absurd admitted.1 nofun

theorem regular (h : Standing c stack) : Regular c (stack.map (·.mark)).reverse := by
  induction stack with
  | nil =>
    cases c with
    | false => exact ⟨0, 0, rfl⟩
    | true => exact .inl ⟨0, 0, rfl⟩
  | cons f rest ih =>
    have admitted := h.admitted
    cases hm : f.mark <;> rw [hm] at admitted
    case shielded =>
      -- Only here the shape grows on top of the one below; the other marks determine all of it.
      rw [List.map_cons, List.reverse_cons, hm]
      have := ih h.tail
      cases c with
      | false =>
        obtain ⟨n, s, hr⟩ := this
        exact ⟨n, s + 1, by rw [hr, List.append_assoc, ← List.replicate_succ']⟩
      | true =>
        rcases this with ⟨p, s, hr⟩ | ⟨p, n, s, hr⟩
        · exact .inl ⟨p, s + 1, by rw [hr, List.append_assoc, ← List.replicate_succ']⟩
        · exact .inr ⟨p, n, s + 1, by rw [hr, List.append_assoc, ← List.replicate_succ']⟩
    case clear =>
      cases c with
      | false =>
        refine ⟨rest.length + 1, 0, ?_⟩
        rw [h.eq_clear fun b hb => by rw [← Option.some.inj hb, hm]]
        simp
      | true =>
        obtain ⟨n, p, hr⟩ := h.eq_forced (.inr hm)
        exact .inr ⟨p, n, 0, by simp [hr]⟩
    case pending =>
      rw [admitted.1, h.eq_pending fun b hb => by rw [← Option.some.inj hb, hm]]
      exact .inl ⟨rest.length + 1, 0, by simp⟩
    case forced =>
      rw [List.map_cons, h.tail.eq_pending admitted.2, admitted.1, hm]
      exact .inr ⟨rest.length, 0, 0, by simp⟩

/-- A shielded frame stands, possibly over other shielded ones, on a completed one. -/
theorem shielded (h : Standing c stack) {above below : List Footing}
    (hs : stack = above ++ f :: below) (hf : f.mark = .shielded) :
    ∃ g ∈ below, g.completed = true := by
  induction above generalizing stack with
  | cons a above ih => subst hs; exact ih h.tail rfl
  | nil =>
    subst hs
    rw [List.nil_append] at h
    induction below generalizing f with
    | nil => obtain ⟨b, hb, -⟩ := hf ▸ h.admitted; cases hb
    | cons g below ih =>
      have admitted := h.admitted
      rw [hf] at admitted
      obtain ⟨b, hb, hd | hg⟩ := admitted
      · exact ⟨g, List.mem_cons_self, by rw [Option.some.inj hb, hd]⟩
      · obtain ⟨b', hb', hd⟩ := ih (by rw [Option.some.inj hb, hg]) h.tail
        exact ⟨b', List.mem_cons_of_mem _ hb', hd⟩

end Standing

/-! ### The marks of a task -/

def Frame.footing {G F M : Type} (f : Frame G F M) : Footing := ⟨f.mark, f.completed⟩

namespace Task

variable {G F M : Type} {t t' : Task G F M} {es : List (StackEvent G F)}

def footings (t : Task G F M) : List Footing := t.frames.map (·.footing)

def board (t : Task G F M) : Board := ⟨t.canceled, (t.frames.map (·.mark)).reverse⟩

theorem footings_setCurrent (outcome : Outcome) : (t.setCurrent outcome).footings = t.footings :=
  map_setCurrent (fun _ _ => rfl) outcome

theorem canceled_setCurrent (outcome : Outcome) : (t.setCurrent outcome).canceled = t.canceled := by
  unfold setCurrent; split <;> rfl

theorem footings_conclude (result : Except Error Unit) :
    (t.conclude result .yielded).footings = t.footings :=
  map_conclude (fun _ _ => rfl) result

theorem canceled_conclude (result : Except Error Unit) :
    (t.conclude result .yielded).canceled = t.canceled := by
  cases result with
  | ok => rfl
  | error e => exact canceled_setCurrent _

theorem footings_handDown {outcome : Outcome} {rest : List (Frame G F M)} :
    (t.handDown outcome rest).footings = rest.map (·.footing) :=
  map_handDown (fun _ _ => rfl) outcome rest

theorem canceled_handDown {outcome : Outcome} {rest : List (Frame G F M)} :
    (t.handDown outcome rest).canceled = t.canceled := by cases rest <;> rfl

theorem standing_turn (h : Standing t.canceled t.footings) (turn : Turn t es t') :
    Standing t'.canceled t'.footings := by
  cases turn with
  | idle | quiet | onwards => exact h
  | pushed g name slot p purpose fits =>
    refine .cons ?_ h
    have := h.pushed p.shields fun hp => ?_
    · simpa [footings, Frame.footing, push, Function.comp_def] using this
    · cases p with
      | yielded => cases hp
      | deferred level prior =>
        obtain ⟨f, rest, hf, hd, -⟩ := fits
        exact ⟨f.footing, rest.map (·.footing), by simp [footings, hf], hd⟩
  | resumed f rest stage frames =>
    rw [footings, frames] at h
    refine .cons ?_ h.tail
    have admitted := h.admitted
    show Admitted _ _ (if f.mark == .pending then Mark.forced else f.mark)
    split
    · rename_i hm
      simpa [Frame.footing, beq_iff_eq.1 hm, resumeTop, Admitted] using admitted
    · exact admitted
  | popped f rest stage frames =>
    rw [footings, frames] at h
    rw [canceled_handDown, footings_handDown]
    exact h.tail
  | replaced f rest inner origin purpose frames => rw [footings, frames] at h; exact h.tail
  | cancelled _ hc =>
    rw [hc] at h
    simpa [footings, Footing.cancel, Frame.footing, Function.comp_def] using h.cancel
  | forked outcome p =>
    rw [← footings_setCurrent outcome, ← canceled_setCurrent outcome] at h
    exact h
  | returned result | stranded f rest result =>
    rw [footings_conclude, canceled_conclude]; exact h
  | completed f rest g outcome stage frames =>
    rw [footings, frames] at h
    exact .cons h.admitted h.tail
  | suspended f rest g y stage frames | registered f rest op p purpose fits frames
  | recovered top below rest e p purpose fits frames
  | discharged f rest result prior stage frames
  | entrusted new f rest prior stage frames
  | undertaken f rest op ops stage frames =>
    simpa [footings, frames, Frame.footing] using h

theorem board_eq : t.board = ⟨t.canceled, (t.footings.map (·.mark)).reverse⟩ := by
  rw [board, footings, List.map_map]; rfl

theorem board_congr (hc : t'.canceled = t.canceled) (hf : t'.footings = t.footings) :
    t'.board = t.board := by rw [board_eq, board_eq, hc, hf]

theorem board_resumeTop {f : Frame G F M} {rest : List (Frame G F M)} (hf : t.frames = f :: rest) :
    t.board.beginForcedReturn (t.board.marks.length - 1) = (t.resumeTop f rest).1.board := by
  have depth : t.board.marks.length - 1 = (rest.map (·.mark)).reverse.length := by
    simp [board, hf]
  rw [depth]
  simp only [Board.beginForcedReturn, board, resumeTop, hf, List.map_cons, List.reverse_cons]
  cases f.mark <;> simp

theorem board_turn (turn : Turn t es t') : es.foldl Board.note t.board = t'.board := by
  cases turn with
  | idle | quiet | onwards => rfl
  | pushed g name slot p => simp [Board.note, Board.pushMark, board, push]
  | resumed f rest stage frames => exact board_resumeTop frames
  | replaced f rest inner origin purpose frames => simp [Board.note, Board.popMark, board, frames]
  | forked outcome p => exact (board_congr (canceled_setCurrent _) (footings_setCurrent _)).symm
  | returned result | stranded f rest result =>
    exact (board_congr (canceled_conclude result) (footings_conclude result)).symm
  | popped f rest stage frames =>
    have tail : t.board.popMark = (t.handDown f.result rest).board := by
      rw [board_eq (t := t.handDown _ _), footings_handDown, canceled_handDown]
      simp [Board.popMark, board, frames, Frame.footing]
    rw [List.foldl_cons]
    split <;> exact tail
  | cancelled => simp [Board.note, Board.requestCancel, board, Function.comp_def]
  | suspended f rest g y stage frames | completed f rest g outcome stage frames
  | registered f rest op p purpose fits frames
  | recovered top below rest e p purpose fits frames
  | discharged f rest result prior stage frames
  | entrusted new f rest prior stage frames
  | undertaken f rest op ops stage frames => simp [board, frames, Board.note]

theorem forced_turn {k : Nat} (turn : Turn t es t') (h : t.board.marks[k]? = some .forced)
    (hk : k < t'.frames.length) : t'.board.marks[k]? = some .forced := by
  have live : k < (es.foldl Board.note t.board).marks.length := by
    rw [board_turn turn]; simpa [board] using hk
  rw [← board_turn turn]
  -- A turn is at most one event, but for a pop with which a deferred operation ends.
  cases turn with
  | idle | quiet | onwards | suspended | forked | returned | entrusted => exact h
  | popped f rest =>
    have tail := Board.note_forced (e := (.popped f.result : StackEvent G F)) h
    rw [List.foldl_cons] at live ⊢
    split at live <;> split <;> exact tail live
  | _ =>
    rw [List.foldl_cons, List.foldl_nil] at live ⊢
    exact Board.note_forced h live

theorem resumed_turn {input : Resume} (turn : Turn t es t') (h : .resumed input ∈ es) :
    ∃ f rest, t.frames = f :: rest ∧ f.input = input := by
  cases turn
  case resumed f rest stage frames =>
    simp only [List.mem_singleton, StackEvent.resumed.injEq] at h
    exact ⟨f, rest, frames, h.symm⟩
  case popped => split at h <;> simp at h
  all_goals simp at h

/-- No frame is forced to return above one in its forced return. -/
theorem not_forced_above {k : Nat} (h : Standing t.canceled t.footings)
    (hk : t.board.marks[k]? = some .forced) (turn : Turn t es t') :
    .resumed .forcedReturn ∉ es := by
  intro hi
  obtain ⟨f, rest, hf, hin⟩ := resumed_turn turn hi
  have pending : f.mark = .pending := by
    unfold Frame.input at hin
    split at hin
    · exact beq_iff_eq.1 ‹_›
    · unfold Resume.deliver at hin; split at hin <;> cases hin
  have all := h.eq_pending fun b hb => by
    rw [footings, hf] at hb
    rw [← Option.some.inj hb]
    exact pending
  rw [board_eq, all] at hk
  simp only [List.reverse_replicate, List.getElem?_replicate] at hk
  split at hk <;> cases hk

end Task

namespace Run

variable {G F M : Type} [Named G] {registry : Registry M} {id : TaskId} {root : Yielded G F}

theorem standing (impulses : List (Impulse G F)) :
    let t := ((start id root).after registry impulses : Run G F M).task
    Standing t.canceled t.footings := by
  refine turn_induction (P := fun r => Standing r.task.canceled r.task.footings) .nil ?_ impulses
  intro t h es t' _ turn ih
  exact Task.standing_turn ih turn

theorem replay_history (impulses : List (Impulse G F)) :
    let r := ((start id root).after registry impulses : Run G F M)
    Board.replay r.history = r.task.board := by
  refine turn_induction (P := fun r => Board.replay r.history = r.task.board) rfl ?_ impulses
  intro t h es t' _ turn ih
  rw [Board.replay] at ih
  rw [Board.replay, List.foldl_append, ih, Task.board_turn turn]

theorem forced_after {k : Nat} {r : Run G F M} (coherent : r.task.Coherent)
    (h : r.task.board.marks[k]? = some .forced) (js : List (Impulse G F))
    (live : ∀ js', js' <+: js → k < (r.after registry js').task.frames.length) :
    (r.after registry js).task.board.marks[k]? = some .forced := by
  induction js generalizing r with
  | nil => exact h
  | cons i js ih =>
    have kept : (r.take registry i).task.board.marks[k]? = some .forced :=
      Task.forced_turn (Task.turn_take coherent i) h (live [i] (by simp))
    refine ih (coherent.take i) kept ?_
    intro js' hjs
    exact live (i :: js') (by simpa using hjs)

/-- After any impulses, the separately kept board has one mark for each live frame, of the regular
shape. Every shielded frame is above a completed one, and above a frame in its forced return no
frame is forced for as long as that one is live. -/
theorem marks_regular (registry : Registry M) (id : TaskId) (root : Yielded G F)
    (impulses : List (Impulse G F)) :
    let r : Run G F M := (start id root).after registry impulses
    Board.replay r.history = ⟨r.task.canceled, (r.task.frames.map (·.mark)).reverse⟩ ∧
    Regular r.task.canceled (r.task.frames.map (·.mark)).reverse ∧
    (∀ above f below, r.task.frames = above ++ f :: below → f.mark = .shielded →
      ∃ g ∈ below, g.completed = true) ∧
    ∀ above f below, r.task.frames = above ++ f :: below → f.mark = .forced →
      ∀ js, (∀ js', js' <+: js → below.length < (r.after registry js').task.frames.length) →
        ∀ i, .resumed .forcedReturn ∉ (r.after registry js).task.observe registry i := by
  intro r
  have standing : Standing r.task.canceled r.task.footings := Run.standing impulses
  refine ⟨replay_history impulses, ?_, ?_, ?_⟩
  · have regular := standing.regular
    rw [Task.footings, List.map_map] at regular
    exact regular
  · intro above f below hf hs
    have hfoot : r.task.footings =
        above.map (·.footing) ++ f.footing :: below.map (·.footing) := by simp [Task.footings, hf]
    obtain ⟨g, hg, hd⟩ := standing.shielded hfoot hs
    obtain ⟨b, hb, rfl⟩ := List.mem_map.1 hg
    exact ⟨b, hb, hd⟩
  · intro above f below hf hforced js live i
    have coherent : r.task.Coherent := Run.coherent impulses
    have here : r.task.board.marks[below.length]? = some .forced := by
      simp [Task.board, hf, hforced]
    have there := forced_after coherent here js live
    have standing :
        Standing (r.after registry js).task.canceled (r.after registry js).task.footings := by
      rw [← after_append]; exact Run.standing _
    have coherent : (r.after registry js).task.Coherent := by
      rw [← after_append]; exact Run.coherent _
    exact Task.not_forced_above standing there (Task.turn_take coherent i)

end Run

end EffectEngine
