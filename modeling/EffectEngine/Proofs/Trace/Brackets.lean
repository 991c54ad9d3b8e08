import EffectEngine.Middleware.Observe
import Mathlib.Data.List.Basic

/-!
# Words of trace events

Each handler frame of a trace middleware opens a `Bracket` and closes it again. `Begun` is how a
word of such events comes to be, with the brackets that are open, the last one first; `Bracketed` is
what it is when none is open: balanced, and with each frame heard from twice or not at all.
-/

namespace EffectEngine.Trace

/-- An event with the number of the frame that logged it. -/
abbrev Letter := Nat × Event

/-- What a handler logs when it starts. -/
def beginning (label kind : String) : Event :=
  ⟨.trace, "operation: start", [("kind", kind), ("prefix", label)]⟩

/-- An operation that passes through a frame of a trace middleware. -/
structure Bracket where
  frame : Nat
  label : String
  kind : String

namespace Bracket

def opening (b : Bracket) : Letter := (b.frame, beginning b.label b.kind)

def closing (b : Bracket) (outcome : Outcome) : Letter := (b.frame, ending b.label b.kind outcome)

end Bracket

/-- Every event that opens a bracket is followed by the one that closes it, with a balanced word
between them. -/
inductive Balanced : List Letter → Prop
  | nil : Balanced []
  | frame (b : Bracket) (outcome : Outcome) {u v : List Letter} (inner : Balanced u)
    (after : Balanced v) : Balanced (b.opening :: u ++ b.closing outcome :: v)

/-- A frame opens its bracket and closes it, or is not heard from. -/
structure Bracketed (word : List Letter) : Prop where
  balanced : Balanced word
  once : ∀ n, word.filter (·.1 == n) = [] ∨ ∃ b : Bracket, ∃ outcome, b.frame = n ∧
    word.filter (·.1 == n) = [b.opening, b.closing outcome]

/-- The words that come to be when a bracket is opened only by a frame not heard from before, and
the bracket that was opened last is closed first. -/
inductive Begun : List Letter → List Bracket → Prop
  | nil : Begun [] []
  | opens {word : List Letter} {opened : List Bracket} (h : Begun word opened) (b : Bracket)
    (new : ∀ l ∈ word, l.1 ≠ b.frame) : Begun (word ++ [b.opening]) (b :: opened)
  | closes {word : List Letter} {opened : List Bracket} {b : Bracket}
    (h : Begun word (b :: opened)) (outcome : Outcome) :
    Begun (word ++ [b.closing outcome]) opened

/-- A word with some brackets left open: balanced words, with what opens a bracket between each and
the next. -/
inductive Nested : List Letter → List Bracket → Prop
  | base {u : List Letter} (balanced : Balanced u) : Nested u []
  | frame {word u : List Letter} {opened : List Bracket} (below : Nested word opened) (b : Bracket)
    (balanced : Balanced u) : Nested (word ++ b.opening :: u) (b :: opened)

/-- What is heard from a frame, and the bracket it has open. -/
inductive Heard (n : Nat) : List Letter → List Bracket → Prop
  | never : Heard n [] []
  | started (b : Bracket) (own : b.frame = n) : Heard n [b.opening] [b]
  | ended (b : Bracket) (own : b.frame = n) (outcome : Outcome) :
    Heard n [b.opening, b.closing outcome] []

variable {u v word : List Letter} {opened : List Bracket}

theorem Balanced.append (h : Balanced u) (h' : Balanced v) : Balanced (u ++ v) := by
  induction h with
  | nil => exact h'
  | frame b outcome inner _ _ ih =>
    rw [List.append_assoc, List.cons_append]
    exact .frame b outcome inner ih

theorem Nested.append (h : Nested word opened) (balanced : Balanced v) :
    Nested (word ++ v) opened := by
  cases h with
  | base before => exact .base (before.append balanced)
  | frame below b before =>
    rw [List.append_assoc, List.cons_append]
    exact .frame below b (before.append balanced)

namespace Begun

theorem nested (h : Begun word opened) : Nested word opened := by
  induction h with
  | nil => exact .base .nil
  | opens _ b _ ih => exact .frame ih b .nil
  | @closes _ _ b _ outcome ih =>
    cases ih with
    | frame below _ balanced =>
      rw [List.append_assoc]
      exact below.append (.frame b outcome balanced .nil)

theorem heard (h : Begun word opened) (n : Nat) :
    Heard n (word.filter (·.1 == n)) (opened.filter (·.frame == n)) := by
  induction h with
  | nil => exact .never
  | @opens word opened _ b new ih =>
    by_cases own : b.frame = n
    · have silent : word.filter (·.1 == n) = [] :=
        List.filter_eq_nil_iff.2 fun l hl => by simpa [own] using new l hl
      rw [silent] at ih
      generalize rest : opened.filter (·.frame == n) = brackets at ih
      cases ih
      have started := Heard.started b own
      simpa [List.filter_append, List.filter_cons, silent, rest, own, Bracket.opening] using started
    · simpa [List.filter_append, List.filter_cons, own, Bracket.opening] using ih
  | @closes word opened b _ outcome ih =>
    by_cases own : b.frame = n
    · rw [List.filter_cons_of_pos (by simp [own])] at ih
      generalize opened.filter (·.frame == n) = brackets at ih ⊢
      generalize said : word.filter (·.1 == n) = letters at ih
      cases ih
      have ended := Heard.ended b own outcome
      simpa [List.filter_append, List.filter_cons, said, own, Bracket.closing] using ended
    · simpa [List.filter_append, List.filter_cons, own, Bracket.closing] using ih

theorem bracketed (h : Begun word []) : Bracketed word := by
  refine ⟨?_, fun n => ?_⟩
  · cases h.nested with
    | base balanced => exact balanced
  · have heard := h.heard n
    generalize word.filter (·.1 == n) = letters at heard ⊢
    cases heard with
    | never => exact .inl rfl
    | ended b own outcome => exact .inr ⟨b, outcome, own, rfl⟩

end Begun

end EffectEngine.Trace
