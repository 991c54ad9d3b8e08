import EffectEngine.Proofs.Context.Sections
import EffectEngine.Proofs.Context.Slots

/-!
# Code that keeps to the operations on contexts

`Code.Orderly` code touches contexts only through their operations, and may do anything else. A
section of such code changes a slot in one of three ways (`Deed`): something is inserted there by
hand, or removed, or the slot is empty and a call of `ContextId.getOrInsertWith` stores the value
that it has made.
-/

namespace EffectEngine

variable {E σ N K α β : Type} {V : K → Type} [DecidableEq K] [HasContexts σ V]

/-- The last section of a call of `getOrInsertWith` that has made a value. -/
def ContextId.offer (ctx : ContextId) (k : K) (v : V k) : Code E σ N (V k) :=
  ctx.locked fun m => m.offer k v

/-- Code that touches contexts only through their operations. A call of `getOrInsertWith` is made of
a look, the initialiser and an offer. -/
inductive Code.Orderly : Code E σ N α → Prop
  | done (a : α) : Orderly (.done a)
  | panic (message : String) : Orderly (.panic message)
  | fresh {next : ContextId → Code E σ N α} (later : ∀ ctx, Orderly (next ctx)) :
      Orderly (ContextId.fresh.bind next)
  /-- One of `get?`, `contains` and `debug`. -/
  | look {β : Type} (ctx : ContextId) (f : TypeMap V → β) {next : β → Code E σ N α}
      (later : ∀ b, Orderly (next b)) : Orderly ((ctx.locked fun m => (f m, m)).bind next)
  | insert (ctx : ContextId) (k : K) (v : V k) {next : Option (V k) → Code E σ N α}
      (later : ∀ old, Orderly (next old)) : Orderly ((ctx.insert k v).bind next)
  | remove (ctx : ContextId) (k : K) {next : Option (V k) → Code E σ N α}
      (later : ∀ old, Orderly (next old)) : Orderly ((ctx.remove k).bind next)
  | offer (ctx : ContextId) (k : K) (v : V k) {next : V k → Code E σ N α}
      (later : ∀ w, Orderly (next w)) : Orderly ((ctx.offer k v).bind next)
  /-- Work on the state that leaves all contexts alone. -/
  | aside {β : Type} {f : σ → β × σ}
      (spares : ∀ s, HasContexts.contexts (f s).2 = HasContexts.contexts s)
      {next : β → Code E σ N α} (later : ∀ b, Orderly (next b)) :
      Orderly ((Code.modifyGet f).bind next)
  | read {k : σ → Code E σ N α} (later : ∀ s, Orderly (k s)) : Orderly (.ask .get k)
  | ask {q : Query σ N} {k : q.Answer → Code E σ N α} (reads : q ≠ .get)
      (writes : ∀ s, q ≠ .put s) (later : ∀ a, Orderly (k a)) : Orderly (.ask q k)
  | perform (e : E) {k : Outcome → Code E σ N α} (later : ∀ r, Orderly (k r)) :
      Orderly (.perform e k)

namespace Code.Orderly

variable {c rest : Code E σ N α} {s s' : σ}

theorem bind {f : α → Code E σ N β} (h : c.Orderly) (later : ∀ a, (f a).Orderly) :
    (c.bind f).Orderly := by
  induction h with
  | done a => exact later a
  | panic message => exact .panic message
  | fresh _ ih => exact .fresh ih
  | look ctx g _ ih => exact .look ctx g ih
  | insert ctx k v _ ih => exact .insert ctx k v ih
  | remove ctx k _ ih => exact .remove ctx k ih
  | offer ctx k v _ ih => exact .offer ctx k v ih
  | aside spares _ ih => exact .aside spares ih
  | read _ ih => exact .read ih
  | ask reads writes _ ih => exact .ask reads writes ih
  | perform e _ ih => exact .perform e ih

theorem getOrInsertWith {ctx : ContextId} {k : K} {init : Code E σ N (V k)} (h : init.Orderly) :
    (ctx.getOrInsertWith k init).Orderly := by
  refine .look ctx (·.get? k) fun found => ?_
  cases found with
  | some v => exact .done v
  | none => exact h.bind fun v => .offer ctx k v .done

/-- Orderly code does not begin by a write. -/
theorem written (h : c.Orderly) (s : σ) : c.written s = (c, s) := by
  cases h with
  | @ask q k reads writes later =>
    cases q with
    | put s' => exact absurd rfl (writes s')
    | _ => rfl
  | _ => rfl

theorem next (h : c.Orderly) (turn : c.Section s rest s') : rest.Orderly := by
  cases h with
  | done | panic => cases turn
  | fresh later | look _ _ later | insert _ _ _ later | remove _ _ later | offer _ _ _ later
  | aside _ later =>
    obtain ⟨rfl, -⟩ := section_modifyGet_bind.mp turn
    exact later _
  | read later =>
    cases turn with
    | read written =>
      rw [(later s).written] at written
      cases written
      exact later s
    | answer _ _ other => exact absurd rfl other
  | ask reads writes later =>
    cases turn with
    | read => exact absurd rfl reads
    | answer _ a => exact later a
  | perform e later =>
    cases turn with
    | outcome _ r => exact later r

end Code.Orderly

/-- What a section does to a slot. -/
inductive Deed (ctx : ContextId) (k : K) (c : Code E σ N α) (s s' : σ) : Prop
  | spares (same : ctx.slot? k s' = ctx.slot? k s)
  | inserts (v : V k) (next : Option (V k) → Code E σ N α) (begins : c = (ctx.insert k v).bind next)
  | removes (next : Option (V k) → Code E σ N α) (begins : c = (ctx.remove k).bind next)
  | stores (v : V k) (next : V k → Code E σ N α) (begins : c = (ctx.offer k v).bind next)
      (empty : ctx.slot? k s = none) (now : ctx.slot? k s' = some v)

section Lawful

variable [LawfulContexts σ V] {ctx : ContextId} {k : K} {c rest : Code E σ N α} {s s' : σ}

theorem Code.Orderly.deed (h : c.Orderly) (there : ctx.OpenIn s) (turn : c.Section s rest s') :
    Deed ctx k c s s' := by
  cases h with
  | done | panic => cases turn
  | fresh =>
    obtain ⟨-, rfl⟩ := section_modifyGet_bind.mp turn
    exact .spares (congrArg (·.get? k) (ContextId.slots_push ctx s))
  | look ctx' =>
    obtain ⟨-, rfl⟩ := section_modifyGet_bind.mp turn
    exact .spares (ContextId.slot?_setSlots_of_agree fun same => by rw [same]; rfl)
  | insert ctx' k' v =>
    obtain ⟨-, rfl⟩ := section_modifyGet_bind.mp turn
    by_cases here : ctx' = ctx ∧ k' = k
    · obtain ⟨rfl, rfl⟩ := here
      exact .inserts v _ rfl
    · exact .spares (ContextId.slot?_setSlots_elsewhere here fun other =>
        TypeMap.get?_insert_of_ne other v)
  | remove ctx' k' =>
    obtain ⟨-, rfl⟩ := section_modifyGet_bind.mp turn
    by_cases here : ctx' = ctx ∧ k' = k
    · obtain ⟨rfl, rfl⟩ := here
      exact .removes _ rfl
    · exact .spares (ContextId.slot?_setSlots_elsewhere here TypeMap.get?_erase_of_ne)
  | offer ctx' k' v =>
    obtain ⟨-, rfl⟩ := section_modifyGet_bind.mp turn
    by_cases here : ctx' = ctx ∧ k' = k
    · obtain ⟨rfl, rfl⟩ := here
      rcases found : ctx'.slot? k' s with _ | w
      · refine .stores v _ rfl found ((ContextId.slot?_setSlots there _).trans ?_)
        rw [TypeMap.offer_of_none found]
        exact TypeMap.get?_insert _ k' v
      · refine .spares (ContextId.slot?_setSlots_of_agree fun _ => ?_)
        rw [TypeMap.offer_of_some found]
        rfl
    · exact .spares (ContextId.slot?_setSlots_elsewhere here fun other =>
        TypeMap.get?_offer_of_ne other v)
  | aside spares =>
    obtain ⟨-, rfl⟩ := section_modifyGet_bind.mp turn
    exact .spares (congrArg (·.get? k) (ContextId.slots_congr (spares s)))
  | read later =>
    cases turn with
    | read written =>
      rw [(later s).written] at written
      cases written
      exact .spares rfl
    | answer _ _ other => exact absurd rfl other
  | @ask q _ reads writes =>
    cases turn with
    | read => exact absurd rfl reads
    | answer =>
      cases q with
      | put s' => exact absurd rfl (writes s')
      | _ => exact .spares rfl
  | perform =>
    cases turn with
    | outcome => exact .spares rfl

end Lawful

end EffectEngine
