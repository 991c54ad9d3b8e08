import EffectEngine.Middleware.Basic

/-!
# The slots of a context

What the operations on a type map do to a slot, and what replacing the type map of one context does
to the slots of all. `LawfulContexts` says of a state that it keeps its contexts as they are put
into it.
-/

namespace EffectEngine

namespace TypeMap

variable {K : Type} {V : K → Type} [DecidableEq K] {m : TypeMap V} {k k' : K}

theorem lookup_filter_of_ne (h : k' ≠ k) (entries : List (Sigma V)) :
    lookup k' (entries.filter (·.1 != k)) = lookup k' entries := by
  induction entries with
  | nil => rfl
  | cons entry entries ih =>
    by_cases gone : entry.1 = k
    · have other : ¬ entry.1 = k' := fun same => h (same.symm.trans gone)
      rw [List.filter_cons_of_neg (by simpa using gone), ih, lookup, dif_neg other]
    · rw [List.filter_cons_of_pos (by simpa using gone), lookup, lookup, ih]

theorem lookup_filter_self (k : K) (entries : List (Sigma V)) :
    lookup k (entries.filter (·.1 != k)) = none := by
  induction entries with
  | nil => rfl
  | cons entry entries ih =>
    by_cases gone : entry.1 = k
    · rw [List.filter_cons_of_neg (by simpa using gone), ih]
    · rw [List.filter_cons_of_pos (by simpa using gone), lookup, dif_neg gone, ih]

@[simp] theorem get?_insert (m : TypeMap V) (k : K) (v : V k) :
    (m.insert k v).get? k = some v := by
  simp [get?, insert, lookup]

@[simp] theorem get?_erase (m : TypeMap V) (k : K) : (m.erase k).get? k = none :=
  lookup_filter_self k m.entries

theorem get?_erase_of_ne (h : k' ≠ k) : (m.erase k).get? k' = m.get? k' :=
  lookup_filter_of_ne h m.entries

theorem get?_insert_of_ne (h : k' ≠ k) (v : V k) : (m.insert k v).get? k' = m.get? k' := by
  have other : ¬ k = k' := fun same => h same.symm
  calc (m.insert k v).get? k' = (m.erase k).get? k' := dif_neg other
    _ = m.get? k' := get?_erase_of_ne h

theorem offer_of_some {w : V k} (kept : m.get? k = some w) (v : V k) : m.offer k v = (w, m) := by
  rw [offer, kept]

theorem offer_of_none (empty : m.get? k = none) (v : V k) : m.offer k v = (v, m.insert k v) := by
  rw [offer, empty]

theorem get?_offer_of_ne (h : k' ≠ k) (v : V k) : (m.offer k v).2.get? k' = m.get? k' := by
  rcases found : m.get? k with _ | w
  · rw [offer_of_none found]
    exact get?_insert_of_ne h v
  · rw [offer_of_some found]

end TypeMap

/-- A state gives back the contexts that were put into it. -/
class LawfulContexts (σ : Type) {K : outParam Type} (V : outParam (K → Type))
    [HasContexts σ V] : Prop where
  contexts_setContexts : ∀ (cs : Contexts V) (s : σ),
    HasContexts.contexts (HasContexts.setContexts cs s) = cs

instance {χ F U : Type} : LawfulContexts (Shared χ F U) (Slot.Content F (χ := χ)) :=
  ⟨fun _ _ => rfl⟩

namespace ContextId

variable {σ K : Type} {V : K → Type} [HasContexts σ V] {ctx ctx' : ContextId} {s s' : σ}
  {k k' : K}

def OpenIn (ctx : ContextId) (s : σ) : Prop := ctx.index < (HasContexts.contexts s).size

def slot? [DecidableEq K] (ctx : ContextId) (k : K) (s : σ) : Option (V k) := (ctx.slots s).get? k

theorem slots_congr (same : HasContexts.contexts s' = HasContexts.contexts s) :
    ctx.slots s' = ctx.slots s := by
  rw [slots, slots, same]

section Lawful

variable [LawfulContexts σ V]

theorem slots_push (ctx : ContextId) (s : σ) :
    ctx.slots (HasContexts.setContexts ((HasContexts.contexts s).push .empty) s) = ctx.slots s := by
  rw [slots, slots, LawfulContexts.contexts_setContexts, Array.getElem?_push]
  split
  · rename_i last
    rw [Array.getElem?_eq_none (Nat.le_of_eq last.symm)]
    rfl
  · rfl

theorem contexts_setSlots (ctx : ContextId) (m : TypeMap V) (s : σ) :
    HasContexts.contexts (ctx.setSlots m s) =
      (HasContexts.contexts s).modify ctx.index fun _ => m :=
  LawfulContexts.contexts_setContexts ..

theorem size_setSlots (s : σ) (m : TypeMap V) :
    (HasContexts.contexts (ctx.setSlots m s)).size = (HasContexts.contexts s).size := by
  rw [contexts_setSlots, Array.size_modify]

theorem slots_setSlots (h : ctx.OpenIn s) (m : TypeMap V) : ctx.slots (ctx.setSlots m s) = m := by
  have inside : ctx.index < (HasContexts.contexts s).size := h
  simp [slots, contexts_setSlots, inside, Array.getElem_modify_self]

theorem slots_setSlots_of_ne (h : ctx' ≠ ctx) (m : TypeMap V) :
    ctx'.slots (ctx.setSlots m s) = ctx'.slots s := by
  have apart : ¬ ctx.index = ctx'.index := fun same =>
    h (by rw [ContextId.mk.injEq]; exact same.symm)
  simp [slots, contexts_setSlots, Array.getElem?_modify, apart]

/-- A section that puts the type map back leaves the contexts as they are. -/
theorem contexts_setSlots_slots (ctx : ContextId) (s : σ) :
    HasContexts.contexts (ctx.setSlots (ctx.slots s) s) = HasContexts.contexts s := by
  rw [contexts_setSlots]
  refine Array.ext_getElem? fun i => ?_
  rw [Array.getElem?_modify]
  split
  · rename_i same
    subst same
    rcases found : (HasContexts.contexts s)[ctx.index]? with _ | m
    · rfl
    · simp [slots, found]
  · rfl

variable [DecidableEq K]

theorem slot?_setSlots (h : ctx.OpenIn s) (m : TypeMap V) :
    ctx.slot? k (ctx.setSlots m s) = m.get? k :=
  congrArg (·.get? k) (slots_setSlots h m)

/-- Replacing a type map by one that agrees on a slot leaves that slot as it is. -/
theorem slot?_setSlots_of_agree {m : TypeMap V} (agree : ctx' = ctx → m.get? k = ctx.slot? k s) :
    ctx.slot? k (ctx'.setSlots m s) = ctx.slot? k s := by
  by_cases same : ctx' = ctx
  · subst same
    by_cases h : ctx'.OpenIn s
    · exact (slot?_setSlots h m).trans (agree rfl)
    · have outside : (HasContexts.contexts s).size ≤ ctx'.index := Nat.le_of_not_lt h
      simp [slot?, slots, contexts_setSlots, outside]
  · exact congrArg (·.get? k) (slots_setSlots_of_ne (s := s) (Ne.symm same) m)

/-- What is done to one slot leaves all others as they are. -/
theorem slot?_setSlots_elsewhere {m : TypeMap V} (elsewhere : ¬ (ctx' = ctx ∧ k' = k))
    (touches : k ≠ k' → m.get? k = (ctx'.slots s).get? k) :
    ctx.slot? k (ctx'.setSlots m s) = ctx.slot? k s := by
  refine slot?_setSlots_of_agree fun same => ?_
  subst same
  exact touches fun at_ => elsewhere ⟨rfl, at_.symm⟩

end Lawful

end ContextId

end EffectEngine
