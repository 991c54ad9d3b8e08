import EffectEngine.Code

/-!
# Contexts

A `TypeMap V` holds at most one value of type `V k` for each key `k`. A context is a type map that
middleware, and all tasks that share it, reach through a `ContextId`; the engine itself never looks
into one. `ContextId.getOrInsertWith` reads and writes in two separate sections, so that the
initialiser may use the context, and the first value stored wins.
-/

namespace EffectEngine

/-- A map from keys to values of a type that depends on the key. -/
structure TypeMap {K : Type} (V : K → Type) where
  entries : List (Sigma V)

namespace TypeMap

variable {K : Type} {V : K → Type} [DecidableEq K]

instance : Inhabited (TypeMap V) := ⟨⟨[]⟩⟩

def empty : TypeMap V := ⟨[]⟩

def lookup (k : K) : List (Sigma V) → Option (V k)
  | [] => none
  | ⟨k', v⟩ :: rest => if h : k' = k then some (h ▸ v) else lookup k rest

def get? (m : TypeMap V) (k : K) : Option (V k) := lookup k m.entries

def contains (m : TypeMap V) (k : K) : Bool := m.entries.any (·.1 == k)

def erase (m : TypeMap V) (k : K) : TypeMap V := ⟨m.entries.filter (·.1 != k)⟩

def insert (m : TypeMap V) (k : K) (v : V k) : TypeMap V :=
  ⟨⟨k, v⟩ :: (m.erase k).entries⟩

def size (m : TypeMap V) : Nat := m.entries.length

def debug (m : TypeMap V) : String := "TypeMap \x7b len: " ++ toString m.size ++ " \x7d"

/-- Stores a value unless the key has one, and answers with the value that the key has then. -/
def offer (m : TypeMap V) (k : K) (v : V k) : V k × TypeMap V :=
  match m.get? k with
  | some kept => (kept, m)
  | none => (v, m.insert k v)

end TypeMap

structure ContextId where
  index : Nat
deriving DecidableEq, Inhabited, Repr

abbrev Contexts {K : Type} (V : K → Type) := Array (TypeMap V)

class HasContexts (σ : Type) {K : outParam Type} (V : outParam (K → Type)) where
  contexts : σ → Contexts V
  setContexts : Contexts V → σ → σ

namespace ContextId

variable {E σ N K : Type} {V : K → Type} [DecidableEq K] [HasContexts σ V]

def slots (ctx : ContextId) (s : σ) : TypeMap V :=
  ((HasContexts.contexts s)[ctx.index]?).getD .empty

def setSlots (ctx : ContextId) (m : TypeMap V) (s : σ) : σ :=
  HasContexts.setContexts ((HasContexts.contexts s).modify ctx.index fun _ => m) s

def fresh : Code E σ N ContextId :=
  Code.modifyGet fun s =>
    (⟨(HasContexts.contexts s).size⟩,
      HasContexts.setContexts ((HasContexts.contexts s).push .empty) s)

/-- One section under the lock: reads the type map and replaces it. -/
def locked {α : Type} (ctx : ContextId) (f : TypeMap V → α × TypeMap V) : Code E σ N α :=
  Code.modifyGet fun s =>
    let (a, m) := f (ctx.slots s)
    (a, ctx.setSlots m s)

def get? (ctx : ContextId) (k : K) : Code E σ N (Option (V k)) :=
  ctx.locked fun m => (m.get? k, m)

def insert (ctx : ContextId) (k : K) (v : V k) : Code E σ N (Option (V k)) :=
  ctx.locked fun m => (m.get? k, m.insert k v)

def remove (ctx : ContextId) (k : K) : Code E σ N (Option (V k)) :=
  ctx.locked fun m => (m.get? k, m.erase k)

def contains (ctx : ContextId) (k : K) : Code E σ N Bool :=
  ctx.locked fun m => (m.contains k, m)

/-- The value of a key, made by `init` if there is none. What another section stored while `init`
ran is kept. -/
def getOrInsertWith (ctx : ContextId) (k : K) (init : Code E σ N (V k)) : Code E σ N (V k) := do
  match ← ctx.get? k with
  | some v => pure v
  | none =>
    let v ← init
    ctx.locked fun m => m.offer k v

def debug (ctx : ContextId) : Code E σ N String :=
  ctx.locked fun (m : TypeMap V) => ("Context \x7b slots: " ++ toString m.size ++ " \x7d", m)

end ContextId

end EffectEngine
