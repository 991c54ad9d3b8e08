import EffectEngine.Operation

/-!
# The middleware registry

Middleware is registered under an operation kind. `Registry.handlers` is the chain of a kind, in
the order of registration; a `HandlerSlot` is a place in such a chain.
-/

namespace EffectEngine

/-- A middleware together with the kind it intercepts. -/
structure Registration (M : Type) where
  kind : String
  middleware : M

def Registration.debug {M : Type} (r : Registration M) : String :=
  "Registration \x7b kind: " ++ quoted r.kind ++ ", .. \x7d"

structure Registry (M : Type) where
  registrations : List (Registration M)

instance {M : Type} : Inhabited (Registry M) := ⟨⟨[]⟩⟩

namespace Registry

variable {M : Type}

def handlers (r : Registry M) (kind : String) : List M :=
  (r.registrations.filter (·.kind == kind)).map (·.middleware)

def contains (r : Registry M) (kind : String) : Bool :=
  r.registrations.any (·.kind == kind)

/-- The kinds with middleware, each once, in the order of first registration. -/
def kinds (r : Registry M) : List String :=
  r.registrations.foldl
    (fun ks entry => if ks.contains entry.kind then ks else ks ++ [entry.kind]) []

def debug (r : Registry M) : String :=
  let entry (kind : String) := quoted kind ++ ": " ++ toString (r.handlers kind).length
  "\x7b" ++ joinTexts ", " (r.kinds.map entry) ++ "\x7d"

end Registry

/-- A place in the middleware chain of a kind. -/
structure HandlerSlot (M : Type) where
  kind : String
  handlers : List M
  index : Nat

namespace HandlerSlot

variable {M : Type}

/-- The middleware at the place, if the chain reaches that far. -/
def handler? (s : HandlerSlot M) : Option M := s.handlers[s.index]?

def succ (s : HandlerSlot M) : HandlerSlot M := { s with index := s.index + 1 }

end HandlerSlot

end EffectEngine
