import EffectEngine.Task
import EffectEngine.Lifecycle
import EffectEngine.Code

/-!
# Hosts

A `Host` supplies all that the engine drives but does not know from the inside: generators,
functions, middleware and listeners, over the types collected in a `Sig`.
-/

namespace EffectEngine

/-- The types an engine is used with. -/
structure Sig where
  State : Type
  Note : Type
  Ctx : Type
  Gen : Type
  Fn : Type
  Mw : Type
  Listener : Type
  Seed : Type
  [named : Named Gen]

namespace Sig

variable (S : Sig)

instance : Named S.Gen := S.named

abbrev Code (α : Type) := EffectEngine.Code (Effect S.Ctx S.Gen S.Fn S.Seed) S.State S.Note α

abbrev Sync (α : Type) := EffectEngine.Sync S.State S.Note α

abbrev Operation := EffectEngine.Operation S.Gen S.Fn

abbrev Yielded := EffectEngine.Yielded S.Gen S.Fn

abbrev Signal := EffectEngine.Signal S.Gen S.Fn

abbrev Task := EffectEngine.Task S.Gen S.Fn S.Mw

end Sig

/-- The behaviour behind an engine: its configuration and the code it drives. -/
structure Host (S : Sig) where
  registry : Registry S.Mw
  listeners : List S.Listener
  resume : S.Gen → Resume → S.Code (S.Signal × S.Gen)
  /-- Lets go of a generator that is not resumed any more. -/
  release : S.Gen → S.Sync Unit
  filter : S.Mw → S.Operation → S.Ctx → S.Sync Bool
  handle : S.Mw → S.Operation → S.Ctx → S.Sync (Except Error S.Gen)
  invoke : S.Fn → List Value → S.Sync (Except Error S.Gen)
  /-- A hook of a listener, told of a task with the given context. -/
  hook : S.Listener → Hook → S.Ctx → S.Code (Except Error Unit)
  start : S.Seed → S.Code Outcome
  /-- What is noted when a background thread panics. -/
  crash : String → S.Note

end EffectEngine
