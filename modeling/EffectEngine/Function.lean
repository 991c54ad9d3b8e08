import EffectEngine.Operation

/-!
# Generator functions

A `GeneratorFn` is a named constructor of generators, the target of a call. Its identity tells
functions apart; copies keep it. A batched function wraps another one and says how to group calls.
-/

namespace EffectEngine

structure Extensions where
  int : Option Int64
  text : Option String
deriving DecidableEq, Inhabited

/-- A named constructor of generators: `φ` says what a plain function does, `κ` how the calls of a
batched function are grouped. -/
inductive GeneratorFn (φ κ : Type) where
  | plain (name : String) (identity : Nat) (extensions : Extensions) (target : φ)
  /-- Calls of `underlying` that may be coalesced. -/
  | batched (identity : Nat) (extensions : Extensions) (underlying : GeneratorFn φ κ) (key : κ)

namespace GeneratorFn

variable {φ κ : Type}

/-- The name; a batched function has that of the function it wraps. -/
def name : GeneratorFn φ κ → String
  | plain name .. => name
  | batched _ _ underlying _ => underlying.name

instance : Named (GeneratorFn φ κ) := ⟨name⟩

def identity : GeneratorFn φ κ → Nat
  | plain _ identity _ _ | batched identity _ _ _ => identity

def extensions : GeneratorFn φ κ → Extensions
  | plain _ _ extensions _ | batched _ extensions _ _ => extensions

def modifyExtensions (change : Extensions → Extensions) : GeneratorFn φ κ → GeneratorFn φ κ
  | plain name identity extensions target => plain name identity (change extensions) target
  | batched identity extensions underlying key =>
    batched identity (change extensions) underlying key

/-- Whether both are copies of one function. -/
def same (f g : GeneratorFn φ κ) : Bool := f.identity == g.identity

def batched? : GeneratorFn φ κ → Option (GeneratorFn φ κ × κ)
  | plain .. => none
  | batched _ _ underlying key => some (underlying, key)

def debug (f : GeneratorFn φ κ) : String :=
  "GeneratorFn \x7b name: " ++ quoted f.name ++ ", .. \x7d"

end GeneratorFn

end EffectEngine
