import EffectEngine.Value

/-!
# Operations

An `Operation` describes an effect that a generator wants performed. It is data over the types `G`
of generators and `F` of generator functions. `Yielded` is what a generator hands over when it
suspends, `Resume` how it is entered again, and `Signal` what a resumption comes to.
-/

namespace EffectEngine

class Named (α : Type) where
  name : α → String

/-- A requested effect. -/
inductive Operation (G F : Type) where
  | call (func : F) (args : List Value)
  | execute (generator : G)
  | fork (inner : Operation G F)
  /-- Run an operation when the current frame completes. -/
  | defer (inner : Operation G F)
  /-- Take over the error of the completed frame below. -/
  | recover
  /-- Replace the current frame by an operation. -/
  | terminal (inner : Operation G F)
  /-- Dispatch an operation from the top of its middleware chain. -/
  | start (inner : Operation G F)
  /-- Hand an operation on to the next middleware. -/
  | next (inner : Operation G F)
  | custom (kind : String) (payload : Value)
deriving Inhabited

inductive Yielded (G F : Type) where
  | operation (op : Operation G F)
  /-- A bare generator to delegate to. -/
  | generator (g : G)
deriving Inhabited

/-- How a suspended generator is entered again. -/
inductive Resume where
  | next (value : Value)
  | throw (error : Error)
  /-- To complete early, running cleanup only. -/
  | forcedReturn
deriving Inhabited

/-- What one resumption comes to. -/
inductive Signal (G F : Type) where
  | yielded (y : Yielded G F)
  | complete (outcome : Outcome)
deriving Inhabited

/-- The kinds of the built-in operations. -/
def callKind : String := "call"
def executeKind : String := "execute"
def forkKind : String := "fork"
def deferKind : String := "defer"
def recoverKind : String := "recover"
def terminalKind : String := "terminal"
def startKind : String := "start"
def nextKind : String := "next"

namespace Operation

variable {G F : Type}

/-- The kind under which middleware for an operation is registered. -/
def kind : Operation G F → String
  | call .. => callKind
  | execute _ => executeKind
  | fork _ => forkKind
  | defer _ => deferKind
  | recover => recoverKind
  | terminal _ => terminalKind
  | start _ => startKind
  | next _ => nextKind
  | custom kind _ => kind

def inner? : Operation G F → Option (Operation G F)
  | fork op | defer op | terminal op | start op | next op => some op
  | _ => none

def kinds : Operation G F → List String
  | fork op => forkKind :: op.kinds
  | defer op => deferKind :: op.kinds
  | terminal op => terminalKind :: op.kinds
  | start op => startKind :: op.kinds
  | next op => nextKind :: op.kinds
  | op => [op.kind]

def call? : Operation G F → Option (F × List Value)
  | call func args => some (func, args)
  | _ => none

def custom? : Operation G F → Option (String × Value)
  | custom kind payload => some (kind, payload)
  | _ => none

/-- Whether an operation only makes sense on the frame that yields it, so that it cannot replace
that frame. -/
def needsFrame : Operation G F → Bool
  | fork _ | defer _ => true
  | _ => false

def debug [Named G] [Named F] : Operation G F → String
  | call func args =>
    "Call \x7b func: " ++ quoted (Named.name func) ++ ", args: "
      ++ Value.bracketed (Value.debugAll args) ++ " \x7d"
  | execute g => "Execute(" ++ quoted (Named.name g) ++ ")"
  | fork op => "Fork(" ++ op.debug ++ ")"
  | defer op => "Defer(" ++ op.debug ++ ")"
  | recover => "Recover"
  | terminal op => "Terminal(" ++ op.debug ++ ")"
  | start op => "Start(" ++ op.debug ++ ")"
  | next op => "Next(" ++ op.debug ++ ")"
  | custom kind payload =>
    "Custom \x7b kind: " ++ quoted kind ++ ", payload: " ++ payload.debug ++ " \x7d"

end Operation

namespace Yielded

variable {G F : Type}

def debug [Named G] [Named F] : Yielded G F → String
  | operation op => "Operation(" ++ op.debug ++ ")"
  | generator g => "Generator(" ++ quoted (Named.name g) ++ ")"

end Yielded

namespace Resume

def debug : Resume → String
  | next value => "Next(" ++ value.debug ++ ")"
  | throw error => "Throw(" ++ error.debug ++ ")"
  | forcedReturn => "Return"

def deliver : Outcome → Resume
  | .ok value => next value
  | .error error => throw error

/-- What the suspended computation sees: a forced return reads as an interruption. -/
def outcome : Resume → Outcome
  | next value => .ok value
  | throw error => .error error
  | forcedReturn => .error .interrupted

end Resume

end EffectEngine
