import EffectEngine.Text.Quoted

/-!
# Errors

Everything that can go wrong while generators are driven travels as one `Error`. `Error.message`
is its text, `Error.debug` its structural text, and `Error.same` tells whether two errors report
the same failure.
-/

namespace EffectEngine

/-- A failure of application code: what is told about it, outermost message first. Two failures
are one exactly when their numbers agree. -/
structure Failure where
  id : Nat
  outer : String
  causes : List String
deriving DecidableEq, Inhabited, Repr

inductive Error where
  | nextOutsideHandler
  /-- `next` was yielded with an operation of another kind than the handled one. -/
  | nextKindMismatch (expected got : String)
  | unrecognizedOperation (kind : String)
  /-- An operation that needs the yielding frame was to replace it. -/
  | forbiddenTerminal (kind : String)
  | usage (operation message : String)
  | cancelled
  | interrupted
  /-- A cancelled task settled with something else than its cancellation. -/
  | cancelFailed (error : Error)
  /-- A deferred operation failed while another error was on its way. -/
  | deferred (error masked : Error)
  | panicked (message : String)
  | application (failure : Failure)
deriving DecidableEq, Inhabited, Repr

namespace Failure

/-- The lines of a cause: the first after its label, the others indented to the same column. -/
def indentLines (label indent message : String) : String :=
  let lines := (message.toList.splitOnP (· == '\n')).map String.ofList
  label ++ joinTexts ("\n" ++ indent) lines

/-- The causes with their numbers, right-aligned in five columns. -/
def numberedCauses : Nat → List String → String
  | _, [] => ""
  | n, cause :: rest =>
    let digits := Nat.toDigits 10 n
    let label := String.ofList (List.replicate (5 - digits.length) ' ' ++ digits) ++ ": "
    "\n" ++ indentLines label "       " cause ++ numberedCauses (n + 1) rest

/-- The message and below it what caused it; several causes are numbered. -/
def report (f : Failure) : String :=
  match f.causes with
  | [] => f.outer
  | [cause] => f.outer ++ "\n\nCaused by:\n" ++ indentLines "    " "    " cause
  | causes => f.outer ++ "\n\nCaused by:" ++ numberedCauses 0 causes

def chain (f : Failure) : List String := f.outer :: f.causes

end Failure

namespace Error

def message : Error → String
  | nextOutsideHandler => "next: should be used only in handlers"
  | nextKindMismatch expected got =>
    "next: operation kind mismatch, expected \"" ++ expected ++ "\", got \"" ++ got ++ "\""
  | unrecognizedOperation kind => "unrecognized operation kind \"" ++ kind ++ "\""
  | forbiddenTerminal kind => "terminal: " ++ kind ++ " operations cannot be terminal"
  | usage operation message => operation ++ ": " ++ message
  | cancelled => "task was cancelled"
  | interrupted => "generator was interrupted by a forced return"
  | cancelFailed error => "task did not cancel properly: " ++ error.message
  | deferred error masked =>
    "deferred operation failed: " ++ error.message ++ " (masking: " ++ masked.message ++ ")"
  | panicked message => "task panicked: " ++ message
  | application failure => failure.outer

def debug : Error → String
  | nextOutsideHandler => "NextOutsideHandler"
  | nextKindMismatch expected got =>
    "NextKindMismatch \x7b expected: " ++ quoted expected ++ ", got: " ++ quoted got ++ " \x7d"
  | unrecognizedOperation kind => "UnrecognizedOperation(" ++ quoted kind ++ ")"
  | forbiddenTerminal kind => "ForbiddenTerminal(" ++ quoted kind ++ ")"
  | usage operation message =>
    "Usage \x7b operation: " ++ quoted operation ++ ", message: " ++ quoted message ++ " \x7d"
  | cancelled => "Cancelled"
  | interrupted => "Interrupted"
  | cancelFailed error => "CancelFailed(" ++ error.debug ++ ")"
  | deferred error masked =>
    "Deferred \x7b error: " ++ error.debug ++ ", masked: " ++ masked.debug ++ " \x7d"
  | panicked message => "Panicked(" ++ quoted message ++ ")"
  | application failure => "Application(" ++ failure.report ++ ")"

/-- Whether the error reports a task that settled because it was cancelled. -/
def isCancelled : Error → Bool
  | cancelled => true
  | _ => false

/-- Whether the error reports a misuse of the engine and not a failure of application code. -/
def isUsage : Error → Bool
  | nextOutsideHandler | nextKindMismatch .. | unrecognizedOperation _ | forbiddenTerminal _
  | usage .. => true
  | _ => false

def failure? : Error → Option Failure
  | application failure => some failure
  | _ => none

inductive Plain where
  | nextOutsideHandler | nextKindMismatch | unrecognizedOperation | forbiddenTerminal | usage
  | cancelled | interrupted | panicked
deriving DecidableEq

def plain? : Error → Option Plain
  | nextOutsideHandler => some .nextOutsideHandler
  | nextKindMismatch .. => some .nextKindMismatch
  | unrecognizedOperation _ => some .unrecognizedOperation
  | forbiddenTerminal _ => some .forbiddenTerminal
  | usage .. => some .usage
  | cancelled => some .cancelled
  | interrupted => some .interrupted
  | panicked _ => some .panicked
  | cancelFailed _ | deferred .. | application _ => none

/-- Whether two errors are the same failure: failures of application code by identity, errors that
hold others part by part, and all others by kind and text. -/
def same : Error → Error → Bool
  | application a, application b => a.id == b.id
  | cancelFailed a, cancelFailed b => a.same b
  | deferred a x, deferred b y => a.same b && x.same y
  | a, b =>
    match a.plain?, b.plain? with
    | some p, some q => p == q && a.message == b.message
    | _, _ => false

/-- The error a frame hands on when one of its deferred operations failed with `error`, given what
it was about to deliver: an error on its way is kept as the masked one. -/
def overriding {α : Type} (error : Error) : Except Error α → Error
  | .ok _ => error
  | .error masked => deferred error masked

end Error

end EffectEngine
