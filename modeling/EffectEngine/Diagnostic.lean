import EffectEngine.Error
import EffectEngine.TaskId

/-!
# Diagnostics and events

A misuse of cleanup code never fails a task: it is emitted as a `Diagnostic`. Each is logged as a
warning `Event`, and a `Recorder` that is recording keeps it as well.
-/

namespace EffectEngine

inductive Severity where
  | trace | debug | warning
deriving DecidableEq, Inhabited, Repr

structure Event where
  severity : Severity
  message : String
  fields : List (String × String)
deriving DecidableEq, Inhabited, Repr

/-- A misuse observed while a task was driven. -/
inductive Diagnostic where
  /-- A frame that was replaced still had deferred operations. -/
  | skippedDefers (task : TaskId) (frame : String) (count : Nat)
  /-- A frame asked to return suspended again. -/
  | unfinishedTermination (task : TaskId) (frame : String)
  /-- A frame asked to return failed while cleaning up. -/
  | failedTermination (task : TaskId) (frame : String) (error : String)
deriving DecidableEq, Inhabited, Repr

namespace Diagnostic

def event : Diagnostic → Event
  | skippedDefers task frame count =>
    ⟨.warning, "terminate: deferred operations are not executed",
      [("count", toString count), ("frame", frame), ("task", task.text)]⟩
  | unfinishedTermination task frame =>
    ⟨.warning, "terminate: generator did not finish, "
        ++ "terminal should not be used inside cleanup code",
      [("frame", frame), ("task", task.text)]⟩
  | failedTermination task frame error =>
    ⟨.warning, "terminate: generator did not terminate properly",
      [("error", error), ("frame", frame), ("task", task.text)]⟩

end Diagnostic

/-- What an engine keeps of the emitted diagnostics, oldest first. -/
structure Recorder where
  recording : Bool
  recorded : List Diagnostic
deriving DecidableEq, Inhabited, Repr

namespace Recorder

def empty (recording : Bool) : Recorder := ⟨recording, []⟩

def emit (r : Recorder) (d : Diagnostic) : Recorder :=
  if r.recording then { r with recorded := r.recorded ++ [d] } else r

def clear (r : Recorder) : Recorder := { r with recorded := [] }

inductive Use where
  | emit (d : Diagnostic)
  | look
  | clear

/-- What is recorded after each of some uses. -/
def history (r : Recorder) : List Use → List (List Diagnostic)
  | [] => []
  | use :: rest =>
    let r := match use with
      | .emit d => r.emit d
      | .look => r
      | .clear => r.clear
    r.recorded :: r.history rest

end Recorder

end EffectEngine
