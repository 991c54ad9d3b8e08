import EffectEngine.Config.Json

/-!
# Configuration

The settings of an engine and of batching, with their text as JSON records.
-/

namespace EffectEngine

def boolText (b : Bool) : String := if b then "true" else "false"

structure EngineConfig where
  recordDiagnostics : Bool
deriving DecidableEq, Inhabited, Repr

namespace EngineConfig

def standard : EngineConfig := ⟨false⟩

def withRecordedDiagnostics (c : EngineConfig) : EngineConfig :=
  { c with recordDiagnostics := true }

def field : String := "record_diagnostics"

def read? (text : String) : Option EngineConfig :=
  (Json.readRecord? field Json.readBool text).map fun
    | some b => ⟨b⟩
    | none => standard

def write (c : EngineConfig) : String :=
  "\x7b\"" ++ field ++ "\":" ++ boolText c.recordDiagnostics ++ "\x7d"

def debug (c : EngineConfig) : String :=
  "EngineConfig \x7b record_diagnostics: " ++ boolText c.recordDiagnostics ++ " \x7d"

end EngineConfig

structure BatchConfig where
  /-- The time, armed anew by every call, before a batch is run. -/
  timeoutMs : UInt64
deriving DecidableEq, Inhabited, Repr

namespace BatchConfig

def standard : BatchConfig := ⟨0⟩

/-- The settings with a timeout of so many seconds and nanoseconds, rounded down to milliseconds and
capped at the largest word. -/
def withTimeout (seconds nanoseconds : Nat) : BatchConfig :=
  ⟨(min (seconds * 1000 + nanoseconds / 1000000) (UInt64.size - 1)).toUInt64⟩

def timeout (c : BatchConfig) : Nat × Nat :=
  (c.timeoutMs.toNat / 1000, c.timeoutMs.toNat % 1000 * 1000000)

def field : String := "timeout_ms"

def read? (text : String) : Option BatchConfig :=
  (Json.readRecord? field Json.readWord text).map fun
    | some ms => ⟨ms⟩
    | none => standard

def write (c : BatchConfig) : String :=
  "\x7b\"" ++ field ++ "\":" ++ toString c.timeoutMs.toNat ++ "\x7d"

def debug (c : BatchConfig) : String :=
  "BatchConfig \x7b timeout_ms: " ++ toString c.timeoutMs.toNat ++ " \x7d"

end BatchConfig

end EffectEngine
