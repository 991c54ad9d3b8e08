import EffectEngine.Value.Key
import EffectEngine.Number.Shortest

/-!
# Values

`Value` is what generators are resumed with and complete with. `Value.display` and `Value.debug`
are its two texts, `Value.eq` its equality and `Value.key` its form as a grouping key.
-/

namespace EffectEngine

inductive Payload where
  | labelled (label : String)
  | foreign
  | batch (key : BatchKey)
deriving Inhabited, Repr

/-- A value passed into or out of a generator. -/
inductive Value where
  | null
  | bool (b : Bool)
  | int (i : Int64)
  | float (x : Double)
  | str (s : String)
  | list (items : List Value)
  | task (id : TaskId)
  | error (e : Error)
  /-- A payload the engine does not look into; `id` is its allocation. -/
  | sealed (id : Nat) (payload : Payload)
deriving Inhabited, Repr

abbrev Outcome := Except Error Value

namespace Value

def isNull : Value → Bool
  | null => true
  | _ => false

/-- `null`, `false`, zero, NaN and the empty string are not truthy; all else is. -/
def isTruthy : Value → Bool
  | null => false
  | bool b => b
  | int i => i != 0
  | float x => !x.isZero && !x.isNaN
  | str s => s != ""
  | _ => true

def bool? : Value → Option Bool
  | bool b => some b
  | _ => none

def int? : Value → Option Int64
  | int i => some i
  | _ => none

/-- A float as it is, an integer as the nearest double. -/
def float? : Value → Option Double
  | float x => some x
  | int i => some (.ofInt i.toInt)
  | _ => none

def str? : Value → Option String
  | str s => some s
  | _ => none

def list? : Value → Option (List Value)
  | list items => some items
  | _ => none

def task? : Value → Option TaskId
  | task id => some id
  | _ => none

def error? : Value → Option Error
  | error e => some e
  | _ => none

def label? : Value → Option String
  | sealed _ (.labelled label) => some label
  | _ => none

def batchKey? : Value → Option BatchKey
  | sealed _ (.batch key) => some key
  | _ => none

def typeName : Value → String
  | null => "null"
  | bool _ => "bool"
  | int _ => "int"
  | float _ => "float"
  | str _ => "string"
  | list _ => "list"
  | task _ => "task"
  | error _ => "error"
  | sealed .. => "opaque"

def intoList : Value → Except Error (List Value)
  | list items => .ok items
  | v => .error (.usage "value" ("expected a list, got " ++ v.typeName))

def intoTask : Value → Except Error TaskId
  | task id => .ok id
  | v => .error (.usage "value" ("expected a task handle, got " ++ v.typeName))

mutual

/-- Equality of values: floats numerically, errors and sealed payloads by identity. -/
def eq : Value → Value → Bool
  | null, null => true
  | bool a, bool b => a == b
  | int a, int b => a == b
  | float a, float b => a.numEq b
  | str a, str b => a == b
  | list a, list b => eqAll a b
  | task a, task b => a == b
  | error a, error b => a.same b
  | sealed a _, sealed b _ => a == b
  | _, _ => false

def eqAll : List Value → List Value → Bool
  | [], [] => true
  | a :: as, b :: bs => eq a b && eqAll as bs
  | _, _ => false

end

instance : BEq Value := ⟨eq⟩

mutual

def key : Value → KeyPart
  | null => .null
  | bool b => .bool b
  | int i => .int i
  | float x => .float x.bits
  | str s => .str s
  | list items => .list (keys items)
  | task id => .task id
  | error e => .error e
  | sealed id _ => .sealed id

def keys : List Value → List KeyPart
  | [] => []
  | v :: vs => key v :: keys vs

end

def bracketed (items : List String) : String := "[" ++ joinTexts ", " items ++ "]"

mutual

def display : Value → String
  | null => "null"
  | bool b => if b then "true" else "false"
  | int i => toString i.toInt
  | float x => NumberFormat.plain.write x
  | str s => s
  | list items => bracketed (displayAll items)
  | task id => "<task " ++ id.text ++ ">"
  | error e => "<error " ++ e.message ++ ">"
  | sealed .. => "<opaque>"

def displayAll : List Value → List String
  | [] => []
  | v :: vs => display v :: displayAll vs

end

mutual

def debug : Value → String
  | null => "Null"
  | bool b => "Bool(" ++ (if b then "true" else "false") ++ ")"
  | int i => "Int(" ++ toString i.toInt ++ ")"
  | float x => "Float(" ++ NumberFormat.debug.write x ++ ")"
  | str s => "Str(" ++ quoted s ++ ")"
  | list items => "List(" ++ bracketed (debugAll items) ++ ")"
  | task id => "Task(" ++ id.debug ++ ")"
  | error e => "Error(" ++ e.debug ++ ")"
  | sealed .. => "Opaque(..)"

def debugAll : List Value → List String
  | [] => []
  | v :: vs => debug v :: debugAll vs

end

end Value

end EffectEngine
