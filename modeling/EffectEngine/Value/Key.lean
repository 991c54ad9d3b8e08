import EffectEngine.Error
import EffectEngine.TaskId
import EffectEngine.Number.Double

/-!
# Grouping keys

`KeyPart` is the form in which a value decides which calls go together: parts of different types
never agree, floats agree by bits, errors when they are the same failure and sealed payloads when
they are one allocation. `KeyPart.digest` is what a hash of a key depends on.
-/

namespace EffectEngine

/-- The structural form of a value used as a grouping key. -/
inductive KeyPart where
  | null
  | bool (b : Bool)
  | int (i : Int64)
  | float (bits : UInt64)
  | str (s : String)
  | list (items : List KeyPart)
  | task (id : TaskId)
  | error (e : Error)
  | sealed (id : Nat)
deriving Inhabited, Repr

namespace KeyPart

mutual

/-- Whether two keys group together. -/
def agrees : KeyPart → KeyPart → Bool
  | null, null => true
  | bool a, bool b => a == b
  | int a, int b => a == b
  | float a, float b => a == b
  | str a, str b => a == b
  | list a, list b => agreeAll a b
  | task a, task b => a == b
  | error a, error b => a.same b
  | sealed a, sealed b => a == b
  | _, _ => false

def agreeAll : List KeyPart → List KeyPart → Bool
  | [], [] => true
  | a :: as, b :: bs => agrees a b && agreeAll as bs
  | _, _ => false

end

instance : BEq KeyPart := ⟨agrees⟩

/-- One datum that a hash of a key takes in. -/
inductive Datum where
  | tag (n : Nat)
  | bool (b : Bool)
  | int (i : Int64)
  | word (w : UInt64)
  | text (s : String)
  | length (n : Nat)
  | task (id : TaskId)
  | address (id : Nat)
deriving DecidableEq, Repr

mutual

/-- The data a hash of a key takes in: the type first, then what the value holds. An error enters
by its text. -/
def digest : KeyPart → List Datum
  | null => [.tag 0]
  | bool b => [.tag 1, .bool b]
  | int i => [.tag 2, .int i]
  | float bits => [.tag 3, .word bits]
  | str s => [.tag 4, .text s]
  | list items => .tag 5 :: .length items.length :: digestAll items
  | task id => [.tag 6, .task id]
  | error e => [.tag 7, .text e.message]
  | sealed id => [.tag 8, .address id]

def digestAll : List KeyPart → List Datum
  | [] => []
  | k :: ks => digest k ++ digestAll ks

end

end KeyPart

/-- What the calls of one batch have in common: the identity of the underlying function and the
key of the call. -/
structure BatchKey where
  func : Nat
  key : KeyPart
deriving Inhabited, Repr

instance : BEq BatchKey := ⟨fun a b => a.func == b.func && a.key == b.key⟩

end EffectEngine
