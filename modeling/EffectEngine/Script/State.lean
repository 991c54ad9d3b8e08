import EffectEngine.Client
import EffectEngine.Script.Term

/-!
# The state of scripts

`Session` is the part of the shared state that belongs to scripts, `Scope` what one body sees, and
`ScriptGen` the generators that scripts make: coroutines, whose code is suspended as a function of
the outcome, and generators that take raw steps.
-/

namespace EffectEngine.Script

abbrev Fn := GeneratorFn FunctionTerm GroupingTerm

structure Session where
  functions : List (String × Fn)
  globals : List (String × Value)
  contexts : List (String × ContextId)
  counters : List (String × CountersId)
  /-- Threads started and not yet joined, oldest first. -/
  threads : List ThreadId
  engine : Option String

abbrev State := Shared UserSlot Fn Session

inductive Note where
  | value (v : Value)
  | tap (label : String) (v : Value)
  /-- A raw generator was resumed; the name is missing for an anonymous one. -/
  | resume (name : Option String) (input : Resume)
  | hook (name : String) (hook : Hook)
  /-- A resumption ended: with what was yielded, as text, or with an outcome. -/
  | resumption (input : Resume) (result : String ⊕ Outcome)
  | threadFailed (e : Error)
  | threadPanicked (message : String)
  | diagnostics (ds : List Diagnostic)
  | metrics (counters : List (String × Counters))
deriving Inhabited

/-- What a script can see of the operation being handled. -/
structure Handled where
  kind : String
  payload : Value
  func : Option String
  args : List Value
  inner : Option String

/-- What a body sees: `G` is the type of generators. -/
structure Scope (G : Type) where
  vars : List (String × Value)
  args : List Value
  ctx : Option ContextId
  handled : Option Handled
  /-- The operation being handled, until it is used. -/
  op : Option (Operation G Fn)

structure ThreadTerm where
  vars : List (String × Value)
  ctx : Option ContextId
  body : List Stmt

structure BodyTerm (G : Type) where
  scope : Scope G
  body : List Stmt

inductive ScriptGen where
  | coroutine (name : String)
    (c : Coroutine (BodyTerm (Gen ScriptGen Fn))
      (Outcome →
        Code (BodyEffect ContextId (Gen ScriptGen Fn) Fn ThreadTerm) State Note Outcome))
  /-- Takes raw steps; `shown` is the name in the journal. -/
  | raw (name : String) (shown : Option String) (steps : List RawStep)
    (scope : Scope (Gen ScriptGen Fn))

instance : Named ScriptGen where
  name
    | .coroutine name _ => name
    | .raw name .. => name

abbrev scriptSig : ClientSig where
  Gen := ScriptGen
  Target := FunctionTerm
  Grouping := GroupingTerm
  Mw := MiddlewareTerm
  Key := UserSlot
  User := Session
  Note := Note
  Listener := ListenerTerm
  Seed := ThreadTerm

abbrev AnyGen := Gen ScriptGen Fn

abbrev Op := Operation AnyGen Fn

abbrev BodyCode (α : Type) := Code (BodyEffect ContextId AnyGen Fn ThreadTerm) State Note α

abbrev ScriptCode (E α : Type) := Code E State Note α

namespace Session

def empty : Session := ⟨[], [], [], [], [], none⟩

end Session

def find? {α : Type} (name : String) (entries : List (String × α)) : Option α :=
  entries.lookup name

def define {α : Type} (name : String) (a : α) (entries : List (String × α)) :
    List (String × α) :=
  (name, a) :: entries.filter (·.1 != name)

namespace Scope

variable {G : Type}

def ofArgs (args : List Value) : Scope G := ⟨[], args, none, none, none⟩

def empty : Scope G := ofArgs []

def var (s : Scope G) (name : String) : Value := (find? name s.vars).getD .null

/-- Sets a variable, if there is a name. -/
def set (s : Scope G) (name : Option String) (v : Value) : Scope G :=
  match name with
  | some name => { s with vars := define name v s.vars }
  | none => s

end Scope

def Handled.ofOp {G : Type} (op : Operation G Fn) : Handled where
  kind := op.kind
  payload := ((op.custom?).map (·.2)).getD .null
  func := (op.call?).map (·.1.name)
  args := ((op.call?).map (·.2)).getD []
  inner := (op.inner?).map (·.kind)

def newFailure {E : Type} (outer : String) (causes : List String) : ScriptCode E Error :=
  Shared.allocate.bind fun id => .done (.application ⟨id, outer, causes⟩)

def modifySession {E : Type} (change : Session → Session) : ScriptCode E Unit :=
  Code.modifyState fun s => { s with user := change s.user }

def getSession {E : Type} : ScriptCode E Session :=
  Code.getState.bind fun s => .done s.user

def newContext {E : Type} : ScriptCode E ContextId :=
  ContextId.fresh (V := Slot.Content Fn (χ := UserSlot))

/-- The context of a name, made when it is first used. -/
def namedContext {E : Type} (name : String) : ScriptCode E ContextId :=
  getSession.bind fun u =>
    match find? name u.contexts with
    | some ctx => .done ctx
    | none => newContext.bind fun ctx =>
      (modifySession fun u => { u with contexts := define name ctx u.contexts }).bind fun _ =>
        .done ctx

def contextOf {E : Type} : Option String → ScriptCode E ContextId
  | some name => namedContext name
  | none => newContext

section Slots

variable {E : Type} (ctx : ContextId) (slot : UserSlot)

def getSlot : ScriptCode E (Option Value) := ctx.get? (V := Slot.Content Fn) (.user slot)

/-- Stores a value in a slot and answers with the one it replaces. -/
def putSlot (v : Value) : ScriptCode E (Option Value) :=
  ctx.insert (V := Slot.Content Fn) (.user slot) v

def deleteSlot : ScriptCode E (Option Value) := ctx.remove (V := Slot.Content Fn) (.user slot)

def hasSlot : ScriptCode E Bool := ctx.contains (V := Slot.Content Fn) (.user slot)

def initSlot (init : ScriptCode E Value) : ScriptCode E Value :=
  ctx.getOrInsertWith (V := Slot.Content Fn) (.user slot) init

end Slots

def countersByName (s : State) : List (String × Counters) :=
  s.user.counters.map fun (name, id) => (name, (s.counters[id.index]?).getD default)

end EffectEngine.Script
