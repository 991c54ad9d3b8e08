import EffectEngine.Host

/-!
# The world

`World` is the whole state of a run: the clock, all tasks, promises and threads, the queue of
threads that can go on and the list of those that wait. A `Thread` is a stack of `Level`s: code, a
root task with its listeners, or a task being driven.
-/

namespace EffectEngine

/-- A computation on a thread: going on, or waiting for the outcome of an effect. -/
inductive Flow (S : Sig) (α : Type) where
  | going (c : S.Code α)
  | waiting (k : Outcome → S.Code α)

namespace Flow

variable {S : Sig} {α : Type}

def deliver (outcome : Outcome) : Flow S α → Flow S α
  | waiting k => going (k outcome)
  | going c => going c

end Flow

/-- One level of a thread. The levels above it run on its behalf. -/
inductive Level (S : Sig) where
  | body (flow : Flow S Outcome)
  /-- A task being driven; the flow is that of the generator being resumed. -/
  | task (id : TaskId) (flow : Option (Flow S (S.Signal × S.Gen)))
  /-- The life of a root task; the flow is that of the hook being called. -/
  | root (id : TaskId) (ctx : S.Ctx) (life : Lifecycle S.Listener)
    (flow : Option (Flow S (Except Error Unit)))

def Level.deliver {S : Sig} (outcome : Outcome) : Level S → Level S
  | .body flow => .body (flow.deliver outcome)
  | .task id flow => .task id (flow.map (·.deliver outcome))
  | .root id ctx life flow => .root id ctx life (flow.map (·.deliver outcome))

inductive Fate where
  | ended (outcome : Outcome)
  | crashed (message : String)
deriving Inhabited

/-- The end of a thread, as seen by one that joins it. -/
def Fate.outcome : Fate → Outcome
  | .ended outcome => outcome
  | .crashed m => .error (.panicked m)

/-- A thread: its levels, the innermost first, and its fate once it has ended. -/
structure Thread (S : Sig) where
  levels : List (Level S)
  fate : Option Fate

instance {S : Sig} : Inhabited (Thread S) := ⟨⟨[], none⟩⟩

inductive Pending where
  | deadline (time : Nat)
  | task (id : TaskId)
  | promise (id : PromiseId)
  | thread (id : ThreadId)
deriving DecidableEq, Inhabited, Repr

inductive Entry (N : Type) where
  | note (n : N)
  | event (e : Event)

structure World (S : Sig) where
  tag : UInt64
  state : S.State
  clock : Nat
  /-- The tasks and their contexts, by number. -/
  tasks : Array (S.Task × S.Ctx)
  promises : Array (Option Outcome)
  threads : Array (Thread S)
  /-- The threads that can go on; the first one is running. -/
  ready : List ThreadId
  /-- The threads that wait, in the order in which they began to. -/
  waiting : List (ThreadId × Pending)
  /-- Notes and events, newest first. -/
  journal : List (Entry S.Note)
  recorder : Recorder

namespace World

variable {S : Sig} {α : Type}

def start (tag : UInt64) (state : S.State) (recording : Bool) : World S :=
  ⟨tag, state, 0, #[], #[], #[], [], [], [], .empty recording⟩

def task? (w : World S) (id : TaskId) : Option S.Task := w.tasks[id.index]?.map (·.1)

def ctx? (w : World S) (id : TaskId) : Option S.Ctx := w.tasks[id.index]?.map (·.2)

def modifyTask (w : World S) (id : TaskId) (change : S.Task → S.Task) : World S :=
  { w with tasks := w.tasks.modify id.index fun (t, ctx) => (change t, ctx) }

def outcome? (w : World S) (id : TaskId) : Option Outcome := (w.task? id).bind (·.outcome?)

def isSettled (w : World S) (id : TaskId) : Bool := (w.outcome? id).isSome

def requestCancel (w : World S) (id : TaskId) : Bool × World S :=
  match w.task? id with
  | some t => (t.requestCancel.1, w.modifyTask id fun t => t.requestCancel.2)
  | none => (false, w)

def addTask (w : World S) (ctx : S.Ctx) (root : S.Yielded) : TaskId × World S :=
  let id : TaskId := ⟨w.tag, w.tasks.size⟩
  (id, { w with tasks := w.tasks.push (.fresh id root, ctx) })

def addThread (w : World S) (levels : List (Level S)) : ThreadId × World S :=
  let id : ThreadId := ⟨w.threads.size⟩
  (id, { w with threads := w.threads.push ⟨levels, none⟩, ready := w.ready ++ [id] })

def spawn (w : World S) (ctx : S.Ctx) (root : S.Yielded) : TaskId × World S :=
  let (id, w) := w.addTask ctx root
  (id, (w.addThread [.task id none]).2)

def write (w : World S) (entry : Entry S.Note) : World S :=
  { w with journal := entry :: w.journal }

/-- Emits a diagnostic: it is logged, and recorded if the recorder is recording. -/
def report (w : World S) (d : Diagnostic) : World S :=
  { w.write (.event d.event) with recorder := w.recorder.emit d }

def modifyLevels (w : World S) (id : ThreadId) (change : List (Level S) → List (Level S)) :
    World S :=
  { w with threads := w.threads.modify id.index fun t => { t with levels := change t.levels } }

def setLevels (w : World S) (id : ThreadId) (levels : List (Level S)) : World S :=
  w.modifyLevels id fun _ => levels

def deliver (w : World S) (id : ThreadId) (outcome : Outcome) : World S :=
  w.modifyLevels id fun levels => levels.modifyHead (Level.deliver outcome)

/-- Wakes the threads that wait for `event`, in the order in which they began to wait. -/
def wake (w : World S) (event : Pending) (outcome : Outcome) : World S :=
  let woken := (w.waiting.filter (·.2 == event)).map (·.1)
  let w := { w with
    waiting := w.waiting.filter (·.2 != event)
    ready := w.ready ++ woken }
  woken.foldl (fun w id => w.deliver id outcome) w

/-- Fulfils a promise that has not been fulfilled. -/
def fulfil (w : World S) (id : PromiseId) (outcome : Outcome) : World S :=
  match w.promises[id.index]? with
  | some none =>
    { w with promises := w.promises.modify id.index fun _ => some outcome }.wake
      (.promise id) outcome
  | _ => w

def answer (w : World S) : (q : Query S.State S.Note) → q.Answer × World S
  | .get => (w.state, w)
  | .put state => ((), { w with state })
  | .now => (w.clock, w)
  | .isSettled id => (w.isSettled id, w)
  | .requestCancel id => w.requestCancel id
  | .newPromise => (⟨w.promises.size⟩, { w with promises := w.promises.push none })
  | .fulfil id outcome => ((), w.fulfil id outcome)
  | .note n => ((), w.write (.note n))
  | .log e => ((), w.write (.event e))
  | .recorded => (w.recorder.recorded, w)
  | .clearRecorded => ((), { w with recorder := w.recorder.clear })

/-- Runs code that never waits; the error is the message of a panic. -/
def runSync (w : World S) : S.Sync α → Except String α × World S
  | .done a => (.ok a, w)
  | .panic m => (.error m, w)
  | .ask q k =>
    let (a, w) := w.answer q
    runSync w (k a)
  | .perform e _ => nomatch e

/-- The outcome of a wait that is already over, or what the thread has to wait for. -/
def poll (w : World S) : Wait → Outcome ⊕ Pending
  | .sleep ms => if ms == 0 then .inl (.ok .null) else .inr (.deadline (w.clock + ms))
  | .task id =>
    match w.outcome? id with
    | some outcome => .inl outcome
    | none => .inr (.task id)
  | .promise id =>
    match w.promises[id.index]? with
    | some (some outcome) => .inl outcome
    | _ => .inr (.promise id)
  | .thread id =>
    match w.threads[id.index]?.bind (·.fate) with
    | some fate => .inl fate.outcome
    | none => .inr (.thread id)

/-- Takes the running thread out of the queue until `event`. -/
def block (w : World S) (id : ThreadId) (event : Pending) : World S :=
  { w with ready := w.ready.tail, waiting := w.waiting ++ [(id, event)] }

def endThread (w : World S) (id : ThreadId) (fate : Fate) : World S :=
  { w with
    threads := w.threads.modify id.index fun _ => ⟨[], some fate⟩
    ready := w.ready.tail }.wake (.thread id) fate.outcome

end World

end EffectEngine
