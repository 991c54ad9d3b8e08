import EffectEngine.World

/-!
# The machine

`World.step` makes one move of the running thread or of the clock, and `World.run` moves on while a
condition holds. `World.runMain` runs the body of a main thread within a time limit and then lets
the remaining threads come to rest; `World.runToEnd` runs a main thread without a limit.
-/

namespace EffectEngine

inductive MainResult where
  | ended (outcome : Outcome)
  | panicked (message : String)
  /-- It did not end in time, or could never go on. -/
  | stuck
deriving Inhabited

namespace World

variable {S : Sig} {α : Type}

/-- The generators held by the levels of a thread, in the order in which a panic lets go of them:
those of the innermost level first. -/
def unwound (w : World S) (levels : List (Level S)) : List S.Gen :=
  levels.flatMap fun
    | .task id _ => ((w.task? id).map (·.generators)).getD []
    | _ => []

/-- The generators held by the levels of a thread, in the order in which they are let go when the
thread is dropped: those of the outermost level first, and with the generator that a level is
resuming those of the levels inside. -/
def dropped (w : World S) (levels : List (Level S)) : List S.Gen :=
  levels.foldl (fun inside level =>
    match level with
    | .task id _ => ((w.task? id).map (·.generatorsAround inside)).getD inside
    | _ => inside) []

def release (host : Host S) (w : World S) (generators : List S.Gen) : World S :=
  generators.foldl (fun w g => (w.runSync (host.release g)).2) w

def mainThread : ThreadId := ⟨0⟩

def bottomTask? (levels : List (Level S)) : Option TaskId :=
  match levels.getLast? with
  | some (.task id _) => some id
  | _ => none

/-- A panic of the running thread: its levels are given up, the innermost first. A background task
settles with the panic, any other background thread leaves a note. -/
def crash (host : Host S) (w : World S) (id : ThreadId) (levels : List (Level S))
    (message : String) : World S :=
  let w := w.release host (w.unwound levels)
  let w := match bottomTask? levels with
    | some task =>
      (w.modifyTask task (·.panicked message)).wake (.task task) (.error (.panicked message))
    | none => if id == mainThread then w else w.write (.note (host.crash message))
  w.endThread id (.crashed message)

def finishLevel (w : World S) (id : ThreadId) (below : List (Level S)) (outcome : Outcome) :
    World S :=
  match below with
  | [] => w.endThread id (.ended outcome)
  | .root task ctx life none :: rest =>
    w.setLevels id (.root task ctx (life.taskEnded outcome) none :: rest)
  | level :: rest => w.setLevels id (level.deliver outcome :: rest)

/-- Has an effect take place for code whose rest is `k`; `level` makes a level of the flow. -/
def perform (host : Host S) (w : World S) (id : ThreadId) (below : List (Level S))
    (level : Flow S α → Level S) (e : Effect S.Ctx S.Gen S.Fn S.Seed) (k : Outcome → S.Code α) :
    World S :=
  match e with
  | .wait wait =>
    match w.poll wait with
    | .inl outcome => w.setLevels id (level (.going (k outcome)) :: below)
    | .inr event => (w.setLevels id (level (.waiting k) :: below)).block id event
  | .spawn ctx root =>
    let (task, w) := w.spawn ctx root
    w.setLevels id (level (.going (k (.ok (.task task)))) :: below)
  | .run ctx root =>
    let (task, w) := w.addTask ctx root
    w.setLevels id
      (.root task ctx (.begin host.listeners) none :: level (.waiting k) :: below)
  | .go seed =>
    let (thread, w) := w.addThread [.body (.going (host.start seed))]
    w.setLevels id (level (.going (k (.ok (.int (.ofNat thread.index))))) :: below)

/-- One move of the code at the innermost level; `finish` takes its result. -/
def stepCode (host : Host S) (w : World S) (id : ThreadId) (below : List (Level S))
    (level : Flow S α → Level S) (finish : World S → α → World S) : S.Code α → World S
  | .done a => finish w a
  | .panic message => w.crash host id (level (.going (.panic message)) :: below) message
  | .ask q k =>
    let (a, w) := w.answer q
    w.setLevels id (level (.going (k a)) :: below)
  | .perform e k => w.perform host id below level e k

def stepSync (host : Host S) (w : World S) (id : ThreadId) (levels : List (Level S))
    (finish : World S → α → World S) (code : S.Sync α) : World S :=
  match w.runSync code with
  | (.ok a, w) => finish w a
  | (.error message, w) => w.crash host id levels message

def grant (host : Host S) (w : World S) (id : ThreadId) (levels below : List (Level S))
    (task : TaskId) (ctx : S.Ctx) (request : Request S.Gen S.Fn S.Mw) : World S :=
  match request with
  | .silent => w
  | .resume generator input =>
    w.setLevels id (.task task (some (.going (host.resume generator input))) :: below)
  | .retire generator =>
    let code := (host.resume generator .forcedReturn).bind fun (signal, generator) =>
      (Code.lift (host.release generator)).bind fun _ => .done (signal, generator)
    w.setLevels id (.task task (some (.going code)) :: below)
  | .filter middleware op =>
    w.stepSync host id levels (fun w accepts => w.modifyTask task (·.filtered accepts))
      (host.filter middleware op ctx)
  | .handle middleware op =>
    w.stepSync host id levels (fun w result => w.modifyTask task (·.handled result))
      (host.handle middleware op ctx)
  | .invoke func args =>
    w.stepSync host id levels (fun w result => w.modifyTask task (·.invoked result))
      (host.invoke func args)
  | .fork root =>
    let (child, w) := w.spawn ctx (.operation root)
    w.modifyTask task (·.forked child)
  | .report d => w.report d

def stepTask (host : Host S) (w : World S) (id : ThreadId) (below : List (Level S))
    (task : TaskId) : World S :=
  match w.task? task, w.ctx? task with
  | some t, some ctx =>
    let (t, request) := t.step host.registry
    let w := w.modifyTask task fun _ => t
    match t.outcome? with
    | some outcome => (w.wake (.task task) outcome).finishLevel id below outcome
    | none => w.grant host id (.task task none :: below) below task ctx request
  | _, _ => w.finishLevel id below (.ok .null)

def taskResumed (t : S.Task) (signal : S.Signal) (generator : S.Gen) : S.Task :=
  match t.stage with
  | .retiring .. => t.retired signal
  | _ => t.resumed signal generator

def stepRoot (host : Host S) (w : World S) (id : ThreadId) (below : List (Level S))
    (task : TaskId) (ctx : S.Ctx) (life : Lifecycle S.Listener) : World S :=
  match life.step with
  | (life, .silent) => w.setLevels id (.root task ctx life none :: below)
  | (life, .call listener hook) =>
    w.setLevels id (.root task ctx life (some (.going (host.hook listener hook ctx))) :: below)
  | (life, .runTask) => w.setLevels id (.task task none :: .root task ctx life none :: below)
  | (_, .finish result) => w.finishLevel id below result

/-- A hook ended; a failure without effect is logged. -/
def rootHookEnded (w : World S) (id : ThreadId) (below : List (Level S)) (task : TaskId)
    (ctx : S.Ctx) (life : Lifecycle S.Listener) (result : Except Error Unit) : World S :=
  let w := match result with
    | .ok _ => w
    | .error e => match Lifecycle.hookWarning life.phase e with
      | some event => w.write (.event event)
      | none => w
  w.setLevels id (.root task ctx (life.hookEnded result) none :: below)

def stepThread (host : Host S) (w : World S) (id : ThreadId) (levels : List (Level S)) : World S :=
  match levels with
  | [] => w.endThread id (.ended (.ok .null))
  | .body (.going c) :: below =>
    w.stepCode host id below .body (fun w outcome => w.finishLevel id below outcome) c
  | .task task none :: below => w.stepTask host id below task
  | .task task (some (.going c)) :: below =>
    w.stepCode host id below (fun flow => .task task (some flow))
      (fun w (signal, generator) =>
        (w.modifyTask task fun t => taskResumed t signal generator).setLevels id
          (.task task none :: below)) c
  | .root task ctx life none :: below => w.stepRoot host id below task ctx life
  | .root task ctx life (some (.going c)) :: below =>
    w.stepCode host id below (fun flow => .root task ctx life (some flow))
      (fun w result => w.rootHookEnded id below task ctx life result) c
  | .body (.waiting _) :: _ | .task _ (some (.waiting _)) :: _
  | .root _ _ _ (some (.waiting _)) :: _ => w

def nextDeadline? (w : World S) : Option Nat :=
  w.waiting.foldl
    (fun
      | none, (_, .deadline t) => some t
      | some s, (_, .deadline t) => some (min s t)
      | earliest, _ => earliest) none

def movesBefore (w : World S) (time : Nat) : Bool :=
  !w.ready.isEmpty || w.nextDeadline?.any (· < time)

def canMove (w : World S) : Bool := !w.ready.isEmpty || w.nextDeadline?.isSome

/-- One move: of the first thread of the queue, or of the clock to the next deadline. -/
def step (host : Host S) (w : World S) : World S :=
  match w.ready with
  | id :: _ =>
    match w.threads[id.index]? with
    | some thread => w.stepThread host id thread.levels
    | none => { w with ready := w.ready.tail }
  | [] =>
    match w.nextDeadline? with
    | some time => { w with clock := time }.wake (.deadline time) (.ok .null)
    | none => w

/-- Moves on while `goesOn` holds and a thread can go on, for at most the given number of moves. -/
def run (host : Host S) (goesOn : World S → Bool) : Nat → World S → World S
  | 0, w => w
  | fuel + 1, w => if goesOn w && w.canMove then run host goesOn fuel (w.step host) else w

def fate? (w : World S) (id : ThreadId) : Option Fate := w.threads[id.index]?.bind (·.fate)

def abandon (host : Host S) (w : World S) (id : ThreadId) : World S :=
  match w.threads[id.index]? with
  | none => w
  | some thread =>
    { w with
      ready := w.ready.filter (· != id)
      waiting := w.waiting.filter (·.1 != id)
      threads := w.threads.modify id.index fun _ => ⟨[], none⟩ }.release host
      (w.dropped thread.levels)

/-- The clock time by which the main thread has to end, and the time given to the remaining threads
after that. -/
def timeLimit : Nat := 1000000

/-- The clock reaches the limit: the main thread goes on before all others, until it ends or has to
wait. -/
def lastTurn (host : Host S) (fuel : Nat) (w : World S) : World S :=
  let w := { w with clock := timeLimit }.wake (.deadline timeLimit) (.ok .null)
  let (main, others) := w.ready.partition (· == mainThread)
  let w : World S := { w with ready := main ++ others }
  w.run host (fun w => w.ready.head? == some mainThread) fuel

/-- Lets the remaining threads come to rest: goes on until a thread that starts to sleep now wakes
up. -/
def comeToRest (host : Host S) (fuel : Nat) (w : World S) : World S :=
  let id : ThreadId := ⟨w.threads.size⟩
  let w : World S := { w with
    threads := w.threads.push ⟨[.body (.waiting fun _ => .done (.ok .null))], none⟩
    waiting := w.waiting ++ [(id, .deadline (w.clock + timeLimit))] }
  w.run host (fun w => (w.fate? id).isNone) fuel

def mainResult (w : World S) : MainResult :=
  match w.fate? mainThread with
  | some (.ended outcome) => .ended outcome
  | some (.crashed message) => .panicked message
  | none => .stuck

def addMain (w : World S) (body : S.Code Outcome) : World S :=
  (w.addThread [.body (.going body)]).2

def runToEnd (host : Host S) (fuel : Nat) (w : World S) (body : S.Code Outcome) : World S :=
  (w.addMain body).run host (fun w => (w.fate? mainThread).isNone) fuel

/-- Runs `body` as the main thread within the time limit and then what is left, with so many moves
at most for each part. A main thread that has not ended by then is stuck, and dropped. -/
def runMain (host : Host S) (fuel : Nat) (w : World S) (body : S.Code Outcome) :
    MainResult × World S :=
  let w := (w.addMain body).run host
    (fun w => (w.fate? mainThread).isNone && w.movesBefore timeLimit) fuel
  let w := if (w.fate? mainThread).isNone then w.lastTurn host fuel else w
  let result := w.mainResult
  let w := if (w.fate? mainThread).isNone then w.abandon host mainThread else w
  (result, w.comeToRest host fuel)

end World

end EffectEngine
