import EffectEngine.Coroutine

/-!
# Coroutines over mailboxes

A coroutine and the body it drives talk through two `Mailboxes` of one slot each: a
`Suspend` leaves there what is yielded when it is polled first, and takes from there the input that
answers it when it is polled again. `Cell` is a coroutine that works in this way. Between
resumptions both mailboxes are empty, and the cell behaves as a `Coroutine`
(`Cell.resume_of`).
-/

namespace EffectEngine

variable {E σ N G F α β Y : Type}

/-! ### Laws of code -/

namespace Code

theorem bind_done {γ : Type} (code : Code E σ N γ) : code.bind done = code := by
  induction code with
  | done | panic => rfl
  | ask q k ih => exact congrArg (ask q) (funext ih)
  | perform e k ih => exact congrArg (perform e) (funext ih)

theorem bind_bind {γ δ ε : Type} (code : Code E σ N γ) (f : γ → Code E σ N δ)
    (g : δ → Code E σ N ε) : (code.bind f).bind g = code.bind fun a => (f a).bind g := by
  induction code with
  | done | panic => rfl
  | ask q k ih => exact congrArg (ask q) (funext ih)
  | perform e k ih => exact congrArg (perform e) (funext ih)

instance : LawfulMonad (Code E σ N) :=
  LawfulMonad.mk' _ bind_done (fun _ _ => rfl) bind_bind

end Code

/-! ### Mailboxes -/

/-- The values on their way between a coroutine and its body. -/
structure Mailboxes (Y : Type) where
  yielded : Option Y
  input : Option Resume

namespace Mailboxes

def empty : Mailboxes Y := ⟨none, none⟩

end Mailboxes

/-- What a poll finds: a result, or what is to be polled again. -/
inductive Poll (R S : Type) where
  | ready (result : R)
  | pending (rest : S)

/-- A yield that is awaited; it holds what it yields until it is polled first. -/
structure Suspend (Y : Type) where
  pending : Option Y

namespace Suspend

def yielding (y : Y) : Suspend Y := ⟨some y⟩

/-- The first poll hands over what is yielded, a later one asks for the input. -/
def poll (s : Suspend Y) (x : Mailboxes Y) : Poll Outcome (Suspend Y) × Mailboxes Y :=
  match s.pending with
  | some y => (.pending ⟨none⟩, { x with yielded := some y })
  | none =>
    match x.input with
    | some input => (.ready input.outcome, { x with input := none })
    | none => (.pending s, x)

/-- A yield that is answered has taken the input. -/
theorem poll_ready {s : Suspend Y} {x x' : Mailboxes Y} {outcome : Outcome}
    (h : s.poll x = (.ready outcome, x')) : x.input.isSome = true ∧ x'.input = none := by
  unfold poll at h
  split at h
  · simp at h
  · split at h
    · next input known =>
      obtain ⟨-, rfl⟩ := Prod.mk.inj h
      exact ⟨by rw [known, Option.isSome_some], rfl⟩
    · simp at h

end Suspend

/-- A body between two polls: not begun, or at a yield that it awaits. -/
inductive Future (Y α β : Type) where
  | unborn (start : α)
  | awaiting (s : Suspend Y) (rest : β)

namespace Future

/-- Polls the yield that a body awaits and, once it is answered, runs the body to the next one. -/
def pollAt (body : Body E σ N Y α β) (s : Suspend Y) (rest : β) (x : Mailboxes Y) :
    Code E σ N (Poll Outcome (Future Y α β) × Mailboxes Y) :=
  match _polled : s.poll x with
  | (.pending s, x) => pure (.pending (awaiting s rest), x)
  | (.ready answer, x) => do
    match ← body.proceed rest answer with
    | .finish outcome => pure (.ready outcome, x)
    | .suspend y rest => pollAt body (.yielding y) rest x
termination_by x.input.isSome.toNat
decreasing_by
  obtain ⟨full, taken⟩ := Suspend.poll_ready _polled
  simp [full, taken]

def poll (body : Body E σ N Y α β) :
    Future Y α β → Mailboxes Y → Code E σ N (Poll Outcome (Future Y α β) × Mailboxes Y)
  | unborn start, x => do
    match ← body.start start with
    | .finish outcome => pure (.ready outcome, x)
    | .suspend y rest => pollAt body (.yielding y) rest x
  | awaiting s rest, x => pollAt body s rest x

/-- How the poll ends that runs the body up to its next yield or its end: what is yielded has been
handed over. -/
def polled : Pause Y β → Poll Outcome (Future Y α β) × Mailboxes Y
  | .finish outcome => (.ready outcome, .empty)
  | .suspend y rest => (.pending (awaiting ⟨none⟩ rest), ⟨some y, none⟩)

/-- A body that comes to a yield hands it over and waits. -/
theorem pollAt_yielding (body : Body E σ N Y α β) (y : Y) (rest : β) (x : Mailboxes Y) :
    pollAt body (.yielding y) rest x =
      pure (.pending (awaiting ⟨none⟩ rest), { x with yielded := some y }) := by
  rw [pollAt]
  rfl

/-- An input answers the yield that was handed over last. -/
theorem pollAt_answered (body : Body E σ N Y α β) (rest : β) (input : Resume) :
    pollAt body ⟨none⟩ rest ⟨none, some input⟩ = polled <$> body.proceed rest input.outcome := by
  rw [pollAt]
  simp only [Suspend.poll, pollAt_yielding, map_eq_pure_bind]
  exact bind_congr fun pause => by cases pause <;> rfl

theorem poll_unborn (body : Body E σ N Y α β) (start : α) :
    poll body (unborn start) .empty = polled <$> body.start start := by
  simp only [poll, pollAt_yielding, map_eq_pure_bind]
  exact bind_congr fun pause => by cases pause <;> rfl

/-- Lets go of a body. One that awaits its yields holds nothing else. -/
def drop (body : Body E σ N Y α β) : Future Y α β → Code E σ N Unit
  | unborn start => body.release start
  | awaiting .. => pure ()

end Future

inductive Cell.Progress where
  | created
  | suspended
  | finished
deriving DecidableEq

/-- A coroutine that reaches its body through mailboxes. -/
structure Cell (Y α β : Type) where
  body : Option (Future Y α β)
  mailboxes : Mailboxes Y
  progress : Cell.Progress

namespace Cell

def new (start : α) : Cell Y α β := ⟨some (.unborn start), .empty, .created⟩

/-- Completes, letting go of the body if there still is one. -/
def finish (body : Body E σ N (Yielded G F) α β) (c : Cell (Yielded G F) α β) (outcome : Outcome) :
    Code E σ N (Option (Signal G F) × Cell (Yielded G F) α β) := do
  if let some future := c.body then future.drop body
  pure (some (.complete outcome), { c with body := none, progress := .finished })

/-- Polls the body. If it has left nothing behind then no one will poll it again, and there is no
signal. -/
def drive (body : Body E σ N (Yielded G F) α β) (c : Cell (Yielded G F) α β) :
    Code E σ N (Option (Signal G F) × Cell (Yielded G F) α β) :=
  match c.body with
  | none => finish body c (.ok .null)
  | some future => do
    match ← future.poll body c.mailboxes with
    | (.ready outcome, x) => finish body { c with body := none, mailboxes := x } outcome
    | (.pending future, x) =>
      pure (x.yielded.map .yielded, ⟨some future, { x with yielded := none }, c.progress⟩)

def resume (body : Body E σ N (Yielded G F) α β) (c : Cell (Yielded G F) α β) (input : Resume) :
    Code E σ N (Option (Signal G F) × Cell (Yielded G F) α β) :=
  match c.progress, input with
  | .finished, .throw e => finish body c (.error e)
  | .finished, _ => finish body c (.ok .null)
  | .created, .forcedReturn => finish body c (.ok .null)
  | .created, .throw e => finish body c (.error e)
  | .created, .next _ => drive body { c with progress := .suspended }
  | .suspended, input =>
    drive body { c with mailboxes.input := some input, progress := .suspended }

/-- The cell that stands for a coroutine between two resumptions: both mailboxes are empty, and the
body has handed over what it yielded last. -/
def of : Coroutine α β → Cell Y α β
  | .created start => new start
  | .suspended rest => ⟨some (.awaiting ⟨none⟩ rest), .empty, .suspended⟩
  | .finished => ⟨none, .empty, .finished⟩

variable (body : Body E σ N (Yielded G F) α β)

theorem drive_polled {future : Future (Yielded G F) α β} {x : Mailboxes (Yielded G F)}
    {stretch : Code E σ N (Pause (Yielded G F) β)}
    (polled : future.poll body x = Future.polled <$> stretch) :
    drive body ⟨some future, x, .suspended⟩ =
      Prod.map some of <$> Coroutine.settle (α := α) <$> stretch := by
  simp only [drive, polled, bind_assoc, map_eq_pure_bind]
  refine bind_congr fun pause => ?_
  cases pause <;> rfl

/-- A cell behaves as the coroutine that it stands for, and never fails to give a signal. -/
theorem resume_of (c : Coroutine α β) (input : Resume) :
    (of c).resume body input = Prod.map some of <$> c.resume body input := by
  cases c with
  | created start =>
    cases input with
    | next v => exact drive_polled body (Future.poll_unborn body start)
    | throw e | forcedReturn =>
      change (do body.release start; pure _) = Prod.map some of <$> (do body.release start; pure _)
      simp only [map_bind, map_pure]
      rfl
  | suspended rest =>
    have answered : (Future.awaiting ⟨none⟩ rest : Future _ α β).poll body ⟨none, some input⟩ =
        Future.polled <$> body.proceed rest input.outcome := by
      rw [Future.poll, Future.pollAt_answered]
    exact drive_polled body answered
  | finished => cases input <;> rfl

end Cell

end EffectEngine
