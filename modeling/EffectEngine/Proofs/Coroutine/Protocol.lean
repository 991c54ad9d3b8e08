import EffectEngine.Proofs.Coroutine.Mailbox
import EffectEngine.Script.Client

/-!
# The protocol of resumptions

`converse` resumes a coroutine with one input after the other. It comes to the same as to run the
body directly and to answer each of its yields with the next input (`Body.answering`, or
`Code.answering` for a body that is written down as code), unless the first input ends the coroutine
before its body has begun.
-/

namespace EffectEngine

variable {E σ N C G F B α β R S T : Type}

/-- Resumes with each input in turn, and collects what the resumptions come to. -/
def converse (resume : S → Resume → Code E σ N (R × S)) : S → List Resume → Code E σ N (List R × S)
  | s, [] => pure ([], s)
  | s, input :: inputs => do
    let (signal, s) ← resume s input
    Prod.map (signal :: ·) id <$> converse resume s inputs

/-- What behaves the same at each resumption does so in a whole conversation. -/
theorem converse_map {Q : Type} {resume : S → Resume → Code E σ N (R × S)}
    {resume' : T → Resume → Code E σ N (Q × T)} {f : R → Q} {g : S → T}
    (same : ∀ s input, resume' (g s) input = Prod.map f g <$> resume s input) (s : S)
    (inputs : List Resume) :
    converse resume' (g s) inputs = Prod.map (List.map f) g <$> converse resume s inputs := by
  induction inputs generalizing s with
  | nil => simp only [converse, map_pure, Prod.map, List.map_nil]
  | cons input inputs ih =>
    simp only [converse, same, map_eq_pure_bind, bind_assoc, pure_bind, Prod.map]
    refine bind_congr fun result => ?_
    simp only [ih, map_eq_pure_bind, bind_assoc, pure_bind, Prod.map, id, List.map_cons]

/-- What a coroutine that has completed says to an input. -/
def Resume.echo : Resume → Signal G F
  | .throw e => .complete (.error e)
  | _ => .complete (.ok .null)

namespace Body

/-- Runs a body on from where it stands, each yield answered by the next input; what comes after its
end is echoed. -/
def answering (body : Body E σ N (Yielded G F) α β) :
    Pause (Yielded G F) β → List Resume → Code E σ N (List (Signal G F) × Coroutine α β)
  | .finish outcome, inputs => pure (.complete outcome :: inputs.map Resume.echo, .finished)
  | .suspend y rest, [] => pure ([.yielded y], .suspended rest)
  | .suspend y rest, input :: inputs => do
    let pause ← body.proceed rest input.outcome
    Prod.map (.yielded y :: ·) id <$> answering body pause inputs

/-- A body written down as code. -/
def ofProgram (program : α → Code (BodyEffect C G F B) σ N Outcome)
    (release : α → Code (Effect C G F B) σ N Unit) :
    Body (Effect C G F B) σ N (Yielded G F) α
      (Outcome → Code (BodyEffect C G F B) σ N Outcome) where
  start a := (program a).untilSuspend
  proceed rest outcome := (rest outcome).untilSuspend
  release := release

/-- The bodies of scripts are written down as code. -/
example : Script.scriptBody =
    .ofProgram (fun b => Script.bodyCode b.body b.scope) fun _ => pure () := rfl

end Body

/-- Runs code with each yield answered by the next input; what comes after its end is echoed. -/
def Code.answering : Code (BodyEffect C G F B) σ N Outcome → List Resume →
    Code (Effect C G F B) σ N
      (List (Signal G F) × Coroutine α (Outcome → Code (BodyEffect C G F B) σ N Outcome))
  | done outcome, inputs => done (.complete outcome :: inputs.map Resume.echo, .finished)
  | panic m, _ => panic m
  | ask q k, inputs => ask q fun a => answering (k a) inputs
  | perform (.run e) k, inputs => perform e fun r => answering (k r) inputs
  | perform (.suspend y) k, [] => done ([.yielded y], .suspended k)
  | perform (.suspend y) k, input :: inputs =>
    Prod.map (.yielded y :: ·) id <$> answering (k input.outcome) inputs

theorem Code.answering_eq (program : α → Code (BodyEffect C G F B) σ N Outcome)
    (release : α → Code (Effect C G F B) σ N Unit) (code : Code (BodyEffect C G F B) σ N Outcome)
    (inputs : List Resume) :
    (code.untilSuspend >>= fun pause => (Body.ofProgram program release).answering pause inputs) =
      code.answering inputs := by
  induction code generalizing inputs with
  | done outcome => exact Body.answering.eq_1 ..
  | panic => rfl
  | ask q k ih => exact congrArg (ask q) (funext fun a => ih a inputs)
  | perform e k ih =>
    cases e with
    | run e => exact congrArg (perform e) (funext fun r => ih r inputs)
    | suspend y =>
      cases inputs with
      | nil => rfl
      | cons input inputs =>
        rw [answering, ← ih, map_bind]
        rfl

namespace Coroutine

variable (body : Body E σ N (Yielded G F) α β)

theorem converse_finished (inputs : List Resume) :
    converse (resume body) .finished inputs = pure (inputs.map Resume.echo, .finished) := by
  induction inputs with
  | nil => rfl
  | cons input inputs ih =>
    have echoed : resume body .finished input = pure (input.echo, .finished) := by
      cases input <;> rfl
    simp only [converse, echoed, pure_bind, ih, map_pure, Prod.map, id, List.map_cons]

/-- A conversation whose next resumption runs the body for one stretch. -/
theorem converse_stretch (stretch : Code E σ N (Pause (Yielded G F) β)) (inputs : List Resume) :
    (do
      let (signal, c) ← settle <$> stretch
      Prod.map (signal :: ·) id <$> converse (resume body) c inputs) =
      stretch >>= fun pause => body.answering pause inputs := by
  induction inputs generalizing stretch with
  | nil =>
    rw [bind_map_left]
    exact bind_congr fun pause => by cases pause <;> rfl
  | cons input inputs ih =>
    rw [bind_map_left]
    refine bind_congr fun pause => ?_
    cases pause with
    | finish outcome => simp only [settle, converse_finished, map_pure, Body.answering]; rfl
    | suspend y rest => simp only [settle, converse, resume, ih, Body.answering, map_bind]

end Coroutine

/-! ### What has been exchanged -/

/-- The code can come to a result: its questions and effects are answered somehow. -/
inductive Code.Gives {γ : Type} (result : γ) : Code E σ N γ → Prop
  | done : Gives result (done result)
  | ask {q : Query σ N} {k : q.Answer → Code E σ N γ} (answer : q.Answer)
    (rest : Gives result (k answer)) : Gives result (ask q k)
  | perform {e : E} {k : Outcome → Code E σ N γ} (outcome : Outcome)
    (rest : Gives result (k outcome)) : Gives result (perform e k)

/-- A body can come to a yield or its end after what it has yielded and been answered. -/
inductive Body.Reaches (body : Body E σ N (Yielded G F) α β) (start : α) :
    List (Yielded G F × Outcome) → Pause (Yielded G F) β → Prop
  | start {pause : Pause (Yielded G F) β} (runs : (body.start start).Gives pause) :
    Reaches body start [] pause
  | answered {past : List (Yielded G F × Outcome)} {y : Yielded G F} {rest : β} {outcome : Outcome}
    {pause : Pause (Yielded G F) β} (reaches : Reaches body start past (.suspend y rest))
    (runs : (body.proceed rest outcome).Gives pause) :
    Reaches body start (past ++ [(y, outcome)]) pause

/-- What a conversation comes to after the input that lets the body begin: as many yields of the
body as there are inputs and one more, each but the last answered by the next input, or its yields
up to its end, all of them answered in this way, and echoes of the inputs left. -/
inductive Body.Exchanges (body : Body E σ N (Yielded G F) α β) (start : α) :
    List Resume → List (Signal G F) → Coroutine α β → Prop
  | waits {past : List (Yielded G F × Outcome)} {y : Yielded G F} {rest : β} {inputs : List Resume}
    (reaches : body.Reaches start past (.suspend y rest))
    (answers : past.map (·.2) = inputs.map Resume.outcome) :
    Exchanges body start inputs (past.map (.yielded ·.1) ++ [.yielded y]) (.suspended rest)
  | ends {past : List (Yielded G F × Outcome)} {outcome : Outcome} {inputs after : List Resume}
    (reaches : body.Reaches start past (.finish outcome))
    (answers : past.map (·.2) = inputs.map Resume.outcome) :
    Exchanges body start (inputs ++ after)
      (past.map (.yielded ·.1) ++ .complete outcome :: after.map Resume.echo) .finished

theorem Code.gives_bind {γ δ : Type} {code : Code E σ N γ} {f : γ → Code E σ N δ} {result : δ}
    (h : (code >>= f).Gives result) : ∃ a, code.Gives a ∧ (f a).Gives result := by
  induction code with
  | done a => exact ⟨a, .done, h⟩
  | panic => cases h
  | ask q k ih =>
    cases h with
    | ask answer rest =>
      obtain ⟨a, gives, last⟩ := ih answer rest
      exact ⟨a, .ask answer gives, last⟩
  | perform e k ih =>
    cases h with
    | perform outcome rest =>
      obtain ⟨a, gives, last⟩ := ih outcome rest
      exact ⟨a, .perform outcome gives, last⟩

theorem Code.gives_map {γ δ : Type} {code : Code E σ N γ} {f : γ → δ} {result : δ}
    (h : (f <$> code).Gives result) : ∃ a, code.Gives a ∧ result = f a := by
  rw [map_eq_pure_bind] at h
  obtain ⟨a, gives, last⟩ := gives_bind h
  cases last
  exact ⟨a, gives, rfl⟩

/-- From a point of the body that was reached with the answers to all yields before it. -/
theorem Body.exchanges_of_answering {body : Body E σ N (Yielded G F) α β} {start : α}
    {past : List (Yielded G F × Outcome)} {pause : Pause (Yielded G F) β}
    {before inputs : List Resume} {signals : List (Signal G F)} {c : Coroutine α β}
    (reaches : body.Reaches start past pause)
    (answers : past.map (·.2) = before.map Resume.outcome)
    (gives : (body.answering pause inputs).Gives (signals, c)) :
    body.Exchanges start (before ++ inputs) (past.map (.yielded ·.1) ++ signals) c := by
  induction inputs generalizing past pause before signals with
  | nil =>
    cases pause with
    | finish outcome =>
      rw [answering] at gives
      cases gives
      exact .ends reaches answers
    | suspend y rest =>
      cases gives
      rw [List.append_nil]
      exact .waits reaches answers
  | cons input inputs ih =>
    cases pause with
    | finish outcome =>
      rw [answering] at gives
      cases gives
      exact .ends reaches answers
    | suspend y rest =>
      rw [answering] at gives
      obtain ⟨pause, runs, last⟩ := Code.gives_bind gives
      obtain ⟨⟨signals', c'⟩, next, same⟩ := Code.gives_map last
      obtain ⟨rfl, rfl⟩ := Prod.mk.inj same
      have answers' : (past ++ [(y, input.outcome)]).map (·.2) =
          (before ++ [input]).map Resume.outcome := by
        simp only [List.map_append, answers, List.map_cons, List.map_nil]
      have longer := ih (.answered reaches runs) answers' next
      simpa only [List.map_append, List.map_cons, List.map_nil, List.append_assoc,
        List.singleton_append] using longer

namespace Coroutine

variable (body : Body (Effect C G F B) σ N (Yielded G F) α β)

/-- What a coroutine makes of its inputs. -/
structure Protocol (start : α) (inputs : List Resume) : Prop where
  /-- The mailboxes between a coroutine and its body make no difference, and are empty at the
  end. -/
  mailboxes :
    converse (Cell.resume body) (.new start) inputs =
      Prod.map (List.map some) Cell.of <$> converse (resume body) (.created start) inputs
  /-- A forced return before the body has begun skips it, -/
  returned :
    converse (resume body) (.created start) (.forcedReturn :: inputs) = (do
      body.release start
      pure (.complete (.ok .null) :: inputs.map Resume.echo, .finished))
  /-- and so does an error. -/
  thrown (e : Error) :
    converse (resume body) (.created start) (.throw e :: inputs) = (do
      body.release start
      pure (.complete (.error e) :: inputs.map Resume.echo, .finished))
  /-- Otherwise the body is run, its yields answered by the inputs after the first one, -/
  answered (v : Value) :
    converse (resume body) (.created start) (.next v :: inputs) =
      body.start start >>= fun pause => body.answering pause inputs
  /-- which for a body written down as code is to run that code. -/
  program (program : α → Code (BodyEffect C G F B) σ N Outcome)
    (release : α → Code (Effect C G F B) σ N Unit) (v : Value) :
    converse (resume (.ofProgram program release)) (.created start) (.next v :: inputs) =
      (program start).answering inputs
  /-- So the signals and the answers are in step. -/
  exchanged (v : Value) {signals : List (Signal G F)} {c : Coroutine α β} :
    (converse (resume body) (.created start) (.next v :: inputs)).Gives (signals, c) →
      body.Exchanges start inputs signals c
  /-- One that has completed echoes. -/
  finished :
    converse (resume body) .finished inputs = pure (inputs.map Resume.echo, .finished)

theorem resumptions_in_step (start : α) (inputs : List Resume) : Protocol body start inputs where
  mailboxes := converse_map (Cell.resume_of body) (.created start) inputs
  returned := by simp only [converse, resume, bind_assoc, pure_bind, converse_finished]; rfl
  thrown e := by simp only [converse, resume, bind_assoc, pure_bind, converse_finished]; rfl
  answered v := converse_stretch body (body.start start) inputs
  program program release v := by
    have run := converse_stretch (.ofProgram program release)
      ((Body.ofProgram program release).start start) inputs
    exact run.trans (Code.answering_eq program release (program start) inputs)
  exchanged v {signals c} gives := by
    have run := converse_stretch body (body.start start) inputs
    change (do
      let (signal, c) ← settle <$> body.start start
      Prod.map (signal :: ·) id <$> converse (resume body) c inputs).Gives (signals, c) at gives
    rw [run] at gives
    obtain ⟨pause, runs, last⟩ := Code.gives_bind gives
    have answers : ([] : List (Yielded G F × Outcome)).map (·.2) = [].map Resume.outcome := rfl
    exact Body.exchanges_of_answering (.start runs) answers last
  finished := converse_finished body inputs

end Coroutine

end EffectEngine
