import EffectEngine.Proofs.Batch.Sections
import EffectEngine.Proofs.Task.Transparency

/-!
# The observers of the library

`Watcher` lists the middleware of the library that only delegate, `Trace` and `Metrics`. What their
code does is what `Observer.Delegates` asks for: it writes at most to the journal and to the counters
of the world, which `World.Resembles` leaves out.
-/

namespace EffectEngine

namespace World

variable {T : ClientSig}

/-- Worlds that differ at most in what observers write. -/
def Resembles (w w' : World T.sig) : Prop :=
  ∃ journal counters, w' = { w with journal, state := { w.state with counters } }

theorem Resembles.refl (w : World T.sig) : Resembles w w := ⟨_, _, rfl⟩

/-- What observers write makes no difference. -/
def Disregards (Same : World T.sig → World T.sig → Prop) : Prop :=
  ∀ w w' w'', Same w w' → Resembles w' w'' → Same w w''

theorem disregards_resembles : Disregards (Resembles (T := T)) := by
  rintro w _ _ ⟨_, _, rfl⟩ ⟨journal, counters, rfl⟩
  exact ⟨journal, counters, rfl⟩

end World

inductive Watcher where
  | trace (label : String)
  | metrics (counters : CountersId)

namespace Watcher

def observer {γ F μ : Type} (before after : List (Registration (Middleware μ))) :
    Watcher → Observer (Gen γ F) F (Middleware μ)
  | trace label =>
    { middleware := .trace label
      created := fun op => .ofOpening (.trace label op)
      waiting := fun op => .library "trace" (.suspended (.trace label op.kind))
      finished := .library "trace" .finished
      before, after }
  | metrics counters =>
    { middleware := .metrics counters
      created := fun op => .ofOpening (.metrics counters op)
      waiting := fun _ => .library "metrics" (.suspended (.metrics counters))
      finished := .library "metrics" .finished
      before, after }

end Watcher

/-- The surroundings run the code of an observer. -/
structure Surroundings.Hosts {T : ClientSig} (c : Client T) (ctx : ContextId)
    (v : Observer T.sig.Gen T.Fn T.sig.Mw)
    (env : Surroundings (World T.sig) T.sig.Gen T.Fn T.sig.Mw) : Prop where
  filter : ∀ op w, w.runSync (c.filterMw v.middleware op ctx) =
    (.ok (env.filter v.middleware op w).1, (env.filter v.middleware op w).2)
  handle : ∀ op w, w.runSync (c.handleMw v.middleware op ctx) =
    (.ok (env.handle v.middleware op w).1, (env.handle v.middleware op w).2)
  resume : ∀ g op input w, g = v.created op ∨ g = v.waiting op →
    w.runAsks (c.resumeGen g input) = (.done (env.resume g input w).1, (env.resume g input w).2)

namespace Watcher

variable {T : ClientSig} {c : Client T} {ctx : ContextId}
  {env env' : Surroundings (World T.sig) T.sig.Gen T.Fn T.sig.Mw}
  {before after : List (Registration T.sig.Mw)} {Same : World T.sig → World T.sig → Prop}

theorem delegates (o : Watcher) (hosts : env.Hosts c ctx (o.observer before after))
    (disregards : World.Disregards Same) : (o.observer before after).Delegates Same env where
  filter op w w' same := by
    have ran := hosts.filter op w'
    cases o <;> obtain ⟨accepts, left⟩ := Prod.mk.inj ran
    · exact ⟨(Except.ok.inj accepts).symm, left ▸ same⟩
    · exact ⟨(Except.ok.inj accepts).symm, left ▸ same⟩
  handle op w w' same := by
    have ran := hosts.handle op w'
    cases o <;> obtain ⟨creates, left⟩ := Prod.mk.inj ran
    · exact ⟨(Except.ok.inj creates).symm, disregards _ _ _ same (left ▸ ⟨_, _, rfl⟩)⟩
    · exact ⟨(Except.ok.inj creates).symm, disregards _ _ _ same (left ▸ ⟨_, _, rfl⟩)⟩
  start op value w w' same := by
    have ran := hosts.resume _ op (.next value) w' (.inl rfl)
    cases o <;> obtain ⟨yields, left⟩ := Prod.mk.inj ran
    · exact ⟨(Code.done.inj yields).symm, disregards _ _ _ same (left ▸ ⟨_, _, rfl⟩)⟩
    · exact ⟨(Code.done.inj yields).symm, disregards _ _ _ same (left ▸ ⟨_, _, rfl⟩)⟩
  proceed op outcome w w' same := by
    have ran := hosts.resume _ op (.deliver outcome) w' (.inr rfl)
    have delivered : (Resume.deliver outcome).outcome = outcome := by cases outcome <;> rfl
    cases o <;> obtain ⟨ends, left⟩ := Prod.mk.inj ran
    · rw [delivered] at ends
      exact ⟨(Code.done.inj ends).symm, disregards _ _ _ same (left ▸ ⟨_, _, rfl⟩)⟩
    · rw [delivered] at ends
      exact ⟨(Code.done.inj ends).symm, disregards _ _ _ same (left ▸ ⟨_, _, rfl⟩)⟩

/-- `Trace` and `Metrics` are transparent in every run that they do not disturb, wherever they are
in the chain of calls and whatever is called: the task settles with the same outcome as without
them, and every generator is resumed with the same value or error. -/
theorem transparent_unless_disturbed (o : Watcher)
    (hosts : env'.Hosts c ctx (o.observer before after)) (disregards : World.Disregards Same)
    (agree : env.Matches Same env') (id : TaskId) (root : T.sig.Yielded) {w w' : World T.sig}
    (same : Same w w') :
    let v : Observer T.sig.Gen T.Fn T.sig.Mw := o.observer before after
    let plain n := (env.turn v.plain)^[n] (.fresh id root, ⟨w, []⟩)
    let watched n := (env'.turn v.watched)^[n] (.fresh id root, ⟨w', []⟩)
    (∀ n, ¬ v.Disturbed (watched n).1) →
      (∀ r, (∃ n, (plain n).1.stage = .settled r) ↔ ∃ n, (watched n).1.stage = .settled r) ∧
      ∀ n, ∃ n', n ≤ n' ∧ v.Alongside Same (plain n).2 (watched n').2 :=
  Observer.transparent (o.delegates hosts disregards) agree id root same

/-- A client whose generators are scripts; its functions are given by the numbers of theirs. -/
def scriptSig : ClientSig where
  Gen := Cursor
  Target := Nat
  Grouping := Unit
  Mw := Unit
  Key := Unit
  User := Unit
  Note := Unit
  Listener := Unit
  Seed := Unit

def scriptFn (func : Nat) : scriptSig.Fn := .plain (toString func) func default func

def scriptError : Error := .application ⟨0, "body failed", []⟩

/-- The first function defers a call of the second one, which recovers what it finds, and fails. The
third one defers the second one without a call, and calls the fourth one, which fails. -/
def scripts : Client scriptSig where
  resume g input :=
    match g with
    | ⟨0, 0⟩ => .done (.yielded (.operation (.defer (.call (scriptFn 1) []))), ⟨0, 1⟩)
    | ⟨0, 1⟩ => .done (.complete (.error scriptError), g)
    | ⟨1, 0⟩ => .done (.yielded (.operation .recover), ⟨1, 1⟩)
    | ⟨2, 0⟩ => .done (.yielded (.operation (.defer (.execute (.client ⟨1, 0⟩)))), ⟨2, 1⟩)
    | ⟨2, 1⟩ => .done (.yielded (.operation (.call (scriptFn 3) [])), ⟨2, 2⟩)
    | ⟨3, 0⟩ => .done (.complete (.error scriptError), g)
    | _ => .done (.complete input.outcome, g)
  release _ := .done ()
  filter _ _ _ := .done true
  handle _ _ _ := .done (.error .cancelled)
  invoke _ func _ := .done (.ok ⟨func, 0⟩)
  key _ _ := .done .null
  hook _ _ _ := .done (.ok ())
  start _ := .done (.ok .null)
  crash _ := ()

/-- Every function tells how many calls have been counted. -/
def tellers : Client scriptSig :=
  { scripts with
    resume := fun g _ => .ask .get fun s =>
      .done (.complete (.ok (.int (.ofNat (s.counters.getD 0 default).handled))), g) }

/-- The surroundings of a task in an engine without any other middleware of the library than
observers, with a client whose generators never wait. -/
def scriptEngine (c : Client scriptSig) :
    Surroundings (World scriptSig.sig) scriptSig.sig.Gen scriptSig.Fn scriptSig.sig.Mw where
  resume g input w :=
    match g with
    | .client _ | .library _ (.created (.trace ..)) | .library _ (.created (.metrics ..))
    | .library _ (.suspended (.trace ..)) | .library _ (.suspended (.metrics ..)) =>
      match w.runAsks (c.resumeGen g input) with
      | (.done answer, w) => (answer, w)
      | (_, w) => ((.complete input.outcome, g), w)
    | g => ((.complete input.outcome, g), w)
  filter _ _ w := (true, w)
  handle m op w :=
    match m with
    | .trace _ | .metrics _ =>
      match w.runSync (c.handleMw m op ⟨0⟩) with
      | (.ok result, w) => (result, w)
      | (.error _, w) => (.error .cancelled, w)
    | _ => (.error .cancelled, w)
  invoke func args w :=
    match w.runSync (Client.invokeWith c.invoke func args) with
    | (.ok result, w) => (result, w)
    | (.error _, w) => (.error .cancelled, w)
  fork _ w := (default, w)

theorem scriptEngine_hosts (c : Client scriptSig) (o : Watcher)
    (before after : List (Registration scriptSig.sig.Mw)) :
    (scriptEngine c).Hosts c ⟨0⟩ (o.observer before after) where
  filter op w := by cases o <;> rfl
  handle op w := by cases o <;> rfl
  resume g op input w created := by
    cases o <;> rcases created with rfl | rfl <;> cases input <;> rfl

theorem scriptEngine_matches :
    (scriptEngine scripts).Matches World.Resembles (scriptEngine scripts) where
  resume g input := by
    rintro w _ ⟨journal, counters, rfl⟩
    cases g with
    | client g =>
      have answers : ∃ a, scripts.resume g input = .done a := by
        simp only [scripts]
        split <;> exact ⟨_, rfl⟩
      obtain ⟨a, answers⟩ := answers
      simp only [scriptEngine, Client.resumeGen, answers]
      exact ⟨rfl, _, _, rfl⟩
    | library name coroutine =>
      rcases coroutine with opening | midway | _
      · cases opening <;> cases input <;> exact ⟨rfl, _, _, rfl⟩
      · cases midway <;> exact ⟨rfl, _, _, rfl⟩
      · exact ⟨rfl, _, _, rfl⟩
  filter m op := by
    rintro w _ ⟨journal, counters, rfl⟩
    exact ⟨rfl, _, _, rfl⟩
  handle m op := by
    rintro w _ ⟨journal, counters, rfl⟩
    cases m <;> exact ⟨rfl, _, _, rfl⟩
  invoke func args := by
    rintro w _ ⟨journal, counters, rfl⟩
    cases func <;> exact ⟨rfl, _, _, rfl⟩
  fork root := by
    rintro w _ ⟨journal, counters, rfl⟩
    exact ⟨rfl, _, _, rfl⟩

def scriptWorld : World scriptSig.sig :=
  .start 0 { contexts := #[], counters := #[default], allocations := 0, user := () } false

/-- A call of a script, after some turns of its task. -/
def scriptRun (c : Client scriptSig) (registry : Registry scriptSig.sig.Mw) (func n : Nat) :
    scriptSig.sig.Task × Scene (World scriptSig.sig) scriptSig.sig.Gen scriptSig.Fn scriptSig.sig.Mw :=
  ((scriptEngine c).turn registry)^[n]
    (.fresh default (.operation (.call (scriptFn func) [])), ⟨scriptWorld, []⟩)

theorem scriptRun_settled {c : Client scriptSig} {registry : Registry scriptSig.sig.Mw}
    {func n n' : Nat} {r : Outcome} (settled : (scriptRun c registry func n).1.stage = .settled r)
    (later : n ≤ n') : scriptRun c registry func n' = scriptRun c registry func n :=
  Observer.settled_iterate later settled

def tracing : Observer scriptSig.sig.Gen scriptSig.Fn scriptSig.sig.Mw :=
  (trace "").observer [] []

def counting : Observer scriptSig.sig.Gen scriptSig.Fn scriptSig.sig.Mw :=
  (metrics ⟨0⟩).observer [] []

/-- A deferred call that recovers finds the error that the frame of its caller holds, but not if an
observer stands in between; and a function may tell what an observer has counted. -/
theorem outcome_depends_on_observer :
    ((scriptEngine scripts).Hosts scripts ⟨0⟩ tracing ∧
      (scriptEngine scripts).Matches World.Resembles (scriptEngine scripts) ∧
      (scriptRun scripts tracing.plain 0 21).1.stage = .settled (.ok .null) ∧
      ∀ n r, (scriptRun scripts tracing.watched 0 n).1.stage = .settled r →
        r = .error scriptError) ∧
    (scriptEngine tellers).Hosts tellers ⟨0⟩ counting ∧
      (scriptRun tellers counting.plain 0 7).1.stage = .settled (.ok (.int 0)) ∧
      ∀ n r, (scriptRun tellers counting.watched 0 n).1.stage = .settled r → r = .ok (.int 1) := by
  have only {c : Client scriptSig} {registry : Registry scriptSig.sig.Mw} {N : Nat} {r : Outcome}
      (settled : (scriptRun c registry 0 N).1.stage = .settled r) (n : Nat) (r' : Outcome)
      (settled' : (scriptRun c registry 0 n).1.stage = .settled r') : r' = r := by
    rcases Nat.le_total n N with later | later
    · rw [scriptRun_settled settled' later] at settled
      exact Stage.settled.inj (settled'.symm.trans settled)
    · rw [scriptRun_settled settled later] at settled'
      exact Stage.settled.inj (settled'.symm.trans settled)
  exact ⟨⟨scriptEngine_hosts scripts (.trace "") [] [], scriptEngine_matches, rfl,
      only (N := 35) rfl⟩,
    scriptEngine_hosts tellers (.metrics ⟨0⟩) [] [], rfl, only (N := 14) rfl⟩

/-- A function that defers a recovery and calls another one, which fails, settles with and without
an observer. -/
theorem transparent_unless_disturbed_recovering :
    let plain := scriptRun scripts tracing.plain 2
    let watched := scriptRun scripts tracing.watched 2
    (∀ n, ¬ tracing.Disturbed (watched n).1) ∧ (watched 41).1.stage = .settled (.ok .null) ∧
      (watched 41).2.actions.length = 16 ∧
      (∀ r, (∃ n, (plain n).1.stage = .settled r) ↔ ∃ n, (watched n).1.stage = .settled r) ∧
      ∀ n, ∃ n', n ≤ n' ∧ tracing.Alongside World.Resembles (plain n).2 (watched n').2 := by
  have settled : (scriptRun scripts tracing.watched 2 41).1.stage = .settled (.ok .null) := rfl
  have checked : ∀ n < 42, tracing.disturbs (scriptRun scripts tracing.watched 2 n).1 = false := by
    decide +kernel
  have undisturbed (n : Nat) : ¬ tracing.Disturbed (scriptRun scripts tracing.watched 2 n).1 := by
    intro disturbed
    rcases Nat.lt_or_ge n 42 with early | late
    · exact Bool.false_ne_true ((checked n early).symm.trans disturbed.disturbs)
    · rw [scriptRun_settled settled (by omega)] at disturbed
      exact Bool.false_ne_true ((checked 41 (by decide)).symm.trans disturbed.disturbs)
  have asked : (scriptRun scripts tracing.watched 2 41).2.actions.length = 16 := by
    decide +kernel
  exact ⟨undisturbed, settled, asked,
    (trace "").transparent_unless_disturbed (scriptEngine_hosts scripts (.trace "") [] [])
      World.disregards_resembles scriptEngine_matches default _ (.refl scriptWorld) undisturbed⟩

end Watcher

end EffectEngine
