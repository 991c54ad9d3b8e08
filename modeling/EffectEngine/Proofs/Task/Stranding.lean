import EffectEngine.Proofs.Task.Custody
import Mathlib.Data.List.Induction

/-!
# How a completed frame loses its outcome

A completed frame is stranded when the dispatch of what a frame above yielded ends without leaving
any frame above. The first time this happens in a run, the frame above has just replaced itself
(`Vacated`), and the operation it chose pushed no frame. `Run.left_alone_iff` says that this is the
only way in which a completed frame is not left alone; `Run.stranded_loses_outcome` goes that way.
-/

namespace EffectEngine

/-- Whether an event leaves the frames on the stack as many as they are, none of them resumed. -/
def StackEvent.isPassing {G F : Type} : StackEvent G F → Bool
  | registered _ | recovered | cancelled => true
  | _ => false

/-- The top frame was replaced, and no frame was pushed or resumed since. -/
def Vacated {G F : Type} (history : List (StackEvent G F)) : Prop :=
  ∃ before since, history = before ++ .replaced :: since ∧ ∀ e ∈ since, e.isPassing = true

theorem Vacated.snoc {G F : Type} {history : List (StackEvent G F)} {e : StackEvent G F}
    (h : Vacated history) (he : e.isPassing = true) : Vacated (history ++ [e]) := by
  obtain ⟨before, since, rfl, passing⟩ := h
  refine ⟨before, since ++ [e], by simp, ?_⟩
  intro e' he'
  rcases List.mem_append.1 he' with he' | he'
  · exact passing e' he'
  · rwa [List.mem_singleton.1 he']

namespace Task

variable {G F M : Type} {t t' : Task G F M} {es history : List (StackEvent G F)}

/-- A completed frame is on top while something is dispatched that a frame yielded. -/
def Exposed (t : Task G F M) : Prop :=
  t.stage.purpose? = some .yielded ∧ ∃ f rest, t.frames = f :: rest ∧ f.completed = true

theorem vacated_turn (turn : Turn t es t') (h : t.Exposed → Vacated history)
    (resumed : t.stage = .resuming → ∀ f ∈ t.frames.head?, f.completed = false)
    (exposed : t'.Exposed) : Vacated (history ++ es) := by
  obtain ⟨purpose', f', rest', frames', done'⟩ := exposed
  cases turn with
  | idle =>
    rw [List.append_nil]
    exact h ⟨purpose', f', rest', frames', done'⟩
  | quiet s frames =>
    have none : f' :: rest' = [] := frames'.symm.trans frames
    cases none
  | onwards s p underway purpose =>
    rw [List.append_nil]
    obtain rfl : p = .yielded := Option.some.inj (purpose.symm.trans purpose')
    exact h ⟨Stage.purpose?_of_underway? underway, f', rest', frames', done'⟩
  | pushed g name slot p =>
    obtain ⟨rfl, rfl⟩ := List.cons.inj frames'
    cases done'
  | suspended f rest g y stage frames =>
    obtain ⟨rfl, rfl⟩ := List.cons.inj frames'
    have running : f.completed = false := resumed stage f (by rw [frames]; rfl)
    rw [running] at done'
    cases done'
  | registered f rest op p underway fits frames =>
    obtain ⟨rfl, rfl⟩ := List.cons.inj frames'
    obtain rfl : p = .yielded := Option.some.inj purpose'
    exact (h ⟨Stage.purpose?_of_underway? underway, f, rest, frames, done'⟩).snoc rfl
  | recovered top below rest e p underway fits frames =>
    obtain ⟨rfl, rfl⟩ := List.cons.inj frames'
    obtain rfl : p = .yielded := Option.some.inj purpose'
    exact (h ⟨Stage.purpose?_of_underway? underway, top, _, frames, done'⟩).snoc rfl
  | replaced => exact ⟨history, [], rfl, nofun⟩
  | forked outcome p stage =>
    rw [List.append_nil]
    obtain rfl : p = .yielded := Option.some.inj purpose'
    refine h ⟨by rw [stage]; rfl, ?_⟩
    rcases hf : t.frames with _ | ⟨f, rest⟩
    · rw [setCurrent_nil hf] at frames'
      have none : f' :: rest' = [] := frames'.symm.trans hf
      cases none
    · rw [setCurrent_cons hf] at frames'
      obtain ⟨rfl, rfl⟩ := List.cons.inj frames'
      exact ⟨f, rest, rfl, done'⟩
  | returned result | stranded f rest result => cases result <;> cases purpose'
  | popped f rest =>
    unfold handDown at purpose'
    split at purpose'
    · cases purpose'
    · simp only at purpose'
      split at purpose' <;> cases purpose'
  | cancelled =>
    obtain ⟨f, rest, frames, rfl, rfl⟩ := List.map_eq_cons_iff.1 frames'
    exact (h ⟨purpose', f, rest, frames, done'⟩).snoc rfl
  | resumed | completed | discharged | entrusted | undertaken => cases purpose'

theorem exposed_of_stranded (turn : Turn t es t') (h : .stranded ∈ es) :
    es = [.stranded] ∧ t.Exposed := by
  cases turn
  case stranded f rest result stage frames done =>
    exact ⟨rfl, by rw [stage]; rfl, f, rest, frames, done⟩
  case popped => split at h <;> simp at h
  all_goals simp at h

end Task

namespace Run

variable {G F M : Type} [Named G] {registry : Registry M} {id : TaskId} {root : Yielded G F}

/-- A completed frame is not resumed before a frame was stranded. -/
theorem running_of_resuming (impulses : List (Impulse G F)) :
    let r : Run G F M := (start id root).after registry impulses
    .stranded ∉ r.history → r.task.stage = .resuming →
      ∀ f ∈ r.task.frames.head?, f.completed = false := by
  intro r fresh stage f hf
  obtain ⟨rest, frames⟩ : ∃ rest, r.task.frames = f :: rest := List.head?_eq_some_iff.1 hf
  have acc := Task.accounted_of_stage (Run.accounted impulses) stage rfl frames
  have perm : (Ledger.replay r.history).events.Perm (r.history.filter (!·.isCommon)) :=
    events_perm impulses
  rcases live : (Ledger.replay r.history).live with _ | ⟨life, lives⟩
  · have kept := acc.live
    rw [live] at kept
    cases kept
  · have kept := acc.live
    rw [live] at kept
    cases kept with
    | cons top below =>
      by_contra done
      have done : f.completed = true := by simpa using done
      have stranded : .stranded ∈ life :=
        top.stranded_mem done (fun _ hc => hc.1 rfl) fun _ => Stage.stranded_of_lost
      have entered : .stranded ∈ (Ledger.replay r.history).events := by
        rw [Ledger.events, live]
        simp [stranded]
      exact fresh (List.mem_of_mem_filter (perm.mem_iff.1 entered))

theorem vacated (impulses : List (Impulse G F)) :
    let r : Run G F M := (start id root).after registry impulses
    .stranded ∉ r.history → r.task.Exposed → Vacated r.history := by
  induction impulses using List.reverseRecOn with
  | nil =>
    intro r fresh exposed
    cases exposed.1
  | append_singleton is i ih =>
    intro r fresh exposed
    have step : r = ((start id root).after registry is).take registry i := after_append ..
    rw [step] at fresh exposed ⊢
    have fresh : .stranded ∉ ((start id root).after registry is : Run G F M).history :=
      fun h => fresh (List.mem_append_left _ h)
    exact Task.vacated_turn (Task.turn_take (Run.coherent is) i) (ih fresh)
      (running_of_resuming is fresh) exposed

/-- The first time that a completed frame is stranded, the frame above has just been replaced. -/
theorem vacated_before_stranded (impulses : List (Impulse G F))
    {before rest : List (StackEvent G F)}
    (h : ((start id root).after registry impulses : Run G F M).history =
      before ++ .stranded :: rest) (first : .stranded ∉ before) : Vacated before := by
  induction impulses using List.reverseRecOn generalizing rest with
  | nil => simp [after, start] at h
  | append_singleton is i ih =>
    rw [after_append] at h
    let r : Run G F M := (start id root).after registry is
    let es : List (StackEvent G F) := r.task.observe registry i
    have history : r.history ++ es = before ++ .stranded :: rest := h
    have turn : Task.Turn r.task es (r.task.take registry i) := Task.turn_take (Run.coherent is) i
    have now (stranded : .stranded ∈ es) (same : before = r.history) : Vacated before := by
      rw [same] at first ⊢
      exact vacated is first (Task.exposed_of_stranded turn stranded).2
    -- Either the event is one of those of the last impulse, or it was there before.
    rcases List.append_eq_append_iff.1 history with ⟨mid, hb, hs⟩ | ⟨mid, hb, hs⟩
    · have stranded : .stranded ∈ es := by simp [hs]
      have alone : mid ++ .stranded :: rest = [.stranded] :=
        hs.symm.trans (Task.exposed_of_stranded turn stranded).1
      have none : mid = [] := by
        cases mid with
        | nil => rfl
        | cons e mid => simp at alone
      exact now stranded (by rw [hb, none, List.append_nil])
    · cases mid with
      | nil =>
        rw [List.nil_append] at hs
        exact now (by simp [← hs]) (by rw [hb, List.append_nil])
      | cons e mid =>
        obtain ⟨rfl, hm⟩ := List.cons.inj hs
        exact ih hb

/-- A completed frame is left alone, except by its deferred operations, exactly if it is never
stranded. Then it hands down what they made of its outcome; a stranded one is resumed. The first
frame to be stranded is so because the frame above has just replaced itself. -/
theorem left_alone_iff (registry : Registry M) (id : TaskId) (root : Yielded G F)
    (impulses : List (Impulse G F)) :
    let r : Run G F M := (start id root).after registry impulses
    let ledger := Ledger.replay r.history
    (∀ life ∈ ledger.live ++ ledger.ended, ∀ o after, life.sinceCompletion = some (o, after) →
      ((∃ c, Path Custody.Step (.held o) after c) ↔ .stranded ∉ after)) ∧
    (∀ life ∈ ledger.ended, ∀ o after, life.sinceCompletion = some (o, after) →
      (.stranded ∉ after → ∃ o', Path Custody.Step (.held o) after (.handed o')) ∧
      (.stranded ∈ after → ∃ input, .resumed input ∈ after)) ∧
    ∀ before rest, r.history = before ++ .stranded :: rest → .stranded ∉ before →
      Vacated before := by
  intro r ledger
  have acc : Accounted r.task.stage.owes r.task.stage.lost ledger r.task.holdings :=
    Run.accounted impulses
  refine ⟨?_, ?_, ?_⟩
  · intro life hl o after hs
    constructor
    · rintro ⟨c, path⟩
      exact Custody.not_stranded path
    · intro hn
      rcases List.mem_append.1 hl with hl | hl
      · obtain ⟨h, kept | kept⟩ := acc.live.kept hl
        · exact kept.path (fun _ => Stage.stranded_of_lost) hs hn
        · exact kept.path (fun _ => Life.Relapsed.stranded) hs hn
      · rcases acc.ended life hl o after hs with relapsed | ⟨o', path⟩
        · exact absurd relapsed.stranded hn
        · exact ⟨.handed o', path⟩
  · intro life hl o after hs
    rcases acc.ended life hl o after hs with relapsed | ⟨o', path⟩
    · exact ⟨fun hn => absurd relapsed.stranded hn, fun _ => relapsed.resumed⟩
    · exact ⟨fun _ => ⟨o', path⟩, fun hm => absurd hm (Custody.not_stranded path)⟩
  · intro before rest history first
    exact vacated_before_stranded impulses history first

/-- A frame whose only deferred operation replaces itself by one that leaves no frame, and succeeds:
the frame is resumed once more, and its outcome is lost. -/
theorem stranded_loses_outcome :
    let main : Stub := ⟨"main"⟩
    let deferred : Stub := ⟨"deferred"⟩
    let impulses : List (Impulse Stub Unit) :=
      .replicate 4 .move ++ .resumed (.yielded (.operation (.defer (.call () [])))) main ::
      .replicate 4 .move ++ .resumed (.complete (.ok (.bool true))) main ::
      .replicate 3 .move ++ .invoked (.ok deferred) ::
      .replicate 2 .move ++ .resumed (.yielded (.operation (.terminal .recover))) deferred ::
      .replicate 3 .move ++ .resumed (.complete (.ok .null)) deferred ::
      .replicate 4 .move ++ .resumed (.complete (.ok .null)) main :: .replicate 2 .move
    let r : Run Stub Unit Unit := (start default (.generator main)).after default impulses
    let after : Life Stub Unit := [.undertaken (.call () []), .stranded,
      .resumed (.next (.bool true)), .completed (.ok .null), .popped (.ok .null)]
    let life : Life Stub Unit := [.pushed false, .resumed (.next .null),
      .registered (.call () []), .resumed (.next .null), .completed (.ok (.bool true))] ++ after
    r.task.stage = .settled (.ok .null) ∧ life ∈ (Ledger.replay r.history).ended ∧
    life.sinceCompletion = some (.ok (.bool true), after) ∧
    ¬ ∃ c, Path Custody.Step (.held (.ok (.bool true))) after c :=
  ⟨rfl, .head _, rfl, fun ⟨_, path⟩ => Custody.not_stranded path (.tail _ (.head _))⟩

end Run

end EffectEngine
