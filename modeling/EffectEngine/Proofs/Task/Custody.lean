import EffectEngine.Proofs.Task.Lives

/-!
# The outcome of a completed frame

A completed frame holds its outcome until it is popped. `Custody.Step` is what its deferred
operations may do to that outcome, and `Kept` says, of a frame in whatever place of the stack, that
nothing else was done to it since the frame completed, unless the frame was stranded: made the
current one again although it has completed.
-/

namespace EffectEngine

/-- What a completed frame does with its outcome. -/
inductive Custody where
  /-- None of its deferred operations is under way. -/
  | held (outcome : Outcome)
  /-- One of its deferred operations is under way. -/
  | serving (outcome : Outcome)
  | handed (outcome : Outcome)

namespace Custody

/-- What can happen to a completed frame that is left alone except by its deferred operations. -/
inductive Step {G F : Type} : Custody → StackEvent G F → Custody → Prop
  | undertake (h : Outcome) (op : Operation G F) : Step (held h) (.undertaken op) (serving h)
  | register (h : Outcome) (op : Operation G F) : Step (serving h) (.registered op) (serving h)
  | recover (e : Error) : Step (serving (.error e)) .recovered (serving (.ok .null))
  | succeed (h : Outcome) : Step (serving h) (.discharged (.ok ())) (held h)
  | fail (h : Outcome) (e : Error) :
      Step (serving h) (.discharged (.error e)) (held (.error (e.overriding h)))
  | pop (h : Outcome) : Step (held h) (.popped h) (handed h)

theorem Step.discharge {G F : Type} (h : Outcome) (result : Except Error Unit) :
    Step (serving h) (.discharged result : StackEvent G F) (held (Frame.afterDefer h result)) := by
  cases result with
  | ok => exact .succeed h
  | error e => exact .fail h e

theorem not_stranded {G F : Type} {c c' : Custody} {es : Life G F} (path : Path Step c es c') :
    .stranded ∉ es := by
  induction path with
  | nil => exact List.not_mem_nil
  | snoc _ last ih =>
    rw [List.mem_append, not_or, List.mem_singleton]
    exact ⟨ih, fun h => by subst h; cases last⟩

end Custody

namespace Life

variable {G F : Type} {life after : Life G F} {r : Outcome} {e : StackEvent G F}

/-- The outcome with which a frame first completed, and what happened to it since. -/
def sinceCompletion : Life G F → Option (Outcome × Life G F)
  | [] => none
  | .completed outcome :: es => some (outcome, es)
  | _ :: es => sinceCompletion es

theorem mem_of_sinceCompletion (h : life.sinceCompletion = some (r, after)) (he : e ∈ after) :
    e ∈ life := by
  induction life with
  | nil => cases h
  | cons e' life ih =>
    cases e' with
    | completed =>
      obtain ⟨rfl, rfl⟩ : _ = r ∧ _ = after := by simpa [sinceCompletion] using h
      exact List.mem_cons_of_mem _ he
    | _ => exact List.mem_cons_of_mem _ (ih h)

theorem sinceCompletion_snoc (h : life.sinceCompletion = some (r, after)) :
    sinceCompletion (life ++ [e]) = some (r, after ++ [e]) := by
  induction life with
  | nil => cases h
  | cons e' life ih =>
    cases e' with
    | completed =>
      obtain ⟨rfl, rfl⟩ : _ = r ∧ _ = after := by simpa [sinceCompletion] using h
      rfl
    | _ => exact ih h

theorem sinceCompletion_completed (h : life.sinceCompletion = none) (outcome : Outcome) :
    sinceCompletion (life ++ [.completed outcome]) = some (outcome, []) := by
  induction life with
  | nil => rfl
  | cons e' life ih =>
    cases e' with
    | completed => cases h
    | _ => exact ih h

theorem sinceCompletion_eq_none (h : life.sinceCompletion = none)
    (he : ∀ outcome, e ≠ .completed outcome) : sinceCompletion (life ++ [e]) = none := by
  induction life with
  | nil => cases e <;> first | rfl | exact absurd rfl (he _)
  | cons e' life ih =>
    cases e' with
    | completed => cases h
    | _ => exact ih h

/-- Since a frame completed, it was stranded and then resumed. -/
def Relapsed (after : Life G F) : Prop :=
  ∃ before rest input, after = before ++ .stranded :: rest ∧ .resumed input ∈ rest

theorem Relapsed.stranded (h : Relapsed after) : .stranded ∈ after := by
  obtain ⟨before, rest, input, rfl, hi⟩ := h
  simp

theorem Relapsed.resumed (h : Relapsed after) : ∃ input, .resumed input ∈ after := by
  obtain ⟨before, rest, input, rfl, hi⟩ := h
  exact ⟨input, by simp [hi]⟩

theorem Relapsed.snoc (h : Relapsed after) : Relapsed (after ++ [e]) := by
  obtain ⟨before, rest, input, rfl, hi⟩ := h
  exact ⟨before, rest ++ [e], input, by simp, List.mem_append_left _ hi⟩

end Life

structure Holding where
  completed : Bool
  outcome : Outcome

/-- A live frame has not completed yet, or it was left alone since it completed and `owes` says what
it does with its outcome, or it was stranded and `lost` says how far that has come. -/
def Kept {G F : Type} (owes : Outcome → Custody → Prop) (lost : Life G F → Prop) (life : Life G F)
    (h : Holding) : Prop :=
  if h.completed then ∃ r after, life.sinceCompletion = some (r, after) ∧
    (lost after ∨ ∃ c, owes h.outcome c ∧ Path Custody.Step (.held r) after c)
  else life.sinceCompletion = none

/-- A frame that has left the stack without completing was replaced. Otherwise it was stranded and
resumed, or left alone until it handed its outcome down. -/
def Closed {G F : Type} (life : Life G F) : Prop :=
  ∀ r after, life.sinceCompletion = some (r, after) →
    after.Relapsed ∨ ∃ o, Path Custody.Step (.held r) after (.handed o)

namespace Kept

variable {G F : Type} {owes owes' : Outcome → Custody → Prop} {lost lost' : Life G F → Prop}
  {life : Life G F} {h h' : Holding} {e : StackEvent G F}

theorem mono (kept : Kept owes lost life h) (hc : h'.completed = h.completed)
    (ho : ∀ c, owes h.outcome c → owes' h'.outcome c) (hl : ∀ after, lost after → lost' after) :
    Kept owes' lost' life h' := by
  unfold Kept at kept ⊢
  rw [hc]
  split
  · rw [if_pos ‹_›] at kept
    obtain ⟨r, after, hs, hk⟩ := kept
    exact ⟨r, after, hs, hk.imp (hl after) fun ⟨c, hco, path⟩ => ⟨c, ho c hco, path⟩⟩
  · rwa [if_neg ‹_›] at kept

theorem snoc (kept : Kept owes lost life h) (hc : h'.completed = h.completed)
    (he : ∀ outcome, e ≠ .completed outcome) (hl : ∀ after, lost after → lost' (after ++ [e]))
    (ho : ∀ c, owes h.outcome c → ∃ c', owes' h'.outcome c' ∧ Custody.Step c e c') :
    Kept owes' lost' (life ++ [e]) h' := by
  unfold Kept at kept ⊢
  rw [hc]
  split
  · rw [if_pos ‹_›] at kept
    obtain ⟨r, after, hs, hk⟩ := kept
    refine ⟨r, after ++ [e], Life.sinceCompletion_snoc hs, hk.imp (hl after) ?_⟩
    rintro ⟨c, hco, path⟩
    obtain ⟨c', hco', step⟩ := ho c hco
    exact ⟨c', hco', path.snoc step⟩
  · rw [if_neg ‹_›] at kept
    exact Life.sinceCompletion_eq_none kept he

theorem of_running (kept : Kept owes lost life h) (hc : h.completed = false)
    (hc' : h'.completed = false) : Kept owes' lost' life h' := by
  simpa [Kept, hc, hc'] using kept

theorem completed (kept : Kept owes lost life h) (ho : ∀ c, ¬ owes h.outcome c)
    (hl : ∀ after, lost after → after.Relapsed) {outcome : Outcome}
    (hl' : ∀ after, after.Relapsed → lost' after)
    (ho' : owes' outcome (.held outcome)) :
    Kept owes' lost' (life ++ [.completed outcome]) ⟨true, outcome⟩ := by
  unfold Kept at kept ⊢
  rw [if_pos rfl]
  split at kept
  · obtain ⟨r, after, hs, hk⟩ := kept
    refine ⟨r, _, Life.sinceCompletion_snoc hs, .inl (hl' _ ?_)⟩
    exact (hl _ (hk.resolve_right fun ⟨c, hc, _⟩ => ho c hc)).snoc
  · exact ⟨outcome, [], Life.sinceCompletion_completed kept outcome, .inr ⟨_, ho', .nil⟩⟩

theorem lose (kept : Kept owes lost life h) (hc : h.completed = true) (hc' : h'.completed = true)
    (hl : ∀ after, lost' (after ++ [e])) : Kept owes' lost' (life ++ [e]) h' := by
  simp only [Kept, hc, hc', if_true] at kept ⊢
  obtain ⟨r, after, hs, -⟩ := kept
  exact ⟨r, after ++ [e], Life.sinceCompletion_snoc hs, .inl (hl after)⟩

theorem stranded_mem (kept : Kept owes lost life h) (hc : h.completed = true)
    (ho : ∀ c, ¬ owes h.outcome c) (hl : ∀ after, lost after → .stranded ∈ after) :
    .stranded ∈ life := by
  simp only [Kept, hc, if_true] at kept
  obtain ⟨r, after, hs, hk⟩ := kept
  have lost : lost after := hk.resolve_right fun ⟨c, hco, _⟩ => ho c hco
  exact Life.mem_of_sinceCompletion hs (hl after lost)

theorem path (kept : Kept owes lost life h) (hl : ∀ after, lost after → .stranded ∈ after)
    {r : Outcome} {after : Life G F} (hs : life.sinceCompletion = some (r, after))
    (hn : .stranded ∉ after) : ∃ c, Path Custody.Step (.held r) after c := by
  unfold Kept at kept
  split at kept
  · obtain ⟨r', after', hs', hk⟩ := kept
    obtain ⟨rfl, rfl⟩ : r' = r ∧ after' = after := by simpa using hs'.symm.trans hs
    obtain ⟨c, -, path⟩ := hk.resolve_left fun h => hn (hl _ h)
    exact ⟨c, path⟩
  · rw [kept] at hs; cases hs

theorem closed_of_running (kept : Kept owes lost life h) (hc : h.completed = false)
    (he : ∀ outcome, e ≠ .completed outcome) : Closed (life ++ [e]) := by
  intro r after hs
  simp only [Kept, hc] at kept
  rw [Life.sinceCompletion_eq_none kept he] at hs
  cases hs

theorem closed (kept : Kept owes lost life h) (hc : h.completed = true)
    (hl : ∀ after, lost after → after.Relapsed)
    (ho : ∀ c, owes h.outcome c → ∃ o, Custody.Step c e (.handed o)) : Closed (life ++ [e]) := by
  intro r after hs
  simp only [Kept, hc, if_true] at kept
  obtain ⟨r', after', hs', hk⟩ := kept
  obtain ⟨rfl, rfl⟩ : r' = r ∧ after' ++ [e] = after := by
    simpa using (Life.sinceCompletion_snoc hs').symm.trans hs
  refine hk.imp (fun h => (hl _ h).snoc) ?_
  rintro ⟨c, hco, path⟩
  obtain ⟨o, step⟩ := ho c hco
  exact ⟨o, path.snoc step⟩

end Kept

/-- How a frame below the top one that has completed keeps its outcome. -/
def Entrusts (outcome : Outcome) (c : Custody) : Prop := c = .serving outcome

namespace Stage

variable {G F M : Type} {s : Stage G F M} {p : Purpose} {o : Outcome} {c : Custody}
  {after : Life G F}

/-- How the top frame keeps its outcome if it has completed. At the end of a dispatch for a frame
that was replaced, the outcome may be overwritten already. -/
def owes (s : Stage G F M) (outcome : Outcome) (c : Custody) : Prop :=
  match s with
  | unwinding => c = .held outcome
  | dispatched _ .yielded => ∃ h, c = .serving h
  | s => s.purpose? ≠ none ∧ c = .serving outcome

/-- How far it has come with a top frame that was stranded. -/
def lost (s : Stage G F M) (after : Life G F) : Prop :=
  after.Relapsed ∨ s = ready ∧ ∃ before, after = before ++ [.stranded]

theorem entrusts_of_underway (h : s.underway? = some p) (ho : s.owes o c) : Entrusts o c := by
  cases s <;> first | exact ho.2 | cases h

theorem owes_of_purpose (h : s.purpose? = some p) (ho : Entrusts o c) : s.owes o c := by
  cases s with
  | dispatched result q =>
    cases q with
    | yielded => exact ⟨o, ho⟩
    | deferred => exact ⟨nofun, ho⟩
  | fresh | ready | resuming | unwinding | settled => cases h
  | _ => exact ⟨nofun, ho⟩

theorem relapsed_of_lost (h : s ≠ ready) (hl : s.lost after) : after.Relapsed :=
  hl.resolve_right fun hr => h hr.1

theorem stranded_of_lost (h : s.lost after) : .stranded ∈ after := by
  rcases h with h | ⟨-, before, rfl⟩
  · exact h.stranded
  · simp

end Stage

/-! ### What the frames of a task hold -/

def Frame.holding {G F M : Type} (f : Frame G F M) : Holding := ⟨f.completed, f.result⟩

namespace Purpose

variable {G F M : Type} {p : Purpose} {f new : Frame G F M} {frames rest : List (Frame G F M)}

def kept : Purpose → Outcome → Outcome
  | yielded, outcome => outcome
  | deferred _ prior, _ => prior

/-- Puts the outcome back that is kept aside for the time of a dispatch. -/
def restore (p : Purpose) (hs : List Holding) : List Holding :=
  match p with
  | yielded => hs
  | deferred level prior => atLevel level (fun h => { h with outcome := prior }) hs

theorem Fits.restore_top (h : p.Fits (f :: rest)) : p.restore ((f :: rest).map (·.holding)) =
    ⟨f.completed, p.kept f.result⟩ :: rest.map (·.holding) := by
  cases p with
  | yielded => rfl
  | deferred level prior =>
    obtain ⟨g, tail, hg, hd, rfl⟩ := h
    obtain ⟨rfl, rfl⟩ := List.cons.inj hg
    simp [restore, atLevel, kept, Frame.holding]

theorem Fits.restore_push (h : p.Fits frames) : p.restore ((new :: frames).map (·.holding)) =
    new.holding :: p.restore (frames.map (·.holding)) := by
  cases p with
  | yielded => rfl
  | deferred level prior =>
    obtain ⟨g, tail, rfl, hd, rfl⟩ := h
    simp [restore, atLevel]

end Purpose

/-- At the end of a dispatch the top frame keeps its outcome, whatever was written to it. -/
theorem Kept.dispatched {G F M : Type} {life : Life G F} {done : Bool} {p : Purpose} {o : Outcome}
    (kept : Kept Entrusts Life.Relapsed life ⟨done, p.kept o⟩) (result : Except Error Unit)
    (o' : Outcome) : Kept (Stage.dispatched result p : Stage G F M).owes
      (Stage.dispatched result p : Stage G F M).lost life ⟨done, p.kept o'⟩ := by
  refine kept.mono rfl (fun c hc => ?_) fun _ => .inl
  cases p with
  | yielded => exact ⟨o, hc⟩
  | deferred level prior => exact ⟨nofun, hc⟩

namespace Task

variable {G F M : Type} {t t' : Task G F M} {es : List (StackEvent G F)}

def holdings (t : Task G F M) : List Holding :=
  match t.stage.purpose? with
  | some p => p.restore (t.frames.map (·.holding))
  | none => t.frames.map (·.holding)

theorem holdings_of_purpose {p : Purpose} (h : t.stage.purpose? = some p) :
    t.holdings = p.restore (t.frames.map (·.holding)) := by simp only [holdings, h]

theorem holdings_of_none (h : t.stage.purpose? = none) :
    t.holdings = t.frames.map (·.holding) := by simp only [holdings, h]

end Task

/-- The live frames are kept: the top one as `owes` and `lost` say, those below with a deferred
operation under way. -/
inductive Attended {G F : Type} (owes : Outcome → Custody → Prop) (lost : Life G F → Prop) :
    List (Life G F) → List Holding → Prop
  | nil : Attended owes lost [] []
  | cons {life : Life G F} {lives : List (Life G F)} {h : Holding} {hs : List Holding}
      (top : Kept owes lost life h) (below : List.Forall₂ (Kept Entrusts Life.Relapsed) lives hs) :
      Attended owes lost (life :: lives) (h :: hs)

theorem Attended.kept {G F : Type} {owes : Outcome → Custody → Prop} {lost : Life G F → Prop}
    {lives : List (Life G F)} {hs : List Holding} (h : Attended owes lost lives hs)
    {life : Life G F} (hl : life ∈ lives) :
    ∃ h, Kept owes lost life h ∨ Kept Entrusts Life.Relapsed life h := by
  cases h with
  | nil => cases hl
  | @cons life' lives h hs top below =>
    rcases List.mem_cons.1 hl with rfl | hl
    · exact ⟨h, .inl top⟩
    · obtain ⟨i, hi, rfl⟩ := List.getElem_of_mem hl
      exact ⟨_, .inr (below.get hi (below.length_eq ▸ hi))⟩

structure Accounted {G F : Type} (owes : Outcome → Custody → Prop) (lost : Life G F → Prop)
    (l : Ledger G F) (hs : List Holding) : Prop where
  live : Attended owes lost l.live hs
  ended : ∀ life ∈ l.ended, Closed life

namespace Accounted

variable {G F : Type} {owes owes' : Outcome → Custody → Prop} {lost lost' : Life G F → Prop}
  {l : Ledger G F} {h h' : Holding} {hs : List Holding} {e : StackEvent G F}

theorem of_nil (acc : Accounted owes lost l []) : Accounted owes' lost' l [] := by
  obtain ⟨live, ended⟩ := l
  obtain ⟨hlive, hended⟩ := acc
  cases hlive
  exact ⟨.nil, hended⟩

theorem mono (acc : Accounted owes lost l hs) (ho : ∀ o c, owes o c → owes' o c)
    (hl : ∀ after, lost after → lost' after) : Accounted owes' lost' l hs := by
  obtain ⟨live, ended⟩ := l
  obtain ⟨hlive, hended⟩ := acc
  cases hlive with
  | nil => exact ⟨.nil, hended⟩
  | cons top below => exact ⟨.cons (top.mono rfl (ho _) hl) below, hended⟩

theorem stay (acc : Accounted owes lost l (h :: hs))
    (kept : ∀ life, Kept owes lost life h → Kept owes' lost' life h') :
    Accounted owes' lost' l (h' :: hs) := by
  obtain ⟨live, ended⟩ := l
  obtain ⟨hlive, hended⟩ := acc
  cases hlive with
  | cons top below => exact ⟨.cons (kept _ top) below, hended⟩

theorem top (acc : Accounted owes lost l (h :: hs))
    (he : ∀ life lives, (⟨life :: lives, l.ended⟩ : Ledger G F).note e =
      ⟨(life ++ [e]) :: lives, l.ended⟩)
    (kept : ∀ life, Kept owes lost life h → Kept owes' lost' (life ++ [e]) h') :
    Accounted owes' lost' (l.note e) (h' :: hs) := by
  obtain ⟨live, ended⟩ := l
  obtain ⟨hlive, hended⟩ := acc
  cases hlive with
  | cons top below => rw [he]; exact ⟨.cons (kept _ top) below, hended⟩

theorem pushed (acc : Accounted Entrusts Life.Relapsed l hs) (isShielded : Bool)
    (hc : h.completed = false) : Accounted owes lost (l.note (.pushed isShielded)) (h :: hs) := by
  obtain ⟨live, ended⟩ := l
  obtain ⟨hlive, hended⟩ := acc
  have top : Kept owes lost [.pushed isShielded] h := by simp [Kept, hc, Life.sinceCompletion]
  cases hlive with
  | nil => exact ⟨.cons top .nil, hended⟩
  | cons old below => exact ⟨.cons top (.cons old below), hended⟩

theorem left (acc : Accounted owes lost l (h :: hs))
    (he : ∀ life lives, (⟨life :: lives, l.ended⟩ : Ledger G F).note e =
      ⟨lives, (life ++ [e]) :: l.ended⟩)
    (closed : ∀ life, Kept owes lost life h → Closed (life ++ [e])) :
    Accounted Entrusts Life.Relapsed (l.note e) hs := by
  obtain ⟨live, ended⟩ := l
  obtain ⟨hlive, hended⟩ := acc
  cases hlive with
  | cons top below =>
    rw [he]
    refine ⟨?_, List.forall_mem_cons.2 ⟨closed _ top, hended⟩⟩
    cases below with
    | nil => exact .nil
    | cons top below => exact .cons top below

theorem recovered {error : Error} {top : Holding}
    (acc : Accounted owes lost l (h :: ⟨true, .error error⟩ :: hs))
    (kept : ∀ life, Kept owes lost life h → Kept owes' lost' life top) :
    Accounted owes' lost' (l.note .recovered) (top :: ⟨true, .ok .null⟩ :: hs) := by
  obtain ⟨live, ended⟩ := l
  obtain ⟨hlive, hended⟩ := acc
  cases hlive with
  | cons old below =>
    cases below with
    | cons second below =>
      refine ⟨.cons (kept _ old) (.cons ?_ below), hended⟩
      exact second.snoc rfl nofun (fun _ => .snoc) fun c hc => ⟨_, rfl, hc ▸ .recover error⟩

end Accounted

namespace Task

variable {G F M : Type} {t t' : Task G F M} {es : List (StackEvent G F)} {l : Ledger G F}
  {p : Purpose} {f : Frame G F M} {rest : List (Frame G F M)}

theorem accounted_of_underway (acc : Accounted t.stage.owes t.stage.lost l t.holdings)
    (underway : t.stage.underway? = some p) :
    Accounted Entrusts Life.Relapsed l (p.restore (t.frames.map (·.holding))) := by
  rw [holdings_of_purpose (Stage.purpose?_of_underway? underway)] at acc
  refine acc.mono (fun _ _ => Stage.entrusts_of_underway underway) fun _ => ?_
  exact Stage.relapsed_of_lost fun h => by rw [h] at underway; cases underway

/-- While an operation is dispatched, the top frame counts with the outcome that is kept aside. -/
theorem accounted_of_fits (acc : Accounted t.stage.owes t.stage.lost l t.holdings)
    (underway : t.stage.underway? = some p) (fits : p.Fits t.frames)
    (frames : t.frames = f :: rest) :
    Accounted Entrusts Life.Relapsed l
      (⟨f.completed, p.kept f.result⟩ :: rest.map (·.holding)) := by
  have acc := accounted_of_underway acc underway
  rw [frames] at fits acc
  rwa [fits.restore_top] at acc

/-- While nothing is dispatched, every frame counts with what it holds. -/
theorem accounted_of_stage (acc : Accounted t.stage.owes t.stage.lost l t.holdings)
    {s : Stage G F M} (stage : t.stage = s) (quiet : s.purpose? = none)
    (frames : t.frames = f :: rest) :
    Accounted s.owes s.lost l (f.holding :: rest.map (·.holding)) := by
  subst stage
  rwa [holdings_of_none quiet, frames] at acc

theorem accounted_of_purpose
    (acc : Accounted Entrusts Life.Relapsed l (p.restore (t.frames.map (·.holding))))
    (purpose : t.stage.purpose? = some p) :
    Accounted t.stage.owes t.stage.lost l t.holdings := by
  rw [holdings_of_purpose purpose]
  exact acc.mono (fun _ _ => Stage.owes_of_purpose purpose) fun _ => .inl

theorem accounted_of_top (fits : p.Fits (f :: rest)) (frames : t.frames = f :: rest)
    (purpose : t.stage.purpose? = some p)
    (acc : Accounted t.stage.owes t.stage.lost l
      (⟨f.completed, p.kept f.result⟩ :: rest.map (·.holding))) :
    Accounted t.stage.owes t.stage.lost l t.holdings := by
  rw [holdings_of_purpose purpose, frames, fits.restore_top]
  exact acc

theorem holdings_of_nil (h : t.frames = []) : t.holdings = [] := by
  unfold holdings
  rw [h]
  split
  · rename_i p _
    cases p with
    | yielded => rfl
    | deferred => simp [Purpose.restore, atLevel]
  · rfl

theorem accounted_of_nil {owes : Outcome → Custody → Prop} {lost : Life G F → Prop}
    (h : t.frames = []) (acc : Accounted owes lost l []) :
    Accounted t.stage.owes t.stage.lost l t.holdings := by
  rw [holdings_of_nil h]
  exact acc.of_nil

/-- What a popped frame hands down ends the deferred operation of a completed frame below, and does
not concern a running one. -/
theorem accounted_handDown (acc : Accounted Entrusts Life.Relapsed l (rest.map (·.holding)))
    (outcome : Outcome) :
    let discharge : List (StackEvent G F) :=
      if rest.head?.any (·.completed) then [.discharged (verdict outcome)] else []
    Accounted (t.handDown outcome rest).stage.owes (t.handDown outcome rest).stage.lost
      (discharge.foldl Ledger.note l) (t.handDown outcome rest).holdings := by
  intro discharge
  rcases rest with _ | ⟨below, rest⟩
  · exact accounted_of_nil (t := t.handDown outcome []) rfl acc
  · by_cases hd : below.completed = true
    · have ends : discharge = [.discharged (verdict outcome)] := if_pos hd
      rw [ends, handDown_completed hd, holdings_of_none rfl]
      refine acc.top (fun _ _ => rfl) fun life kept => ?_
      refine kept.snoc rfl nofun (fun _ hl => .inl hl.snoc) fun c hc => ?_
      rw [hc]
      exact ⟨_, rfl, .discharge _ _⟩
    · have ends : discharge = [] := if_neg hd
      have running : below.completed = false := by simpa using hd
      rw [ends, handDown_running running, holdings_of_none rfl]
      exact acc.stay fun life kept => kept.of_running running running

/-- A frame that is pushed has its life before it, and the frames below are as they were. -/
theorem accounted_push
    (acc : Accounted Entrusts Life.Relapsed l (p.restore (t.frames.map (·.holding))))
    (fits : p.Fits t.frames) (g : G) (name : String) (slot : Option (HandlerSlot M)) :
    Accounted (t.push g name slot p).stage.owes (t.push g name slot p).stage.lost
      (l.note (.pushed p.shields)) (t.push g name slot p).holdings := by
  refine accounted_of_purpose ?_ rfl
  rw [push, fits.restore_push]
  exact acc.pushed _ rfl

/-- Every turn keeps all frames accounted for. -/
theorem accounted_turn (acc : Accounted t.stage.owes t.stage.lost l t.holdings)
    (turn : Turn t es t') :
    Accounted t'.stage.owes t'.stage.lost (es.foldl Ledger.note l) t'.holdings := by
  cases turn with
  | idle => exact acc
  | quiet s frames coherent =>
    rw [holdings_of_nil frames] at acc
    exact accounted_of_nil (t := t.become s) frames acc
  | onwards s p underway purpose fits =>
    have acc := accounted_of_underway acc underway
    exact accounted_of_purpose (t := t.become s) acc purpose
  | pushed g name slot p underway fits =>
    exact accounted_push (accounted_of_underway acc underway) fits g name slot
  | resumed f rest stage frames =>
    have acc := accounted_of_stage acc stage rfl frames
    refine acc.top (fun _ _ => rfl) fun life kept => ?_
    refine kept.snoc rfl nofun (fun after hl => .inl ?_) fun c hc => absurd rfl hc.1
    -- A frame that has completed is only resumed after it was stranded.
    rcases hl with hl | ⟨-, before, rfl⟩
    · exact hl.snoc
    · exact ⟨before, [.resumed f.input], f.input, by simp, by simp⟩
  | suspended f rest g y stage frames =>
    have acc := accounted_of_stage acc stage rfl frames
    split
    · rw [holdings_of_none rfl]
      exact acc.mono (fun _ _ hc => absurd rfl hc.1) fun _ hl =>
        .inl (Stage.relapsed_of_lost (s := .resuming) nofun hl)
    · refine accounted_of_purpose (p := .yielded) ?_ rfl
      exact acc.mono (fun _ _ hc => absurd rfl hc.1) fun _ => Stage.relapsed_of_lost nofun
  | completed f rest g outcome stage frames =>
    have acc := accounted_of_stage acc stage rfl frames
    rw [holdings_of_none rfl]
    refine acc.top (fun _ _ => rfl) fun life kept => ?_
    exact kept.completed (fun _ hc => absurd rfl hc.1) (fun _ => Stage.relapsed_of_lost nofun)
      (fun _ => .inl) rfl
  | registered f rest op p underway fits frames =>
    have acc := accounted_of_fits acc underway fits frames
    rw [frames] at fits
    refine accounted_of_top (f := { f with defers := op :: f.defers })
      (fits.congr rfl rfl) rfl rfl ?_
    refine acc.top (fun _ _ => rfl) fun life kept => ?_
    have kept : Kept Entrusts Life.Relapsed (life ++ [.registered op])
        ⟨f.completed, p.kept f.result⟩ :=
      kept.snoc rfl nofun (fun _ => .snoc) fun c hc => ⟨c, hc, hc ▸ .register _ _⟩
    exact kept.dispatched (.ok ()) f.result
  | recovered top below rest e p underway fits frames done holds =>
    have acc := accounted_of_fits acc underway fits frames
    rw [List.map_cons, Frame.holding, done, holds] at acc
    rw [frames] at fits
    have fits : p.Fits ({ top with result := .ok (.error e) } ::
        { below with result := .ok .null } :: rest) := fits.congr rfl rfl
    refine accounted_of_top fits rfl rfl ?_
    simp only [List.map_cons, Frame.holding, done]
    exact acc.recovered fun life kept => kept.dispatched (.ok ()) _
  | replaced f rest inner origin underway frames running =>
    have acc := accounted_of_underway acc underway
    rw [frames] at acc
    refine accounted_of_purpose (p := .yielded) ?_ rfl
    exact acc.left (fun _ _ => rfl) fun life kept => kept.closed_of_running running nofun
  | forked outcome p stage fits =>
    rcases hf : t.frames with _ | ⟨f, rest⟩
    · rw [holdings_of_nil hf] at acc
      rw [setCurrent_nil hf]
      exact accounted_of_nil hf acc
    · have acc := accounted_of_fits acc (by rw [stage]; rfl) fits hf
      rw [hf] at fits
      rw [setCurrent_cons hf]
      refine accounted_of_top (f := { f with result := outcome }) (fits.congr rfl rfl) rfl rfl ?_
      exact acc.stay fun life kept => kept.dispatched (.ok ()) outcome
  | returned result stage running =>
    rw [holdings_of_purpose (p := .yielded) (by rw [stage]; rfl)] at acc
    rcases hf : t.frames with _ | ⟨f, rest⟩ <;> rw [hf] at acc
    · obtain ⟨root, hc⟩ := conclude_nil hf result
      rw [hc]
      exact accounted_of_nil hf acc
    · obtain ⟨outcome, hc⟩ := conclude_cons hf result
      have running : f.completed = false := running f (by rw [hf]; rfl)
      rw [hc, holdings_of_none rfl]
      exact acc.stay fun life kept => kept.of_running running running
  | stranded f rest result stage frames done =>
    rw [holdings_of_purpose (p := .yielded) (by rw [stage]; rfl), frames] at acc
    obtain ⟨outcome, hc⟩ := conclude_cons frames result
    rw [hc, holdings_of_none rfl]
    refine acc.top (fun _ _ => rfl) fun life kept => ?_
    exact kept.lose done done fun after => .inr ⟨rfl, after, rfl⟩
  | discharged f rest result prior stage frames done =>
    have fits : (Purpose.deferred (rest.length + 1) prior).Fits (f :: rest) :=
      Purpose.fits_deferred done prior
    rw [holdings_of_purpose (p := .deferred (rest.length + 1) prior) (by rw [stage]; rfl), frames,
      fits.restore_top, stage] at acc
    rw [holdings_of_none rfl]
    refine acc.top (fun _ _ => rfl) fun life kept => ?_
    refine kept.snoc rfl nofun (fun _ hl => .inl ?_) fun c hc => ?_
    · exact (Stage.relapsed_of_lost (s := .dispatched ..) nofun hl).snoc
    · rw [hc.2]
      exact ⟨_, rfl, .discharge prior result⟩
  | entrusted new f rest prior stage frames running done =>
    have fits : (Purpose.deferred (rest.length + 1) prior).Fits (f :: rest) :=
      Purpose.fits_deferred done prior
    rw [holdings_of_purpose (p := .deferred (rest.length + 1) prior) (by rw [stage]; rfl), frames,
      fits.restore_push, fits.restore_top] at acc
    rw [holdings_of_none rfl]
    exact acc.stay fun life kept => kept.of_running running running
  | undertaken f rest op ops stage frames done defers =>
    have acc := accounted_of_stage acc stage rfl frames
    have fits : (Purpose.deferred (rest.length + 1) f.result).Fits (f :: rest) :=
      Purpose.fits_deferred done f.result
    refine accounted_of_top (f := { f with defers := ops, result := .ok .null })
      (fits.congr rfl rfl) rfl rfl ?_
    refine acc.top (fun _ _ => rfl) fun life kept => ?_
    refine kept.snoc rfl nofun (fun _ hl => .inl ?_) fun c hc => ?_
    · exact (Stage.relapsed_of_lost (s := .unwinding) nofun hl).snoc
    · rw [hc]
      exact ⟨_, ⟨nofun, rfl⟩, .undertake _ op⟩
  | popped f rest stage frames done defers =>
    have acc := accounted_of_stage acc stage rfl frames
    have acc : Accounted Entrusts Life.Relapsed (l.note (.popped f.result))
        (rest.map (·.holding)) := by
      refine acc.left (fun _ _ => rfl) fun life kept => ?_
      refine kept.closed done (fun _ => Stage.relapsed_of_lost nofun) fun c hc => ?_
      rw [hc]
      exact ⟨f.result, .pop _⟩
    exact accounted_handDown acc f.result
  | cancelled =>
    simpa [Ledger.note, holdings, Frame.holding, Function.comp_def] using acc

end Task

namespace Run

variable {G F M : Type} [Named G] {registry : Registry M} {id : TaskId} {root : Yielded G F}

theorem accounted (impulses : List (Impulse G F)) :
    let r : Run G F M := (start id root).after registry impulses
    Accounted r.task.stage.owes r.task.stage.lost (Ledger.replay r.history) r.task.holdings := by
  refine turn_induction
    (P := fun r =>
      Accounted r.task.stage.owes r.task.stage.lost (Ledger.replay r.history) r.task.holdings)
    ⟨.nil, nofun⟩ ?_ impulses
  intro t h es t' _ turn ih
  rw [Ledger.replay, List.foldl_append]
  exact Task.accounted_turn ih turn

end Run

end EffectEngine
