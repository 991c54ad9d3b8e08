import EffectEngine.Proofs.Task.Marks
import EffectEngine.Proofs.Task.Stranding

/-!
# Which frames are shielded

A frame pushed by the dispatch of a deferred operation is shielded as long as it lives, and so is
every frame on top of it (`Sheltered`): none of them is forced to return, and what they yield is
dispatched. A frame that replaces one directly above a completed frame has lost that shelter, since
it stands on the completed frame and is not pushed by the dispatch of a deferred operation. Such a
push (`Task.Bares`) is the only way in which a frame above a completed one comes to be unshielded
(`Covered`).
-/

namespace EffectEngine

section Sheltered

variable {G F : Type}

/-- Whether a frame was pushed by the dispatch of a deferred operation. -/
def Life.isEntrusted (life : Life G F) : Bool :=
  match life with
  | .pushed isShielded :: _ => isShielded
  | _ => false

/-- A live frame is shielded if it was pushed by the dispatch of a deferred operation or stands on a
shielded one, and only then. The top frame comes first. -/
inductive Sheltered : List (Life G F) → List Mark → Prop
  | nil : Sheltered [] []
  | cons {isShielded : Bool} {es : Life G F} {lives : List (Life G F)} {m : Mark}
      {marks : List Mark}
      (top : m = .shielded ↔ isShielded = true ∨ marks.head? = some .shielded)
      (below : Sheltered lives marks) :
      Sheltered ((.pushed isShielded :: es) :: lives) (m :: marks)

namespace Sheltered

variable {life life' : Life G F} {lives : List (Life G F)} {m m' : Mark} {marks : List Mark}
  {e : StackEvent G F}

theorem pushed (h : Sheltered lives marks) (isShielded isCanceled : Bool) :
    Sheltered ([.pushed isShielded] :: lives)
      (.pushed isShielded isCanceled marks.head? :: marks) := by
  refine .cons ?_ h
  unfold Mark.pushed
  cases isShielded with
  | true => simp
  | false =>
    rcases marks with _ | ⟨m, marks⟩
    · cases isCanceled <;> simp
    · cases m <;> simp

theorem tail (h : Sheltered (life :: lives) (m :: marks)) : Sheltered lives marks := by
  cases h with
  | cons top below => exact below

theorem top (h : Sheltered (life :: lives) (m :: marks)) (hm : m' = .shielded ↔ m = .shielded) :
    Sheltered ((life ++ [e]) :: lives) (m' :: marks) := by
  cases h with
  | cons top below => exact .cons (hm.trans top) below

theorem second (h : Sheltered (life :: life' :: lives) (m :: m' :: marks)) :
    Sheltered (life :: (life' ++ [e]) :: lives) (m :: m' :: marks) := by
  cases h with
  | cons top below => exact .cons top (below.top Iff.rfl)

theorem cancel (h : Sheltered lives marks) : Sheltered lives (marks.map Mark.cancel) := by
  have kept (m : Mark) : m.cancel = .shielded ↔ m = .shielded := by cases m <;> simp [Mark.cancel]
  induction h with
  | nil => exact .nil
  | @cons _ _ _ m marks top below ih =>
    refine .cons ?_ ih
    rw [kept, top]
    cases marks <;> simp [kept]

/-- A frame is shielded exactly if it, or a frame below it, was pushed by the dispatch of a deferred
operation. -/
theorem shielded_iff (h : Sheltered lives marks) {k : Nat} (hk : marks[k]? = some m) :
    m = .shielded ↔ ∃ life ∈ lives.drop k, life.isEntrusted = true := by
  induction h generalizing k m with
  | nil => simp at hk
  | @cons isShielded es lives m' marks top below ih =>
    cases k with
    | succ k => exact ih hk
    | zero =>
      obtain rfl : m' = m := by simpa using hk
      have below : marks.head? = some .shielded ↔ ∃ life ∈ lives, life.isEntrusted = true := by
        rcases marks with _ | ⟨m, marks⟩
        · cases below
          simp
        · have := ih (k := 0) (m := m) rfl
          simpa using this
      rw [top, below]
      simp [Life.isEntrusted]

end Sheltered

end Sheltered

/-- Every frame above a completed one is shielded. The top frame comes first. -/
def Covered : List Footing → Prop
  | [] => True
  | f :: rest => ((∃ g ∈ rest, g.completed = true) → f.mark = .shielded) ∧ Covered rest

namespace Covered

variable {f f' : Footing} {stack rest : List Footing}

theorem iff_forall : Covered stack ↔ ∀ above f below, stack = above ++ f :: below →
    (∃ g ∈ below, g.completed = true) → f.mark = .shielded := by
  induction stack with
  | nil => simp [Covered]
  | cons g rest ih =>
    constructor
    · rintro ⟨top, covered⟩ above f below hs hb
      cases above with
      | nil =>
        obtain ⟨rfl, rfl⟩ := List.cons.inj hs
        exact top hb
      | cons a above => exact ih.1 covered above f below (List.cons.inj hs).2 hb
    · intro h
      refine ⟨h [] g rest rfl, ih.2 fun above f below hs => ?_⟩
      exact h (g :: above) f below (by rw [hs]; rfl)

theorem top (h : Covered (f :: rest)) (hm : f.mark = .shielded → f'.mark = .shielded) :
    Covered (f' :: rest) := ⟨fun hb => hm (h.1 hb), h.2⟩

theorem cancel (h : Covered stack) : Covered (stack.map Footing.cancel) := by
  induction stack with
  | nil => trivial
  | cons f rest ih =>
    refine ⟨?_, ih h.2⟩
    rintro ⟨g, hg, hd⟩
    obtain ⟨g', hg', rfl⟩ := List.mem_map.1 hg
    have shielded := h.1 ⟨g', hg', hd⟩
    simp [Footing.cancel, shielded, Mark.cancel]

/-- A frame pushed on a covered stack is shielded if there is a completed frame, unless the top one
has completed and is not shielded. -/
theorem pushed (h : Covered stack) (isShielded isCanceled : Bool)
    (sheltered : isShielded = false → ∀ f ∈ stack.head?, f.completed = true → f.mark = .shielded) :
    Covered (⟨.pushed isShielded isCanceled (stack.head?.map (·.mark)), false⟩ :: stack) := by
  refine ⟨?_, h⟩
  rintro ⟨g, hg, hd⟩
  cases isShielded with
  | true => rfl
  | false =>
    rcases stack with _ | ⟨f, rest⟩
    · cases hg
    · have shielded : f.mark = .shielded := by
        rcases List.mem_cons.1 hg with rfl | hg
        · exact sheltered rfl g rfl hd
        · exact h.1 ⟨g, hg, hd⟩
      simp [Mark.pushed, shielded]

end Covered

namespace Task

variable {G F M : Type} {t t' : Task G F M} {es : List (StackEvent G F)} {l : Ledger G F}

def marks (t : Task G F M) : List Mark := t.frames.map (·.mark)

theorem marks_setCurrent (outcome : Outcome) : (t.setCurrent outcome).marks = t.marks :=
  map_setCurrent (fun _ _ => rfl) outcome

theorem marks_conclude (result : Except Error Unit) :
    (t.conclude result .yielded).marks = t.marks :=
  map_conclude (fun _ _ => rfl) result

theorem marks_handDown {outcome : Outcome} {rest : List (Frame G F M)} :
    (t.handDown outcome rest).marks = rest.map (·.mark) :=
  map_handDown (fun _ _ => rfl) outcome rest

theorem forced_eq_shielded_iff (m : Mark) :
    (if m == .pending then Mark.forced else m) = .shielded ↔ m = .shielded := by
  cases m <;> decide

theorem sheltered_turn (h : Sheltered l.live t.marks) (turn : Turn t es t') :
    Sheltered (es.foldl Ledger.note l).live t'.marks := by
  obtain ⟨live, ended⟩ := l
  -- What is entered into the life of the top frame, or changes its mark, keeps whether it is
  -- shielded.
  have entered {e : StackEvent G F} {f : Frame G F M} {rest : List (Frame G F M)}
      (hf : t.frames = f :: rest) (m : Mark) (hm : m = .shielded ↔ f.mark = .shielded)
      (he : ∀ life lives, ((⟨life :: lives, ended⟩ : Ledger G F).note e).live =
        (life ++ [e]) :: lives) :
      Sheltered ((⟨live, ended⟩ : Ledger G F).note e).live (m :: rest.map (·.mark)) := by
    rw [marks, hf] at h
    rcases live with _ | ⟨life, lives⟩
    · cases h
    · rw [he]
      exact h.top hm
  cases turn with
  | idle | quiet | onwards => exact h
  | pushed g name slot p =>
    have := h.pushed p.shields t.canceled
    rwa [marks, List.head?_map] at this
  | forked outcome => rw [← marks_setCurrent outcome] at h; exact h
  | returned result => rw [marks_conclude]; exact h
  | suspended f rest g y stage frames | entrusted new f rest prior stage frames =>
    simpa [marks, frames] using h
  | cancelled =>
    have := h.cancel
    simpa [Ledger.note, marks, Function.comp_def] using this
  | resumed f rest stage frames => exact entered frames _ (forced_eq_shielded_iff _) fun _ _ => rfl
  | completed f rest g outcome stage frames => exact entered frames _ Iff.rfl fun _ _ => rfl
  | registered f rest op p purpose fits frames => exact entered frames _ Iff.rfl fun _ _ => rfl
  | undertaken f rest op ops stage frames => exact entered frames _ Iff.rfl fun _ _ => rfl
  | discharged f rest result prior stage frames => exact entered frames _ Iff.rfl fun _ _ => rfl
  | stranded f rest result stage frames =>
    rw [marks_conclude, marks, frames]
    exact entered frames _ Iff.rfl fun _ _ => rfl
  | recovered top below rest e p purpose fits frames =>
    rw [marks, frames] at h
    rcases live with _ | ⟨life, _ | ⟨second, lives⟩⟩
    · cases h
    · cases h.tail
    · exact h.second
  | replaced f rest inner origin purpose frames =>
    rw [marks, frames] at h
    rcases live with _ | ⟨life, lives⟩
    · cases h
    · exact h.tail
  | popped f rest stage frames =>
    rw [marks, frames] at h
    rcases live with _ | ⟨life, lives⟩
    · cases h
    · have below : Sheltered lives (rest.map (·.mark)) := h.tail
      rw [marks_handDown, List.foldl_cons]
      split
      · rcases lives with _ | ⟨second, lives⟩
        · exact below
        · rcases rest with _ | ⟨g, rest⟩
          · cases below
          · exact below.top Iff.rfl
      · exact below

theorem pushed_turn {isShielded : Bool} (turn : Turn t es t') (h : .pushed isShielded ∈ es) :
    ∃ p, p.shields = isShielded ∧ t.stage.underway? = some p ∧
      t'.footings = ⟨.pushed isShielded t.canceled (t.frames.head?.map (·.mark)), false⟩ ::
        t.footings := by
  cases turn
  case pushed g name slot p underway fits =>
    obtain rfl : isShielded = p.shields := by simpa using h
    exact ⟨p, rfl, underway, rfl⟩
  case popped => split at h <;> simp at h
  all_goals simp at h

/-- Of a covered stack every frame above a completed one is shielded. -/
theorem covered_iff : Covered t.footings ↔ ∀ above f below, t.frames = above ++ f :: below →
    (∃ g ∈ below, g.completed = true) → f.mark = .shielded := by
  rw [Covered.iff_forall]
  constructor
  · intro h above f below frames hb
    refine h (above.map (·.footing)) f.footing (below.map (·.footing)) ?_ ?_
    · simp [footings, frames]
    · obtain ⟨g, hg, hd⟩ := hb
      exact ⟨g.footing, List.mem_map_of_mem hg, hd⟩
  · intro h above f below footings hb
    obtain ⟨above', rest, frames, rfl, hr⟩ := List.map_eq_append_iff.1 footings
    obtain ⟨f', below', rfl, rfl, rfl⟩ := List.map_eq_cons_iff.1 hr
    obtain ⟨g, hg, hd⟩ := hb
    obtain ⟨g', hg', rfl⟩ := List.mem_map.1 hg
    exact h above' f' below' frames ⟨g', hg', hd⟩

theorem covered_turn (h : Covered t.footings) (turn : Turn t es t')
    (sheltered : .pushed false ∈ es →
      ∀ f ∈ t.frames.head?, f.completed = true → f.mark = .shielded) :
    Covered t'.footings := by
  cases turn with
  | idle | quiet | onwards => exact h
  | pushed g name slot p =>
    have heads : t.footings.head? = t.frames.head?.map (·.footing) := List.head?_map ..
    have := h.pushed p.shields t.canceled fun hp f hf hd => by
      rw [heads] at hf
      obtain ⟨f', hf', rfl⟩ := Option.map_eq_some_iff.1 hf
      exact sheltered (by rw [← hp]; exact List.mem_singleton_self _) f' hf' hd
    rw [heads, Option.map_map] at this
    exact this
  | resumed f rest stage frames =>
    rw [footings, frames] at h
    exact h.top (forced_eq_shielded_iff f.mark).2
  | popped f rest stage frames =>
    rw [footings, frames] at h
    rw [footings_handDown]
    exact h.2
  | replaced f rest inner origin purpose frames =>
    rw [footings, frames] at h
    exact h.2
  | cancelled =>
    simpa [footings, Footing.cancel, Frame.footing, Function.comp_def] using h.cancel
  | forked outcome p =>
    rw [← footings_setCurrent outcome] at h
    exact h
  | returned result | stranded f rest result => rw [footings_conclude]; exact h
  | completed f rest g outcome stage frames =>
    rw [footings, frames] at h
    exact h.top fun hm => hm
  | suspended f rest g y stage frames | registered f rest op p purpose fits frames
  | recovered top below rest e p purpose fits frames
  | discharged f rest result prior stage frames
  | entrusted new f rest prior stage frames
  | undertaken f rest op ops stage frames =>
    simpa [footings, frames, Frame.footing] using h

variable [Named G] (registry : Registry M)

/-- An impulse pushes a frame, not for a deferred operation, on a completed frame that is not
shielded. -/
def Bares (t : Task G F M) (i : Impulse G F) : Prop :=
  .pushed false ∈ t.observe registry i ∧
    ∃ f rest, t.frames = f :: rest ∧ f.completed = true ∧ f.mark ≠ .shielded

variable {registry}

theorem Bares.not_covered {i : Impulse G F} (h : t.Coherent) (bares : t.Bares registry i) :
    ¬ Covered (t.take registry i).footings := by
  obtain ⟨pushed, f, rest, frames, done, bare⟩ := bares
  obtain ⟨p, -, -, footings⟩ := pushed_turn (turn_take h i) pushed
  rw [footings]
  rintro ⟨top, -⟩
  have shielded := top ⟨f.footing, by simp [Task.footings, frames], done⟩
  rw [frames, List.head?_cons, Option.map_some] at shielded
  revert shielded bare
  cases f.mark <;> simp [Mark.pushed]

theorem Bares.exposed {i : Impulse G F} (h : t.Coherent) (bares : t.Bares registry i) :
    t.Exposed := by
  obtain ⟨pushed, f, rest, frames, done, -⟩ := bares
  obtain ⟨p, shields, underway, -⟩ := pushed_turn (turn_take h i) pushed
  obtain rfl : p = .yielded := by
    cases p with
    | yielded => rfl
    | deferred => cases shields
  exact ⟨Stage.purpose?_of_underway? underway, f, rest, frames, done⟩

end Task

namespace Run

variable {G F M : Type} [Named G] {registry : Registry M} {id : TaskId} {root : Yielded G F}

theorem sheltered (impulses : List (Impulse G F)) :
    let r : Run G F M := (start id root).after registry impulses
    Sheltered (Ledger.replay r.history).live r.task.marks := by
  refine turn_induction (P := fun r => Sheltered (Ledger.replay r.history).live r.task.marks)
    .nil ?_ impulses
  intro t h es t' _ turn ih
  rw [Ledger.replay, List.foldl_append]
  exact Task.sheltered_turn ih turn

theorem covered (impulses : List (Impulse G F))
    (unbared : ∀ js i, js ++ [i] <+: impulses →
      ¬ ((start id root).after registry js : Run G F M).task.Bares registry i) :
    Covered ((start id root).after registry impulses : Run G F M).task.footings := by
  induction impulses using List.reverseRecOn with
  | nil => trivial
  | append_singleton is i ih =>
    have earlier := ih fun js j hj => unbared js j (hj.trans (List.prefix_append _ _))
    rw [after_append]
    refine Task.covered_turn earlier (Task.turn_take (Run.coherent is) i) ?_
    intro pushed f hf done
    obtain ⟨rest, frames⟩ := List.head?_eq_some_iff.1 hf
    by_contra bare
    exact unbared is i (List.prefix_refl _) ⟨pushed, f, rest, frames, done, bare⟩

/-- A live frame is shielded exactly if it, or a live frame below it, was pushed by the dispatch of
a deferred operation. A shielded frame is always resumed with what it is due, and what it yields is
dispatched. All frames above completed ones are shielded throughout a run exactly if no frame is
ever pushed, other than by the dispatch of a deferred operation, on a completed frame that is not
shielded; the frame above that one has then just replaced itself, unless a completed frame was
stranded before. -/
theorem shielded_iff_entrusted (registry : Registry M) (id : TaskId) (root : Yielded G F)
    (impulses : List (Impulse G F)) :
    let after (js : List (Impulse G F)) : Run G F M := (start id root).after registry js
    let r := after impulses
    (∀ k f, r.task.frames[k]? = some f →
      (f.mark = .shielded ↔
        ∃ life ∈ (Ledger.replay r.history).live.drop k, life.isEntrusted = true)) ∧
    (∀ f rest, r.task.frames = f :: rest → f.mark = .shielded →
      (r.task.stage = .ready →
        (r.task.step registry).2 = .resume f.generator (.deliver f.result)) ∧
      ∀ y g, r.task.stage = .resuming →
        (r.task.take registry (.resumed (.yielded y) g)).stage = .dispatching y f.slot .yielded) ∧
    ((∀ js, js <+: impulses → ∀ above f below, (after js).task.frames = above ++ f :: below →
        (∃ g ∈ below, g.completed = true) → f.mark = .shielded) ↔
      ∀ js i, js ++ [i] <+: impulses → ¬ (after js).task.Bares registry i) ∧
    ∀ js i, (after js).task.Bares registry i → .stranded ∉ (after js).history →
      Vacated (after js).history := by
  intro after r
  refine ⟨?_, ?_, ?_, ?_⟩
  · intro k f hk
    have sheltered : Sheltered (Ledger.replay r.history).live r.task.marks := Run.sheltered impulses
    exact sheltered.shielded_iff (by rw [Task.marks, List.getElem?_map, hk]; rfl)
  · intro f rest frames shielded
    constructor
    · intro stage
      simp [Task.step, stage, frames, Task.resumeTop, shielded]
    · intro y g stage
      simp [Task.take, Task.resumed, stage, frames, shielded]
  · constructor
    · intro h js i hj bares
      have step : after (js ++ [i]) = (after js).take registry i := after_append ..
      have covered := Task.covered_iff.2 (h _ hj)
      rw [step] at covered
      exact bares.not_covered (Run.coherent js) covered
    · intro unbared js hj
      refine Task.covered_iff.1 (Run.covered js fun ks k hk => ?_)
      exact unbared ks k (hk.trans hj)
  · intro js i bares unstranded
    exact Run.vacated js unstranded (bares.exposed (Run.coherent js))

/-- The frame of a deferred operation replaces itself by another, which is not shielded: it is
marked by a cancellation, what it yields is dropped, and it is forced to return. -/
theorem replacement_is_forced :
    let main : Stub := ⟨"main"⟩
    let deferred : Stub := ⟨"deferred"⟩
    let tail : Stub := ⟨"tail"⟩
    let moves (n : Nat) : List (Impulse Stub Unit) := .replicate n .move
    let impulses : List (Impulse Stub Unit) :=
      moves 4 ++ .resumed (.yielded (.operation (.defer (.call () [])))) main ::
      moves 4 ++ .resumed (.complete (.ok (.bool true))) main ::
      moves 3 ++ .invoked (.ok deferred) ::
      moves 2 ++ .resumed (.yielded (.operation (.terminal (.call () [])))) deferred ::
      moves 3 ++ .resumed (.complete (.ok .null)) deferred ::
      moves 2 ++ .invoked (.ok tail) :: moves 2 ++ [.cancel]
    let r : Run Stub Unit Unit := (start default (.generator main)).after default impulses
    let dropped := r.take default (.resumed (.yielded (.operation (.call () []))) tail)
    (r.task.frames.map fun f => (f.name, f.completed, f.mark)) =
      [("tail", false, .pending), ("main", true, .pending)] ∧
    r.task.stage = .resuming ∧ dropped.task.stage = .ready ∧
    (dropped.task.step default).2 = .resume tail .forcedReturn := by
  exact ⟨rfl, rfl, rfl, rfl⟩

end Run

end EffectEngine
