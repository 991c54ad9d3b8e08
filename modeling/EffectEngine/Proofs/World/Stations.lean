import EffectEngine.Proofs.World.Posts

/-!
# One task in a world

A `Station` is all that a world says about one task: the task and its post. `Station.Next` lists
what one move of the machine can do to a station, whichever thread it moves, and
`World.step_station` says that it does one of these things. Events that the code of the task logs
are read off the move (`World.emissions`).
-/

namespace EffectEngine

variable {S : Sig} {i : Nat}

/-- A task that has been born and is not over has one post. -/
structure Station (S : Sig) where
  task : Option S.Task
  posts : List (Post S)

open World

/-- What resuming a replaced generator for its return comes to. -/
def Host.retire (host : Host S) (g : S.Gen) : S.Code (S.Signal × S.Gen) :=
  (host.resume g .forcedReturn).bind fun (signal, generator) =>
    (Code.lift (host.release generator)).bind fun _ => .done (signal, generator)

/-- The answers that a host can give at once to a request. -/
inductive Answers (host : Host S) : Request S.Gen S.Fn S.Mw → Impulse S.Gen S.Fn → Prop
  | filter (middleware : S.Mw) (op : S.Operation) (ctx : S.Ctx) (accepts : Bool)
    (gives : (host.filter middleware op ctx).Gives accepts) :
    Answers host (.filter middleware op) (.filtered accepts)
  | handle (middleware : S.Mw) (op : S.Operation) (ctx : S.Ctx) (result : Except Error S.Gen)
    (gives : (host.handle middleware op ctx).Gives result) :
    Answers host (.handle middleware op) (.handled result)
  | invoke (func : S.Fn) (args : List Value) (result : Except Error S.Gen)
    (gives : (host.invoke func args).Gives result) :
    Answers host (.invoke func args) (.invoked result)
  | fork (root : S.Operation) (child : TaskId) : Answers host (.fork root) (.forked child)

def Query.emitted {σ N : Type} : Query σ N → List Event
  | .log e => [e]
  | _ => []

namespace World

/-- A task that is given up. -/
def Left (t t' : Option S.Task) : Prop :=
  ∃ u, Heeds t u ∧ (t' = u ∨ ∃ message, t' = u.map (·.panicked message))

/-- What the code of the task of a number logs in the next move of a thread with these levels. -/
def emissionsOf (i : Nat) (levels : List (Level S)) : List Event :=
  match levels with
  | .task id (some (.going (.ask q _))) :: _ => if id.index = i then q.emitted else []
  | _ => []

/-- What the code of the task of a number logs in the next move. -/
def emissions (w : World S) (i : Nat) : List Event :=
  match w.ready with
  | id :: _ => emissionsOf i (w.levelsAt id.index)
  | [] => []

end World

namespace Station

/-- What a move of the machine can do to a station, with the events that the code of the task
logs. -/
inductive Next (host : Host S) : Station S → List Event → Station S → Prop
  /-- Something else moves. -/
  | rests {t t' : Option S.Task} {ps ps' : List (Post S)} (heeds : Heeds t t')
    (heard : List.Forall₂ Post.Heard ps ps') : Next host ⟨t, ps⟩ [] ⟨t', ps'⟩
  | born (id : TaskId) (root : S.Yielded) {p : Post S} (new : p = .reserved ∨ p = .driven none) :
    Next host ⟨none, []⟩ [] ⟨some (.fresh id root), [p]⟩
  | begins (t : Option S.Task) : Next host ⟨t, [.reserved]⟩ [] ⟨t, [.driven none]⟩
  /-- Its root task fails before it starts, or its thread panics. -/
  | leaves {t t' : Option S.Task} (p : Post S) (left : Left t t') : Next host ⟨t, [p]⟩ [] ⟨t', []⟩
  | settles {t t' : S.Task} {request : Request S.Gen S.Fn S.Mw} {outcome : Outcome}
    (steps : t.step host.registry = (t', request)) (settled : t'.outcome? = some outcome) :
    Next host ⟨some t, [.driven none]⟩ [] ⟨some t', []⟩
  /-- What answers the request panics. -/
  | fails {t t' : S.Task} {u : Option S.Task} {request : Request S.Gen S.Fn S.Mw}
    (steps : t.step host.registry = (t', request)) (left : Left (some t') u) :
    Next host ⟨some t, [.driven none]⟩ [] ⟨u, []⟩
  | moves {t t' : S.Task} {request : Request S.Gen S.Fn S.Mw}
    (steps : t.step host.registry = (t', request)) (unsettled : t'.outcome? = none)
    (idle : request = .silent ∨ ∃ d, request = .report d) :
    Next host ⟨some t, [.driven none]⟩ [] ⟨some t', [.driven none]⟩
  | resumes {t t' : S.Task} {g : S.Gen} {input : Resume}
    (steps : t.step host.registry = (t', .resume g input)) (unsettled : t'.outcome? = none) :
    Next host ⟨some t, [.driven none]⟩ []
      ⟨some t', [.driven (some (.going (host.resume g input)))]⟩
  | retires {t t' : S.Task} {g : S.Gen} (steps : t.step host.registry = (t', .retire g))
    (unsettled : t'.outcome? = none) :
    Next host ⟨some t, [.driven none]⟩ [] ⟨some t', [.driven (some (.going (host.retire g)))]⟩
  /-- The answer may come after a request to cancel, of the code that gives it. -/
  | answered {t t' u : S.Task} {request : Request S.Gen S.Fn S.Mw} {answer : Impulse S.Gen S.Fn}
    (steps : t.step host.registry = (t', request)) (unsettled : t'.outcome? = none)
    (heeds : Heeds (some t') (some u)) (answers : Answers host request answer) :
    Next host ⟨some t, [.driven none]⟩ [] ⟨some (u.take host.registry answer), [.driven none]⟩
  | asks {t t' : Option S.Task} (heeds : Heeds t t') (q : Query S.State S.Note)
    (k : q.Answer → S.Code (S.Signal × S.Gen)) (answer : q.Answer) :
    Next host ⟨t, [.driven (some (.going (.ask q k)))]⟩ q.emitted
      ⟨t', [.driven (some (.going (k answer)))]⟩
  | performs (t : Option S.Task) (e : Effect S.Ctx S.Gen S.Fn S.Seed)
    (k : Outcome → S.Code (S.Signal × S.Gen)) (outcome : Outcome) :
    Next host ⟨t, [.driven (some (.going (.perform e k)))]⟩ []
      ⟨t, [.driven (some (.going (k outcome)))]⟩
  | waits (t : Option S.Task) (e : Effect S.Ctx S.Gen S.Fn S.Seed)
    (k : Outcome → S.Code (S.Signal × S.Gen)) :
    Next host ⟨t, [.driven (some (.going (.perform e k)))]⟩ [] ⟨t, [.driven (some (.waiting k))]⟩
  | ends (t : S.Task) (signal : S.Signal) (g : S.Gen) :
    Next host ⟨some t, [.driven (some (.going (.done (signal, g))))]⟩ []
      ⟨some (t.take host.registry (.resumed signal g)), [.driven none]⟩

namespace Next

variable {host : Host S} {s s' : Station S} {es : List Event}

/-- A task that has been born is there for ever. -/
theorem alive (h : Next host s es s') (born : s.task.isSome = true) : s'.task.isSome = true := by
  have heeds {t t' : Option S.Task} (heeds : Heeds t t') (born : t.isSome = true) :
      t'.isSome = true := by
    rcases heeds with rfl | rfl
    · exact born
    · rwa [Option.isSome_map]
  have left {t t' : Option S.Task} (left : Left t t') (born : t.isSome = true) :
      t'.isSome = true := by
    obtain ⟨u, given, rfl | ⟨message, rfl⟩⟩ := left
    · exact heeds given born
    · rw [Option.isSome_map]
      exact heeds given born
  cases h with
  | rests given | asks given => exact heeds given born
  | leaves _ given => exact left given born
  | fails _ given => exact left given rfl
  | begins | performs | waits => exact born
  | born | settles | moves | resumes | retires | answered | ends => rfl

/-- Only running code logs anything. -/
theorem silent (h : Next host s es s') (idle : s.posts = [] ∨ s.posts = [.driven none]) :
    es = [] := by
  cases h with
  | asks => rcases idle with idle | idle <;> cases idle
  | _ => rfl

/-- A task without a post gets none any more. -/
theorem vacant (h : Next host s es s') (born : s.task.isSome = true) (vacant : s.posts = []) :
    s'.posts = [] := by
  cases h with
  | rests heeds heard =>
    obtain rfl : _ = [] := vacant
    exact List.forall₂_nil_left_iff.1 heard
  | born => cases born
  | _ => cases vacant

end Next

/-- The station is that of the task of a number. -/
structure In (s : Station S) (i : Nat) (w : World S) : Prop where
  task : w.taskAt i = s.task
  posts : (s.posts = [] ∧ ∀ j, w.postsAt i j = []) ∨
    ∃ j p, s.posts = [p] ∧ w.postsAt i j = [p] ∧ ∀ k, k ≠ j → w.postsAt i k = []
  unborn : s.task = none → s.posts = []

/-- A move takes a station to one of the new world. It leaves the task alone if its thread has no
post there, and passes over the threads that do not run. -/
structure Goes (host : Host S) (i : Nat) (s : Station S) (es : List Event) (w w' : World S) :
    Prop where
  stands : ∃ s' : Station S, s'.In i w' ∧ Next host s es s'
  heeds : s.task ≠ none → (∀ id, w.ready.head? = some id → w.postsAt i id.index = []) →
    Heeds (w.taskAt i) (w'.taskAt i)
  others : ∀ o, w.ready.head? ≠ some o → Bypassed o w w'

variable {host : Host S} {s : Station S} {w w' w₁ : World S} {id : ThreadId} {p : Post S}
  {ps : List (Post S)} {l : Level S} {levels below : List (Level S)}

namespace In

theorem post_of (h : s.In i w) {j : Nat} (there : w.postsAt i j = [p]) :
    s.posts = [p] ∧ ∀ k, k ≠ j → w.postsAt i k = [] := by
  rcases h.posts with ⟨-, none⟩ | ⟨j', p', posts, here, others⟩
  · exact absurd ((none j).symm.trans there) nofun
  · obtain rfl : j = j' := by
      by_contra other
      exact absurd ((others j other).symm.trans there) nofun
    exact ⟨posts.trans (here.symm.trans there), others⟩

/-- A thread holds nothing for the task, or all that there is. -/
theorem held_cases (h : s.In i w) (j : Nat) : w.postsAt i j = [] ∨ ∃ p, w.postsAt i j = [p] := by
  rcases h.posts with ⟨-, none⟩ | ⟨j', p, -, here, others⟩
  · exact .inl (none j)
  · by_cases same : j = j'
    · exact .inr ⟨p, same ▸ here⟩
    · exact .inl (others j same)

/-- A station has no posts when no thread holds one. -/
theorem vacant_iff (h : s.In i w) : s.posts = [] ↔ ∀ j, w.postsAt i j = [] := by
  rcases h.posts with ⟨empty, nothing⟩ | ⟨j, p, posts, here, -⟩
  · exact iff_of_true empty nothing
  · refine iff_of_false (fun empty => ?_) fun nothing => ?_
    · cases posts.symm.trans empty
    · cases here.symm.trans (nothing j)

/-- The level on top holds all that there is. -/
theorem of_top (h : s.In i w) {j : Nat} (holds : w.levelsAt j = l :: below)
    (top : l.post? i = some p) : w.postsAt i j = [p] ∧ postsOf i below = [] := by
  have posts : w.postsAt i j = p :: postsOf i below := by
    rw [postsAt, holds, postsOf_cons, top]
    rfl
  rcases h.held_cases j with nothing | ⟨q, own⟩
  · cases posts.symm.trans nothing
  · obtain ⟨rfl, below⟩ := List.cons.inj (posts.symm.trans own)
    exact ⟨own, below⟩

theorem born_of_post (h : s.In i w) {j : Nat} (there : w.postsAt i j = [p]) :
    ∃ t, w.taskAt i = some t := by
  refine Option.ne_none_iff_exists'.1 fun none => ?_
  cases (h.post_of there).1.symm.trans (h.unborn (h.task.symm.trans none))

/-- Before a task is born, there is nothing. -/
theorem of_size (h : s.In i w) (next : i = w.tasks.size) :
    s = ⟨none, []⟩ ∧ ∀ j, w.postsAt i j = [] := by
  have unborn : s.task = none := by
    rw [← h.task, taskAt, Array.getElem?_eq_none (Nat.le_of_eq next.symm)]
    rfl
  have empty := h.unborn unborn
  refine ⟨?_, h.vacant_iff.1 empty⟩
  obtain ⟨t, ps⟩ := s
  obtain rfl : t = none := unborn
  obtain rfl : ps = [] := empty
  rfl

theorem ne_size (h : s.In i w) {j : Nat} (there : w.postsAt i j = [p]) : i ≠ w.tasks.size :=
  fun next => nomatch ((h.of_size next).2 j).symm.trans there

/-- The thread that holds the post moves. -/
theorem shift (h : s.In i w) (own : w.postsAt i id.index = [p]) (shifts : Shifts i id ps w w')
    (few : ps = [] ∨ ∃ q, ps = [q]) (born : w'.taskAt i = none → ps = []) :
    ∃ ps', List.Forall₂ Post.Heard ps ps' ∧ (⟨w'.taskAt i, ps'⟩ : Station S).In i w' := by
  obtain ⟨-, others⟩ := h.post_of own
  have gone (k : Nat) (other : k ≠ id.index) : w'.postsAt i k = [] := by
    have heard := shifts.others other
    rw [others k other, List.forall₂_nil_left_iff] at heard
    exact heard
  refine ⟨w'.postsAt i id.index, shifts.own, rfl, ?_, fun none => ?_⟩
  · rcases few with rfl | ⟨q, rfl⟩
    · have nothing := List.forall₂_nil_left_iff.1 shifts.own
      refine .inl ⟨nothing, fun k => ?_⟩
      by_cases same : k = id.index
      · exact same ▸ nothing
      · exact gone k same
    · obtain ⟨q', rest, -, empty, there⟩ := List.forall₂_cons_left_iff.1 shifts.own
      rw [List.forall₂_nil_left_iff.1 empty] at there
      exact .inr ⟨_, q', there, there, gone⟩
  · have heard := shifts.own
    rw [born none, List.forall₂_nil_left_iff] at heard
    exact heard

end In

/-! ### Moves of a thread -/

section Goes

variable (h : s.In i w)
include h

/-- Something else moves. -/
theorem rests (heard : ∀ j, List.Forall₂ Post.Heard (w.postsAt i j) (w'.postsAt i j))
    (heeds : Heeds (w.taskAt i) (w'.taskAt i))
    (others : ∀ o, w.ready.head? ≠ some o → Bypassed o w w') : Goes host i s [] w w' := by
  refine ⟨?_, fun _ _ => heeds, others⟩
  obtain ⟨t, ps⟩ := s
  obtain ⟨rfl, posts, unborn⟩ := h
  have gone {j : Nat} (nothing : w.postsAt i j = []) : w'.postsAt i j = [] :=
    List.forall₂_nil_left_iff.1 (nothing ▸ heard j)
  rcases posts with ⟨rfl, vacant⟩ | ⟨j, p, rfl, here, others⟩
  · exact ⟨⟨w'.taskAt i, []⟩, ⟨rfl, .inl ⟨rfl, fun j => gone (vacant j)⟩, fun _ => rfl⟩,
      .rests heeds .nil⟩
  · have moved := heard j
    rw [here] at moved
    obtain ⟨p', rest, first, empty, there⟩ := List.forall₂_cons_left_iff.1 moved
    rw [List.forall₂_nil_left_iff.1 empty] at there
    refine ⟨⟨w'.taskAt i, [p']⟩, ⟨rfl, .inr ⟨j, p', rfl, there, fun k other => ?_⟩,
      fun none => ?_⟩, .rests heeds (.cons first .nil)⟩
    · exact gone (others k other)
    · cases unborn (heeds.eq_none none)

theorem unmoved (q : Unmoved i w w') : Goes host i s [] w w' :=
  rests h q.toQuiet.posts q.task fun o _ => q.toQuiet.bypassed o

/-- The task is born. -/
theorem birth (next : i = w.tasks.size) {task : TaskId} {root : S.Yielded} {j : Nat}
    (born : w'.taskAt i = some (.fresh task root)) (here : w'.postsAt i j = [p])
    (elsewhere : ∀ k, k ≠ j → w'.postsAt i k = []) (new : p = .reserved ∨ p = .driven none)
    (others : ∀ o, w.ready.head? ≠ some o → Bypassed o w w') : Goes host i s [] w w' := by
  obtain ⟨rfl, -⟩ := h.of_size next
  have stands : (⟨some (.fresh task root), [p]⟩ : Station S).In i w' :=
    ⟨born, .inr ⟨j, p, rfl, here, elsewhere⟩, fun unborn => absurd unborn (Option.some_ne_none _)⟩
  exact ⟨⟨_, stands, .born task root new⟩, fun unborn => absurd rfl unborn, others⟩

variable (head : w.ready.head? = some id)
include head

theorem stays (shifts : Shifts i id (w.postsAt i id.index) w w')
    (heeds : Heeds (w.taskAt i) (w'.taskAt i)) : Goes host i s [] w w' := by
  refine rests h (fun j => ?_) heeds fun o idle =>
    shifts.bypassed fun same => idle (head.trans (congrArg some same.symm))
  by_cases same : j = id.index
  · exact same ▸ shifts.own
  · exact shifts.others same

/-- The thread that holds the post moves on with it. -/
theorem goesOn {q : Post S} {es : List Event} {t t' : S.Task}
    (own : w.postsAt i id.index = [p]) (alive : w.taskAt i = some t)
    (shifts : Shifts i id [q] w w') (after : w'.taskAt i = some t')
    (step : ∀ q', Post.Heard q q' → Next host ⟨some t, [p]⟩ es ⟨some t', [q']⟩) :
    Goes host i s es w w' := by
  refine ⟨?_, fun _ away => ?_, fun o idle => shifts.bypassed fun same => idle (same ▸ head)⟩
  · obtain ⟨ps', heard, stands⟩ := h.shift own shifts (.inr ⟨q, rfl⟩) fun none => by
      cases none.symm.trans after
    obtain ⟨q', rest, first, empty, rfl⟩ := List.forall₂_cons_left_iff.1 heard
    rw [List.forall₂_nil_left_iff.1 empty, after] at stands
    refine ⟨_, stands, ?_⟩
    obtain ⟨t₀, ps⟩ := s
    obtain ⟨posts, -⟩ := h.post_of own
    obtain rfl : t₀ = some t := h.task.symm.trans alive
    obtain rfl : ps = [p] := posts
    exact step q' first
  · cases own.symm.trans (away id head)

/-- The thread that holds the post, if there is one, lets go of it. -/
theorem lets_go {es : List Event} (shifts : Shifts i id [] w w')
    (step : ∀ p, w.postsAt i id.index = [p] →
      Next host ⟨w.taskAt i, [p]⟩ es ⟨w'.taskAt i, []⟩)
    (elsewhere : w.postsAt i id.index = [] → es = [] ∧ Heeds (w.taskAt i) (w'.taskAt i)) :
    Goes host i s es w w' := by
  rcases h.held_cases id.index with nothing | ⟨p, own⟩
  · obtain ⟨rfl, heeds⟩ := elsewhere nothing
    exact stays h head (nothing ▸ shifts) heeds
  · refine ⟨?_, fun _ away => ?_, fun o idle => shifts.bypassed fun same => idle (same ▸ head)⟩
    · obtain ⟨ps', heard, stands⟩ := h.shift own shifts (.inl rfl) fun _ => rfl
      rw [List.forall₂_nil_left_iff.1 heard] at stands
      refine ⟨_, stands, ?_⟩
      obtain ⟨t, ps⟩ := s
      obtain ⟨posts, -⟩ := h.post_of own
      obtain rfl : w.taskAt i = t := h.task
      obtain rfl : ps = [p] := posts
      exact step p own
    · cases own.symm.trans (away id head)

theorem gives_up {es : List Event} (own : w.postsAt i id.index = [p])
    (shifts : Shifts i id [] w w') (step : Next host ⟨w.taskAt i, [p]⟩ es ⟨w'.taskAt i, []⟩) :
    Goes host i s es w w' := by
  refine lets_go h head shifts (fun p' own' => ?_) fun away => ?_
  · obtain rfl := List.singleton_inj.1 (own.symm.trans own')
    exact step
  · cases own.symm.trans away

end Goes

end Station

namespace World

variable {α : Type} {w w' w₁ : World S} {host : Host S} {id : ThreadId} {ps : List (Post S)}
  {l : Level S} {levels below : List (Level S)} {s : Station S}

theorem taskAt_of_eq (same : w'.tasks = w.tasks) : w'.taskAt i = w.taskAt i := by
  rw [taskAt, taskAt, same]

/-- The task at the bottom of a thread has a post there. -/
theorem postsOf_bottom {task : TaskId} (bottom : bottomTask? levels = some task) :
    postsOf task.index levels ≠ [] := by
  unfold bottomTask? at bottom
  split at bottom
  · rename_i id' flow last
    obtain rfl := Option.some.inj bottom
    have there : Post.driven flow ∈ postsOf id'.index levels :=
      List.mem_filterMap.2 ⟨_, List.mem_of_getLast? last, by simp [Level.post?]⟩
    exact List.ne_nil_of_mem there
  · cases bottom

/-- A panic of the running thread. -/
theorem Unmoved.crash (q : Unmoved i w w₁) (host : Host S) (known : id.index < w.threads.size)
    (head : w.ready.head? = some id) (levels : List (Level S)) (message : String) :
    Shifts i id [] w (w₁.crash host id levels message) ∧
      Left (w.taskAt i) ((w₁.crash host id levels message).taskAt i) ∧
      (postsOf i levels = [] →
        Heeds (w.taskAt i) ((w₁.crash host id levels message).taskAt i)) := by
  have released := q.trans (.release i host w₁ (w₁.unwound levels))
  have heeds : Left (w.taskAt i) ((w₁.release host (w₁.unwound levels)).taskAt i) :=
    ⟨_, released.task, .inl rfl⟩
  unfold World.crash
  dsimp only
  split
  · rename_i task bottom
    generalize w₁.release host (w₁.unwound levels) = w₂ at released heeds
    have settled : Quiet i w₂ (w₂.modifyTask task (·.panicked message)) := .still rfl rfl rfl
    have woken := settled.trans (Unmoved.wake i _ (.task task) (.error (.panicked message))).toQuiet
    refine ⟨(released.toQuiet.trans woken).endThread known head _, ?_⟩
    rw [taskAt_of_eq ((tasks_endThread _ _ _).trans (tasks_wake _ _ _)), taskAt_modifyTask]
    split
    · rename_i own
      refine ⟨⟨_, released.task, .inr ⟨message, rfl⟩⟩, fun nothing => ?_⟩
      exact absurd nothing (own ▸ postsOf_bottom bottom)
    · exact ⟨heeds, fun _ => released.task⟩
  · split
    · refine ⟨released.toQuiet.endThread known head _, ?_⟩
      rw [taskAt_of_eq (tasks_endThread _ _ _)]
      exact ⟨heeds, fun _ => released.task⟩
    · have written := released.trans (.write i _ (.note (host.crash message)))
      refine ⟨written.toQuiet.endThread known head _, ?_⟩
      rw [taskAt_of_eq (tasks_endThread _ _ _)]
      exact ⟨heeds, fun _ => released.task⟩

end World

end EffectEngine
