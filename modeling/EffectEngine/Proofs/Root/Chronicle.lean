import EffectEngine.Proofs.Root.Enactment
import EffectEngine.Proofs.Task.Settlement

/-!
# The root tasks of a running engine

A `Chronicle` is a world together with all that happened to its root tasks, read off every move that
is made. `Chronicle.Accounted` says that what happened to each of them is a course, up to where the
root task stands on its thread or to its end, and that it ends in no other way than by returning its
result or in a panic of running code.
-/

namespace EffectEngine

namespace Course

variable {L : Type} {c : Course L} {i : Stimulus}

/-- A course goes on in the same way whatever happened before. -/
theorem take_eq (life : Lifecycle L) (calling : Bool) (os : List (Occasion L)) (i : Stimulus) :
    (⟨life, calling, os⟩ : Course L).take i =
      { (⟨life, calling, []⟩ : Course L).take i with
        occasions := os ++ ((⟨life, calling, []⟩ : Course L).take i).occasions } := by
  cases i with
  | move =>
    simp only [take]
    rcases calling <;> rcases life.step with ⟨life', _ | _ | _ | _⟩ <;> simp
  | answered result =>
    simp only [take]
    split <;> simp
  | settled outcome =>
    simp only [take]
    rcases calling <;> rcases life.phase with _ | _ | _ | _ | _ | _ | _ <;> simp

end Course

namespace Root

variable {S : Sig} {L : Type}

/-! ### What happened to one root task -/

section Single

variable {host : Host S} {r r' : Root S} {es : List (RootEvent S.Listener)}
  {os : List (Occasion S.Listener)}

/-- What happened to a root task is a course that comes to where it stands. While it calls a hook,
the code of the hook that was called last is what it goes on with. -/
structure Going (host : Host S) (r : Root S) (es : List (RootEvent S.Listener)) : Prop where
  course : ∃ stimuli os, (Course.begin host.listeners).after stimuli =
    ⟨r.life, r.flow.isSome, os⟩ ∧ es = os.map .occasion
  calls : ∀ f, r.flow = some f → ∃ before l hook, es = before ++ [.occasion (.called l hook)] ∧
    Flow.Continues (.going (host.hook l hook r.ctx)) f

/-- What happened to a root task that is not, or not any more, on a thread. -/
inductive Departed (host : Host S) : List (RootEvent S.Listener) → Prop
  | unknown : Departed host []
  | returned {r : Root S} {es : List (RootEvent S.Listener)} {result : Outcome}
    (going : Going host r es) (returns : r.course.result? = some result) :
    Departed host (es ++ [.returned result])
  | unwound {r : Root S} {es : List (RootEvent S.Listener)} (message : String)
    (going : Going host r es) (running : r.Open) : Departed host (es ++ [.unwound message])

theorem going_begin (host : Host S) (id : TaskId) (ctx : S.Ctx) :
    Going host (.begin id ctx host.listeners) [] := ⟨⟨[], [], rfl, rfl⟩, nofun⟩

theorem Going.goes (h : Going host r es) (goes : Goes host r os r') :
    Going host r' (es ++ os.map .occasion) where
  course := by
    obtain ⟨stimuli, before, after, rfl⟩ := h.course
    obtain ⟨i, take⟩ := goes.course
    refine ⟨stimuli ++ [i], before ++ os, ?_, List.map_append.symm⟩
    rw [Course.after_append, after]
    refine (Course.take_eq r.life r.flow.isSome before i).trans ?_
    rw [show (⟨r.life, r.flow.isSome, []⟩ : Course S.Listener).take i = _ from take]
  calls f flow := by
    cases goes with
    | moved idle | started idle | settled _ idle => cases idle.symm.trans flow
    | called =>
      obtain rfl := Option.some.inj flow
      exact ⟨es, _, _, rfl, .refl⟩
    | answered => cases flow

theorem Going.abides (h : Going host r es) (abides : r.Abides r') : Going host r' es := by
  obtain ⟨id, ctx, life, f⟩ := r
  obtain ⟨flow, rfl, goes⟩ := abides
  cases goes with
  | none => exact ⟨h.course, nofun⟩
  | some goes =>
    refine ⟨h.course, fun f' same => ?_⟩
    obtain rfl := Option.some.inj same
    obtain ⟨before, l, hook, last, code⟩ := h.calls _ rfl
    exact ⟨before, l, hook, last, code.trans goes⟩

theorem Abides.id_eq (h : r.Abides r') : r'.id = r.id := by
  obtain ⟨flow, rfl, -⟩ := h
  rfl

section All

variable {rs rs' : List (Root S)}

theorem exists_of_abides (h : List.Forall₂ Abides rs rs') (mem : r' ∈ rs') :
    ∃ r ∈ rs, r.Abides r' := by
  induction h with
  | nil => cases mem
  | cons first _ ih =>
    rcases List.mem_cons.1 mem with rfl | mem
    · exact ⟨_, List.mem_cons_self .., first⟩
    · obtain ⟨r, mem, abides⟩ := ih mem
      exact ⟨r, List.mem_cons_of_mem _ mem, abides⟩

theorem map_id_of_abides (h : List.Forall₂ Abides rs rs') : rs'.map (·.id) = rs.map (·.id) := by
  induction h with
  | nil => rfl
  | cons first _ ih => rw [List.map_cons, List.map_cons, first.id_eq, ih]

end All

/-- What happened to a root task on a thread is a beginning of what the protocol says, up to the
end if it is about to return. While code of it is running, this has begun last. -/
theorem Going.protocol (h : Going host r es) :
    ∃ os, es = os.map .occasion ∧ (∃ more result, Protocol host.listeners (os ++ more) result) ∧
      (∀ result, r.course.result? = some result → Protocol host.listeners os result) ∧
      (r.Open → ∃ before last, os = before ++ [last] ∧ last.isOpening = true) := by
  obtain ⟨stimuli, os, after, rfl⟩ := h.course
  have ahead := Course.protocol_of_after host.listeners stimuli
  rw [after] at ahead
  refine ⟨os, rfl, ahead, fun result returns => ?_, fun running => ?_⟩
  · refine (Course.protocol_iff host.listeners os result).2 ⟨stimuli, ?_, ?_⟩
    · rw [after]
    · rw [after]
      exact returns
  · have idle : ¬ (Course.begin host.listeners).Open := nofun
    have running : ((Course.begin host.listeners).after stimuli).Open := after ▸ running
    obtain ⟨last, mem, opening⟩ := Course.last_of_open (Course.poised_begin host.listeners)
      (fun running => absurd running idle) running
    rw [after] at mem
    exact ⟨os.dropLast, last, (List.dropLast_append_getLast? last mem).symm, opening⟩

/-- What happened to one root task. -/
def eventsOf (id : TaskId) (es : List (TaskId × RootEvent L)) : List (RootEvent L) :=
  es.filterMap fun e => if e.1 = id then some e.2 else none

theorem eventsOf_append (id : TaskId) (es fs : List (TaskId × RootEvent L)) :
    eventsOf id (es ++ fs) = eventsOf id es ++ eventsOf id fs := List.filterMap_append

theorem eventsOf_eq_nil {id : TaskId} {es : List (TaskId × RootEvent L)} (h : ∀ e ∈ es, e.1 ≠ id) :
    eventsOf id es = [] := by
  simpa [eventsOf] using h

theorem eventsOf_singleton (id : TaskId) (e : RootEvent L) : eventsOf id [(id, e)] = [e] := by
  simp [eventsOf]

theorem eventsOf_occasions (id : TaskId) (os : List (Occasion L)) :
    eventsOf id (os.map fun o => (id, .occasion o)) = os.map .occasion := by
  simp [eventsOf, List.filterMap_map]

theorem eventsOf_unwound {rs : List (Root S)} (distinct : (rs.map (·.id)).Nodup) (mem : r ∈ rs)
    (message : String) :
    eventsOf r.id (rs.map fun r => ((r.id, .unwound message) : TaskId × RootEvent L)) =
      [.unwound message] := by
  induction rs with
  | nil => cases mem
  | cons r' rs ih =>
    obtain ⟨new, distinct⟩ := List.nodup_cons.1 distinct
    have head : eventsOf r.id ((r' :: rs).map fun r => ((r.id, .unwound message) :
        TaskId × RootEvent L)) = (if r'.id = r.id then [.unwound message] else []) ++
          eventsOf r.id (rs.map fun r => (r.id, .unwound message)) := by
      simp only [eventsOf, List.map_cons, List.filterMap_cons]
      split <;> simp_all
    rw [head]
    rcases List.mem_cons.1 mem with rfl | mem
    · rw [if_pos rfl, eventsOf_eq_nil, List.append_nil]
      rintro e he same
      obtain ⟨r', hr', rfl⟩ := List.mem_map.1 he
      exact new (List.mem_map.2 ⟨r', hr', same⟩)
    · rw [if_neg fun same => new (List.mem_map.2 ⟨r, mem, same.symm⟩), ih distinct mem]
      rfl

end Single

end Root

/-! ### What a passage means -/

namespace Root.Passage

variable {S : Sig} {host : Host S} {id : TaskId} {bound : Nat} {rs rs' : List (Root S)}
  {es : List (TaskId × RootEvent S.Listener)} {acc : TaskId → List (RootEvent S.Listener)}

theorem known (h : Passage host id bound rs es rs') {r : Root S} (mem : r ∈ rs') :
    (∃ r₀ ∈ rs, r₀.id = r.id) ∨ r.id = id ∧ id.index < bound := by
  cases h with
  | same | unwound => exact .inl ⟨r, by simp_all, rfl⟩
  | began _ _ counted =>
    rcases List.mem_cons.1 mem with rfl | mem
    · exact .inr ⟨rfl, counted⟩
    · exact .inl ⟨r, mem, rfl⟩
  | went goes rs =>
    rcases List.mem_cons.1 mem with rfl | mem
    · exact .inl ⟨_, List.mem_cons_self .., goes.id_eq.symm⟩
    · exact .inl ⟨r, List.mem_cons_of_mem _ mem, rfl⟩
  | returned r₀ _ => exact .inl ⟨r, List.mem_cons_of_mem _ mem, rfl⟩

/-- A passage is about the root tasks of its thread only. -/
theorem others (h : Passage host id bound rs es rs') {other : TaskId}
    (away : ∀ r ∈ rs, r.id ≠ other) : eventsOf other es = [] := by
  refine eventsOf_eq_nil fun e he => ?_
  cases h with
  | same | began => cases he
  | went goes =>
    obtain ⟨o, -, rfl⟩ := List.mem_map.1 he
    exact away _ (List.mem_cons_self ..)
  | returned r =>
    obtain rfl := List.mem_singleton.1 he
    exact away r (List.mem_cons_self ..)
  | unwound =>
    obtain ⟨r, hr, rfl⟩ := List.mem_map.1 he
    exact away r hr

/-- At most one thing happens to a root task. -/
theorem eventsOf_eq (h : Passage host id bound rs es rs') (unique : (rs.map (·.id)).Nodup)
    (other : TaskId) :
    eventsOf other es = [] ∨ ∃ e, (other, e) ∈ es ∧ eventsOf other es = [e] := by
  by_cases there : ∃ r ∈ rs, r.id = other
  · obtain ⟨r, mem, rfl⟩ := there
    cases h with
    | same | began => exact .inl rfl
    | @went r₀ _ os goes =>
      by_cases same : r₀.id = r.id
      · rw [same, eventsOf_occasions]
        cases goes with
        | moved => exact .inl rfl
        | called | answered | started | settled =>
          exact .inr ⟨_, List.mem_cons_self .., rfl⟩
      · refine .inl (eventsOf_eq_nil fun e he => ?_)
        obtain ⟨o, -, rfl⟩ := List.mem_map.1 he
        exact same
    | @returned r₀ _ result =>
      by_cases same : r₀.id = r.id
      · rw [same, eventsOf_singleton]
        exact .inr ⟨_, List.mem_singleton.2 rfl, rfl⟩
      · exact .inl (eventsOf_eq_nil fun e he => List.mem_singleton.1 he ▸ same)
    | unwound _ message =>
      rw [eventsOf_unwound unique mem]
      exact .inr ⟨_, List.mem_map_of_mem mem, rfl⟩
  · exact .inl (h.others fun r mem same => there ⟨r, mem, same⟩)

theorem distinct (h : Passage host id bound rs es rs') (distinct : (rs.map (·.id)).Nodup)
    (away : ∀ r ∈ rs, r.id ≠ id) : (rs'.map (·.id)).Nodup := by
  cases h with
  | same => exact distinct
  | went goes =>
    rw [List.map_cons, goes.id_eq]
    exact distinct
  | began =>
    refine List.nodup_cons.2 ⟨fun old => ?_, distinct⟩
    obtain ⟨r, hr, same⟩ := List.mem_map.1 old
    exact away r hr same
  | returned => exact (List.nodup_cons.1 distinct).2
  | unwound => exact .nil

theorem others_of_cons {r₀ r : Root S} {rs : List (Root S)} (unique : ((r₀ :: rs).map (·.id)).Nodup)
    (mem : r ∈ rs) : r₀.id ≠ r.id := fun same =>
  (List.nodup_cons.1 unique).1 (List.mem_map.2 ⟨r, mem, same.symm⟩)

variable (unique : (rs.map (·.id)).Nodup) (goes : ∀ r ∈ rs, Going host r (acc r.id))
include unique goes

/-- The root tasks that are on the thread after a passage have gone on. -/
theorem going (h : Passage host id bound rs es rs') (fresh : acc id = [])
    (away : ∀ r ∈ rs, r.id ≠ id) : ∀ r ∈ rs', Going host r (acc r.id ++ eventsOf r.id es) := by
  intro r mem
  have quiet {es : List (TaskId × RootEvent S.Listener)} (h : ∀ e ∈ es, e.1 ≠ r.id)
      (goes : Going host r (acc r.id)) : Going host r (acc r.id ++ eventsOf r.id es) := by
    rwa [eventsOf_eq_nil h, List.append_nil]
  cases h with
  | same => exact quiet nofun (goes r mem)
  | began _ ctx =>
    refine quiet nofun ?_
    rcases List.mem_cons.1 mem with rfl | mem
    · exact fresh ▸ going_begin host id ctx
    · exact goes r mem
  | went went rs =>
    rcases List.mem_cons.1 mem with rfl | mem
    · rw [went.id_eq, eventsOf_occasions]
      exact (goes _ (List.mem_cons_self ..)).goes went
    · refine quiet (fun e he => ?_) (goes r (List.mem_cons_of_mem _ mem))
      obtain ⟨o, -, rfl⟩ := List.mem_map.1 he
      exact others_of_cons unique mem
  | returned r₀ _ =>
    refine quiet (fun e he => ?_) (goes r (List.mem_cons_of_mem _ mem))
    obtain rfl := List.mem_singleton.1 he
    exact others_of_cons unique mem
  | unwound => cases mem

/-- What happened to root tasks that have left the thread in a passage includes their end. -/
theorem departed (h : Passage host id bound rs es rs') {r : Root S} (mem : r ∈ rs)
    (left : r.id ∉ rs'.map (·.id)) : Departed host (acc r.id ++ eventsOf r.id es) := by
  have absurd_of_mem {rs : List (Root S)} (mem : r ∈ rs) (left : r.id ∉ rs.map (·.id)) : False :=
    left (List.mem_map_of_mem mem)
  cases h with
  | same => exact (absurd_of_mem mem left).elim
  | began => exact (absurd_of_mem (List.mem_cons_of_mem _ mem) left).elim
  | went went rs =>
    rw [List.map_cons, went.id_eq] at left
    exact (left (List.mem_map_of_mem mem)).elim
  | returned r₀ _ returns =>
    rcases List.mem_cons.1 mem with rfl | mem
    · rw [eventsOf_singleton]
      exact .returned (goes r (List.mem_cons_self ..)) returns
    · exact (absurd_of_mem mem left).elim
  | unwound _ message running =>
    rw [eventsOf_unwound unique mem]
    exact .unwound message (goes r mem) (running r mem)

end Root.Passage

/-! ### What happened to all root tasks -/

namespace Root

variable {S : Sig}

structure Chronicle (S : Sig) where
  world : World S
  events : List (TaskId × RootEvent S.Listener)

namespace Chronicle

def tick (host : Host S) (r : Chronicle S) : Chronicle S :=
  ⟨r.world.step host, r.events ++ r.world.rootEvents host⟩

def of (r : Chronicle S) (id : TaskId) : List (RootEvent S.Listener) := eventsOf id r.events

structure Accounted (host : Host S) (r : Chronicle S) : Prop where
  upright : r.world.Upright
  known : ∀ i, ∀ root ∈ r.world.roots i, root.id.index < r.world.tasks.size
  distinct : ∀ i, ((r.world.roots i).map (·.id)).Nodup
  apart : ∀ i j, i ≠ j → ∀ root ∈ r.world.roots i, ∀ root' ∈ r.world.roots j, root.id ≠ root'.id
  going : ∀ i, ∀ root ∈ r.world.roots i, Going host root (r.of root.id)
  departed : ∀ id, (∀ i, ∀ root ∈ r.world.roots i, root.id ≠ id) →
    Departed host (r.of id)
  fresh : ∀ id : TaskId, r.world.tasks.size ≤ id.index → r.of id = []

namespace Accounted

variable {host : Host S} {r : Chronicle S}

theorem tick (h : r.Accounted host) : (r.tick host).Accounted host := by
  obtain ⟨i, ⟨rs, own, abide⟩, others, upright, tag, tasks⟩ := World.step_passes host h.upright
  let new : TaskId := ⟨r.world.tag, r.world.tasks.size⟩
  have unknown (j : Nat) : ∀ root ∈ r.world.roots j, root.id ≠ new := fun root mem same =>
    Nat.lt_irrefl _ ((congrArg TaskId.index same) ▸ h.known j root mem)
  have of_eq (id : TaskId) :
      (r.tick host).of id = r.of id ++ eventsOf id (r.world.rootEvents host) :=
    eventsOf_append id _ _
  have own_ids : ((r.tick host).world.roots i).map (·.id) = rs.map (·.id) := map_id_of_abides abide
  have ids (j : Nat) (other : j ≠ i) :
      ((r.tick host).world.roots j).map (·.id) = (r.world.roots j).map (·.id) :=
    map_id_of_abides (others j other)
  -- a root task that is on another thread, or on none, is not affected
  have unaffected {id : TaskId} (away : ∀ root ∈ r.world.roots i, root.id ≠ id) :
      (r.tick host).of id = r.of id := by
    rw [of_eq, own.others away, List.append_nil]
  have old (j : Nat) : ∀ root ∈ (r.tick host).world.roots j,
      (∃ root₀ ∈ r.world.roots j, root₀.id = root.id) ∨
        j = i ∧ root.id = new ∧ new.index < (r.tick host).world.tasks.size := by
    intro root mem
    by_cases same : j = i
    · subst same
      obtain ⟨root₁, mem₁, abides⟩ := exists_of_abides abide mem
      rw [abides.id_eq]
      exact (own.known mem₁).imp_right fun new => ⟨rfl, new⟩
    · obtain ⟨root₁, mem₁, abides⟩ := exists_of_abides (others j same) mem
      exact .inl ⟨root₁, mem₁, abides.id_eq.symm⟩
  exact
    { upright
      known := fun j root mem => by
        rcases old j root mem with ⟨root₀, mem₀, same⟩ | ⟨-, is, counted⟩
        · exact same ▸ (h.known j root₀ mem₀).trans_le tasks
        · exact is ▸ counted
      distinct := fun j => by
        by_cases same : j = i
        · subst same
          rw [own_ids]
          exact own.distinct (h.distinct j) (unknown j)
        · rw [ids j same]
          exact h.distinct j
      apart := fun j k other root mem root' mem' same => by
        rcases old j root mem with ⟨root₀, mem₀, same₀⟩ | ⟨here, is, -⟩
        · rcases old k root' mem' with ⟨root₁, mem₁, same₁⟩ | ⟨-, is', -⟩
          · exact h.apart j k other root₀ mem₀ root₁ mem₁ (same₀.trans (same.trans same₁.symm))
          · exact unknown j root₀ mem₀ (same₀.trans (same.trans is'))
        · rcases old k root' mem' with ⟨root₁, mem₁, same₁⟩ | ⟨there, -, -⟩
          · exact unknown k root₁ mem₁ (same₁.trans (same.symm.trans is))
          · exact other (here.trans there.symm)
      going := fun j root mem => by
        by_cases same : j = i
        · subst same
          obtain ⟨root₁, mem₁, abides⟩ := exists_of_abides abide mem
          rw [of_eq, abides.id_eq]
          exact (own.going (h.distinct j) (h.going j) (h.fresh new (Nat.le_refl _)) (unknown j)
            root₁ mem₁).abides abides
        · obtain ⟨root₁, mem₁, abides⟩ := exists_of_abides (others j same) mem
          rw [abides.id_eq,
            unaffected fun root' mem' => h.apart i j (Ne.symm same) root' mem' root₁ mem₁]
          exact (h.going j root₁ mem₁).abides abides
      departed := fun id gone => by
        have left (j : Nat) : id ∉ ((r.tick host).world.roots j).map (·.id) := fun there => by
          obtain ⟨root, mem, same⟩ := List.mem_map.1 there
          exact gone j root mem same
        by_cases there : ∃ root ∈ r.world.roots i, root.id = id
        · obtain ⟨root, mem, rfl⟩ := there
          rw [of_eq]
          exact own.departed (h.distinct i) (h.going i) mem (own_ids ▸ left i)
        · have away : ∀ root ∈ r.world.roots i, root.id ≠ id := fun root mem same =>
            there ⟨root, mem, same⟩
          rw [unaffected away]
          refine h.departed id fun j root mem is => ?_
          by_cases same : j = i
          · exact away root (same ▸ mem) is
          · refine left j ?_
            rw [ids j same]
            exact List.mem_map.2 ⟨root, mem, is⟩
      fresh := fun id beyond => by
        have before : r.world.tasks.size ≤ id.index := tasks.trans beyond
        rw [unaffected fun root mem same => ?_, h.fresh id before]
        exact absurd (h.known i root mem) (same ▸ Nat.not_lt.2 before) }

/-- In one move at most one thing happens to a root task. -/
theorem of_tick (h : r.Accounted host) (id : TaskId) : (r.tick host).of id = r.of id ∨
    ∃ e, (id, e) ∈ r.world.rootEvents host ∧ (r.tick host).of id = r.of id ++ [e] := by
  obtain ⟨i, ⟨rs, own, -⟩, -⟩ := World.step_passes host h.upright
  have of_eq : (r.tick host).of id = r.of id ++ eventsOf id (r.world.rootEvents host) :=
    eventsOf_append id _ _
  rcases own.eventsOf_eq (h.distinct i) id with none | ⟨e, mem, one⟩
  · exact .inl (by rw [of_eq, none, List.append_nil])
  · exact .inr ⟨e, mem, by rw [of_eq, one]⟩

/-- What is entered next is what the machine does next. -/
theorem enacts (h : r.Accounted host) {e : TaskId × RootEvent S.Listener}
    (mem : e ∈ r.world.rootEvents host) :
    ∃ thread, r.world.ready.head? = some thread ∧
      r.world.Enacts host thread e.1 (r.of e.1) e.2 := by
  unfold World.rootEvents at mem
  split at mem
  · rename_i thread rest ready
    have head : r.world.ready.head? = some thread := by rw [ready, List.head?_cons]
    refine ⟨thread, head, ?_⟩
    cases holds : r.world.levelsAt thread.index with
    | nil =>
      rw [holds] at mem
      cases mem
    | cons l below =>
      rw [holds] at mem
      exact World.enacts_of_mem holds h.upright head (h.known _)
        (fun root there => (h.going _ root there).calls) mem
  · cases mem

/-- What happened to any root task is a beginning of what the protocol says, with the end of the
run if there was one. -/
theorem protocol (h : r.Accounted host) (id : TaskId) :
    ∃ os, (∃ more result, Protocol host.listeners (os ++ more) result) ∧
      (r.of id = os.map .occasion ∨
        (∃ result, r.of id = os.map .occasion ++ [.returned result] ∧
          Protocol host.listeners os result) ∨
        ∃ message, r.of id = os.map .occasion ++ [.unwound message] ∧
          ∃ before last, os = before ++ [last] ∧ last.isOpening = true) := by
  by_cases there : ∃ i, ∃ root ∈ r.world.roots i, root.id = id
  · obtain ⟨i, root, mem, rfl⟩ := there
    obtain ⟨os, happened, ahead, -⟩ := (h.going i root mem).protocol
    exact ⟨os, ahead, .inl happened⟩
  · have departed := h.departed id fun i root mem same => there ⟨i, root, mem, same⟩
    generalize r.of id = happened at departed
    cases departed with
    | unknown => exact ⟨[], Course.protocol_of_after host.listeners [], .inl rfl⟩
    | returned going returns =>
      obtain ⟨os, rfl, ahead, ends, -⟩ := going.protocol
      exact ⟨os, ahead, .inr (.inl ⟨_, rfl, ends _ returns⟩)⟩
    | unwound message going running =>
      obtain ⟨os, rfl, ahead, -, opens⟩ := going.protocol
      exact ⟨os, ahead, .inr (.inr ⟨message, rfl, opens running⟩)⟩

theorem run (h : r.Accounted host) (n : Nat) : ((Chronicle.tick host)^[n] r).Accounted host := by
  induction n generalizing r with
  | zero => exact h
  | succ n ih => exact ih h.tick

end Accounted

/-- A world without root tasks, before anything happens. -/
theorem accounted_begin (host : Host S) {w : World S} (rootless : ∀ i, w.roots i = []) :
    (⟨w, []⟩ : Chronicle S).Accounted host := by
  have none {i : Nat} {root : Root S} (mem : root ∈ w.roots i) : False :=
    nomatch rootless i ▸ mem
  refine ⟨fun i => ?_, fun i root mem => (none mem).elim, fun i => ?_,
    fun i j _ root mem => (none mem).elim, fun i root mem => (none mem).elim,
    fun id _ => .unknown, fun id _ => rfl⟩
  · refine (List.pairwise_of_forall_mem_list fun _ _ lower mem id life same => ?_).isChain
    obtain ⟨level, here, rfl⟩ := List.mem_map.1 mem
    cases level with
    | body | task => cases same
    | root id ctx life flow =>
      have there : ⟨id, ctx, life, flow⟩ ∈ w.roots i :=
        List.mem_filterMap.2 ⟨_, here, rfl⟩
      exact (none there).elim
  · rw [rootless i]
    exact .nil

/-- Whatever happens in a world that had no root tasks at first, all are accounted for. -/
theorem accounted (host : Host S) {w : World S} (rootless : ∀ i, w.roots i = []) (n : Nat) :
    ((tick host)^[n] ⟨w, []⟩).Accounted host := (accounted_begin host rootless).run n

end Chronicle

/-- In `n` moves nothing is read off as an event of the root task `id` but what the machine did. -/
def Enacted (host : Host S) (w : World S) (n : Nat) (id : TaskId) : Prop :=
  ∀ before e after, ((Chronicle.tick host)^[n] ⟨w, []⟩).of id = before ++ e :: after →
    ∃ m < n, ∃ thread, let r := (Chronicle.tick host)^[m] ⟨w, []⟩
      r.of id = before ∧ r.world.ready.head? = some thread ∧
        r.world.Enacts host thread id before e

theorem enacted (host : Host S) {w : World S} (rootless : ∀ i, w.roots i = []) (n : Nat)
    (id : TaskId) : Enacted host w n id := by
  induction n with
  | zero => exact fun before e after happened => by simp [Chronicle.of, eventsOf] at happened
  | succ n ih =>
    intro before e after happened
    have accounted := Chronicle.accounted host rootless n
    have earlier {after : List (RootEvent S.Listener)}
        (happened : ((Chronicle.tick host)^[n] ⟨w, []⟩).of id = before ++ e :: after) :=
      (ih before e after happened).imp fun m => And.imp_left Nat.lt_succ_of_lt
    rw [Function.iterate_succ_apply'] at happened
    rcases accounted.of_tick id with same | ⟨e', mem, next⟩
    · exact earlier (same ▸ happened)
    · rw [next] at happened
      rcases List.eq_nil_or_concat after with rfl | ⟨after, last, rfl⟩
      · obtain ⟨rfl, one⟩ := List.append_inj' happened rfl
        obtain rfl := List.singleton_inj.1 one
        obtain ⟨thread, head, enacts⟩ := accounted.enacts mem
        exact ⟨n, n.lt_succ_self, thread, rfl, head, enacts⟩
      · rw [List.concat_eq_append, ← List.cons_append, ← List.append_assoc] at happened
        exact earlier (List.append_inj' happened rfl).1

/-- The hooks of a root task are called as the protocol says. -/
theorem follows_protocol (host : Host S) {w : World S} (rootless : ∀ i, w.roots i = []) :
    (∀ os result, Protocol host.listeners os result ↔ ∃ stimuli,
      ((Course.begin host.listeners).after stimuli).occasions = os ∧
      ((Course.begin host.listeners).after stimuli).result? = some result) ∧
    (∀ answer settle, ∃ k ≤ 10 * host.listeners.length + 5,
      ((Course.next answer settle)^[k] (Course.begin host.listeners)).result?.isSome = true) ∧
    ∀ n id, Enacted host w n id ∧
      ∃ os, (∃ more result, Protocol host.listeners (os ++ more) result) ∧
      let happened := ((Chronicle.tick host)^[n] ⟨w, []⟩).of id
      (happened = os.map .occasion ∨
        (∃ result, happened = os.map .occasion ++ [.returned result] ∧
          Protocol host.listeners os result) ∨
        ∃ message, happened = os.map .occasion ++ [.unwound message]) := by
  refine ⟨Course.protocol_iff _, fun answer settle => ?_,
    fun n id => ⟨enacted host rootless n id, ?_⟩⟩
  · obtain ⟨k, few, ends⟩ := Course.comes_to_end answer settle (Course.poised_begin host.listeners)
    exact ⟨k, few.trans (Nat.le_of_eq (Course.due_begin _)), ends⟩
  · obtain ⟨os, ahead, stands⟩ := (Chronicle.accounted host rootless n).protocol id
    refine ⟨os, ahead, stands.imp_right (Or.imp_right ?_)⟩
    rintro ⟨message, ended, -⟩
    exact ⟨message, ended⟩

/-- A program begins without root tasks. -/
theorem rootless_start (tag : UInt64) (state : S.State) (recording : Bool) (body : S.Code Outcome)
    (i : Nat) : ((World.start tag state recording).addMain body).roots i = [] :=
  List.forall₂_nil_left_iff.1 ((World.calm_addThread (World.start tag state recording) rfl).roots i)

/-- Generators that return at once, and one listener whose hooks look at the clock. -/
def idleHost : Host .ofStubs where
  registry := default
  listeners := [()]
  resume g _ := .done (.complete (.ok .null), g)
  release _ := .done ()
  filter _ _ _ := .done false
  handle _ _ _ := .done (.error .cancelled)
  invoke _ _ := .done (.error .cancelled)
  hook _ _ _ := .ask .now fun _ => .done (.ok ())
  start _ := .done (.ok .null)
  crash _ := ()

/-- A program that runs one root task. -/
def oneRun : World .ofStubs :=
  (World.start 0 () false).addMain (.perform (.run () (.generator ⟨"main"⟩)) .done)

theorem idle_follows_protocol :
    let os : List (Occasion Unit) :=
      [.called () .setUp, .answered (.ok ()), .started, .settled (.ok .null),
        .called () (.preComplete .null), .answered (.ok ()),
        .called () (.complete .null), .answered (.ok ()),
        .called () (.finalize none), .answered (.ok ())]
    (∀ i, oneRun.roots i = []) ∧ Protocol idleHost.listeners os (.ok .null) ∧
      Enacted idleHost oneRun 30 ⟨0, 0⟩ ∧
      ((Chronicle.tick idleHost)^[30] ⟨oneRun, []⟩).of ⟨0, 0⟩ =
        os.map .occasion ++ [.returned (.ok .null)] := by
  intro os
  have rootless : ∀ i, oneRun.roots i = [] := rootless_start 0 () false _
  obtain ⟨courses, -, runs⟩ := follows_protocol idleHost rootless
  refine ⟨rootless, (courses os (.ok .null)).2 ?_, (runs 30 ⟨0, 0⟩).1, rfl⟩
  exact ⟨[.move, .answered (.ok ()), .move, .settled (.ok .null), .move, .answered (.ok ()), .move,
    .move, .answered (.ok ()), .move, .move, .answered (.ok ())], rfl, rfl⟩

end Root

end EffectEngine
