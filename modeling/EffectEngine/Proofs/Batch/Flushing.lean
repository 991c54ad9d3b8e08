import EffectEngine.Proofs.Batch.Timers
import Mathlib.Data.List.Pairwise

/-!
# Which timer flushes a batch

`Rota.Ordered` says what the timers of a rota have to do with the pending batches and with those that
were taken: a pending batch has not seen any of its timers fire, the timer that it holds was never
asked to cancel, and a timer that took a batch is asked to cancel only by its own call, which arms it
too late.
-/

namespace EffectEngine

namespace Batch

namespace Rota

variable {T : ClientSig}

/-- A rota is in order. -/
structure Ordered (ctx : ContextId) (r : Rota T) : Prop where
  sound : Session.Sound ctx r.session
  forks : ∀ m ∈ r.session.members, Session.Forks m
  called : ∀ a ∈ r.timers, a.call ∈ r.session.joined ∧ Session.Flushes a.call a.root
  distinct : (r.timers.map (·.task.index)).Nodup
  asked : ∀ task ∈ r.requests, ∃ a ∈ r.timers, a.task = task
  cancelled : ∀ a ∈ r.timers, ∃ canceled, r.world.canceled? a.task = some canceled ∧
    (canceled = true → a.task ∈ r.requests)
  fired : (r.timers.filterMap (·.took)).Perm r.session.fired
  /-- While a batch is pending none of its timers has fired. -/
  unfired : ∀ a ∈ r.timers, ∀ e ∈ (tableOf ctx r.world).pending,
    e.2.generation = a.call.seat.generation → a.took = none
  /-- The timer of a pending batch was armed by a call of it and never asked to cancel. -/
  installed : ∀ e ∈ (tableOf ctx r.world).pending, ∀ task, e.2.timer = some task →
    ∃ a ∈ r.timers, a.task = task ∧ a.isArmed = true ∧
      a.call.seat.generation = e.2.generation ∧ task ∉ r.requests
  guarded : ∀ a ∈ r.timers, a.isArmed = true → ∀ e ∈ (tableOf ctx r.world).pending,
    e.2.generation = a.call.seat.generation → e.2.timer.isSome = true
  unarmed : ∀ a ∈ r.timers, a.isArmed = false →
    a.isEarly = false ∧ a.task ∉ r.requests
  early : ∀ a ∈ r.timers, a.isEarly = true → a.took.isSome = true
  requested : ∀ a ∈ r.timers, ∀ b, a.took = some (some b) →
    (a.task ∈ r.requests ↔ a.isEarly = true)
  waiting : ∀ m ∈ r.session.members, ∀ j, m.role = .call j → m.activity.isBusy = true →
    ∃ a ∈ r.timers, a.call = j ∧ a.isArmed = true
  unforced : ∀ m ∈ r.session.members, ∀ b, m.role = .timer (some b) → .forcedReturn ∈ m.inputs →
    r.Interrupted b

variable {c : Client T} {ctx : ContextId} {r r' : Rota T} {s : Session T} {w : World T.sig}
  {a x : Timer T} {older newer : List (Timer T)} {j : Joined T.Target T.Grouping}

namespace Ordered

/-- A pending batch with the generation of a call has the key of that call. -/
theorem agrees (h : Ordered ctx r) (hj : j ∈ r.session.joined) {e : BatchKey × PendingBatch T.Fn}
    (he : e ∈ (tableOf ctx r.world).pending) (same : e.2.generation = j.seat.generation) :
    (e.1 == j.batchKey) = true :=
  ((h.sound.book.pending e he).calls j (mem_callsOf.2 ⟨hj, same.symm⟩)).1

/-- A call that joined has a generation up to that of the table. -/
theorem generation_le (h : Ordered ctx r) (hj : j ∈ r.session.joined) :
    j.seat.generation ≤ (tableOf ctx r.world).generation :=
  h.sound.book.numbered _ (h.sound.book.seated j hj)

theorem others (h : Ordered ctx r) (timers : r.timers = older ++ a :: newer)
    (hx : x ∈ older ++ newer) : x ∈ r.timers ∧ x.task.index ≠ a.task.index := by
  have distinct := h.distinct
  rw [timers] at distinct ⊢
  exact ⟨mem_of_rest hx, fun same => ne_of_rest distinct hx same⟩

theorem eq_of_index (h : Ordered ctx r) (ha : a ∈ r.timers) (hx : x ∈ r.timers)
    (same : x.task.index = a.task.index) : x = a :=
  List.inj_on_of_nodup_map h.distinct hx ha same

theorem opens (h : Session.Opens ctx s) : Ordered ctx ⟨s, [], []⟩ := by
  have none : (tableOf ctx s.world).pending = [] := by rw [tableOf, h.table]; rfl
  have nobody {P : Timer T → Prop} : ∀ a ∈ ([] : List (Timer T)), P a := List.forall_mem_nil P
  exact
    { sound := .opens h
      forks := by simp [h.members]
      called := nobody
      distinct := .nil
      asked := List.forall_mem_nil _
      cancelled := nobody
      fired := by simp [Session.fired, h.members]
      unfired := nobody
      installed := by simp [world, none]
      guarded := nobody
      unarmed := nobody
      early := nobody
      requested := nobody
      waiting := by simp [h.members]
      unforced := by simp [h.members] }

theorem aside (h : Ordered ctx r) (step : Session.Step c ctx r.session s) (aside : r.Aside s) :
    Ordered ctx { r with session := s } := by
  have untouched := h.sound.untouched step aside.unfired aside.unarmed
  have generation {a : Timer T} (ha : a ∈ r.timers) {e : BatchKey × PendingBatch T.Fn}
      (he : e ∈ (tableOf ctx s.world).pending) (same : e.2.generation = a.call.seat.generation) :
      ∃ b, (e.1, b) ∈ (tableOf ctx r.world).pending ∧ b.generation = e.2.generation ∧
        b.timer = e.2.timer := by
    rcases untouched.table.pending e he with ⟨-, new⟩ | old
    · have bound : a.call.seat.generation ≤ (tableOf ctx r.session.world).generation :=
        h.generation_le (h.called a ha).1
      omega
    · exact old
  exact
    { sound := h.sound.step step
      forks := untouched.forks h.forks
      called := fun a ha => ⟨untouched.joined (h.called a ha).1, (h.called a ha).2⟩
      distinct := h.distinct
      asked := h.asked
      cancelled := fun a ha => by
        rw [world, aside.kept a ha]
        exact h.cancelled a ha
      fired := by
        simp only [aside.unfired]
        exact h.fired
      unfired := fun a ha e he same => by
        obtain ⟨b, hb, same', -⟩ := generation ha he same
        exact h.unfired a ha (e.1, b) hb (same'.trans same)
      installed := fun e he task timer => by
        rcases untouched.table.pending e he with ⟨none, -⟩ | ⟨b, hb, same, timer'⟩
        · rw [none] at timer
          cases timer
        · rw [← same]
          exact h.installed (e.1, b) hb task (timer'.trans timer)
      guarded := fun a ha armed e he same => by
        obtain ⟨b, hb, same', timer⟩ := generation ha he same
        rw [← timer]
        exact h.guarded a ha armed (e.1, b) hb (same'.trans same)
      unarmed := h.unarmed
      early := h.early
      requested := h.requested
      waiting := fun m hm j role busy => by
        obtain ⟨i, bound, rfl⟩ := List.mem_iff_getElem.1 hm
        obtain ⟨m', old, busy'⟩ := aside.unarmed i _ (List.getElem?_eq_getElem bound) busy
        have kept := untouched.role_eq old (List.getElem?_eq_getElem bound)
        exact h.waiting m' (List.mem_of_getElem? old) j (kept.symm.trans role) busy'
      unforced := fun m hm b role forced => by
        obtain ⟨a, ha, took, canceled⟩ := aside.unforced m hm b role forced
        exact ⟨a, ha, took, (aside.kept a ha).trans canceled⟩ }

theorem fork (h : Ordered ctx r) {m : Member T} {root : T.sig.Operation}
    (member : m ∈ r.session.members) (role : m.role = .call j)
    (yielded : m.yields.getLast? = some (.operation (.fork root))) :
    Ordered ctx ⟨⟨(r.world.spawn ctx (.operation root)).2, r.session.members⟩,
      r.timers ++ [⟨j, (r.world.spawn ctx (.operation root)).1, root, false, none, false⟩],
      r.requests⟩ := by
  let new : Timer T := ⟨j, (r.world.spawn ctx (.operation root)).1, root, false, none, false⟩
  have spares : r.session.Spares ctx (r.world.spawn ctx (.operation root)).2 :=
    ⟨Nat.le_refl _, rfl, Nat.le_refl _, fun _ _ => rfl⟩
  have sound := h.sound.elsewhere spares
  have old {a : Timer T} (ha : a ∈ r.timers) : a.task.index ≠ new.task.index := by
    obtain ⟨canceled, known, -⟩ := h.cancelled a ha
    exact (World.canceled?_spawn ctx (.operation root) known).2
  have unasked : new.task ∉ r.requests := by
    intro asked
    obtain ⟨a, ha, same⟩ := h.asked _ asked
    exact old ha (congrArg _ same)
  have timers {P : Timer T → Prop} (all : ∀ a ∈ r.timers, P a) (last : P new) :
      ∀ a ∈ r.timers ++ [new], P a := by
    intro a ha
    rcases List.mem_append.1 ha with ha | ha
    · exact all a ha
    · rw [List.mem_singleton.1 ha]
      exact last
  exact
    { sound
      forks := h.forks
      called := by
        refine timers h.called ⟨Session.Sound.mem_joined member role, ?_⟩
        exact h.forks m member j role root (List.mem_of_getLast? yielded)
      distinct := by
        rw [List.map_append]
        refine List.nodup_append'.2 ⟨h.distinct, List.nodup_singleton _, ?_⟩
        intro i hi same
        obtain ⟨a, ha, rfl⟩ := List.mem_map.1 hi
        exact old ha (List.mem_singleton.1 same)
      asked := fun task ht => by
        obtain ⟨a, ha, same⟩ := h.asked task ht
        exact ⟨a, List.mem_append_left _ ha, same⟩
      cancelled := by
        refine timers (fun a ha => ?_) ⟨false, World.canceled?_spawned .., nofun⟩
        obtain ⟨canceled, known, asked⟩ := h.cancelled a ha
        exact ⟨canceled, (World.canceled?_spawn ctx (.operation root) known).1, asked⟩
      fired := by
        simp only [List.filterMap_append, List.filterMap_cons, List.filterMap_nil, List.append_nil]
        exact h.fired
      unfired := timers h.unfired fun e he same => rfl
      installed := fun e he task timer => by
        obtain ⟨a, ha, installed⟩ := h.installed e he task timer
        exact ⟨a, List.mem_append_left _ ha, installed⟩
      guarded := timers h.guarded nofun
      unarmed := timers h.unarmed fun _ => ⟨rfl, unasked⟩
      early := timers h.early nofun
      requested := timers h.requested nofun
      waiting := fun m hm j role busy => by
        obtain ⟨a, ha, armed⟩ := h.waiting m hm j role busy
        exact ⟨a, List.mem_append_left _ ha, armed⟩
      unforced := fun m hm b role forced => by
        obtain ⟨a, ha, took, canceled⟩ := h.unforced m hm b role forced
        refine ⟨a, List.mem_append_left _ ha, took, ?_⟩
        exact (World.canceled?_spawn ctx (.operation root) canceled).1 }

theorem forall_update (h : Ordered ctx r) (timers : r.timers = older ++ a :: newer)
    {a' : Timer T} {P : Timer T → Prop} (this : P a') (rest : ∀ x ∈ r.timers, x ≠ a → P x) :
    ∀ x ∈ older ++ a' :: newer, P x := by
  intro x hx
  rcases mem_place.1 hx with rfl | hx
  · exact this
  · obtain ⟨hx, other⟩ := h.others timers hx
    exact rest x hx fun same => other (by rw [same])

theorem mem_kept (timers : r.timers = older ++ a :: newer) {a' : Timer T} (hx : x ∈ r.timers)
    (other : x ≠ a) : x ∈ older ++ a' :: newer :=
  mem_of_rest ((mem_place.1 (timers ▸ hx)).resolve_left other)

/-- What arming the timer of a call does to the table, and which timer it asks to cancel. -/
structure Arms (ctx : ContextId) (r : Rota T) (a : Timer T)
    (armed : Option TaskId × BatchTable T.Fn) : Prop where
  pending : ∀ e ∈ armed.2.pending,
    (e.2.generation = a.call.seat.generation ∧ e.2.timer = some a.task ∧
      ∃ b, (e.1, b) ∈ (tableOf ctx r.world).pending ∧ b.generation = e.2.generation) ∨
    (e.2.generation ≠ a.call.seat.generation ∧ e ∈ (tableOf ctx r.world).pending)
  /-- It asks the timer of the batch, which has not fired, or else the timer that comes too late. -/
  asks : ∀ task ∈ armed.1.toList, ∃ x ∈ r.timers, x.task = task ∧
    (x.isArmed = true ∧ x.took = none ∧ x.call.seat.generation = a.call.seat.generation ∨
      x = a ∧ ∀ e ∈ (tableOf ctx r.world).pending, e.2.generation ≠ a.call.seat.generation)
  late : (∀ e ∈ (tableOf ctx r.world).pending, e.2.generation ≠ a.call.seat.generation) →
    armed.1 = some a.task

theorem arms (h : Ordered ctx r) (ha : a ∈ r.timers) :
    Arms ctx r a
      ((tableOf ctx r.world).arm a.call.batchKey a.call.seat.generation a.task) := by
  have joined := (h.called a ha).1
  rcases BatchTable.arm_split h.sound.book.apart a.call.batchKey a.call.seat.generation a.task with
    ⟨rejects, other⟩ | ⟨before, k, b, after, split, -, current, installs⟩
  · have none : ∀ e ∈ (tableOf ctx r.world).pending,
        e.2.generation ≠ a.call.seat.generation :=
      fun e he same => other e he (h.agrees joined he same) same
    rw [show (tableOf ctx r.world).arm _ _ _ = _ from rejects]
    refine ⟨fun e he => .inr ⟨none e he, he⟩, fun task asked => ?_, fun _ => rfl⟩
    exact ⟨a, ha, (List.mem_singleton.1 asked).symm, .inr ⟨rfl, none⟩⟩
  · have split : (tableOf ctx r.world).pending = before ++ (k, b) :: after := split
    have pending : (k, b) ∈ (tableOf ctx r.world).pending := by simp [split]
    rw [show (tableOf ctx r.world).arm _ _ _ = _ from installs]
    refine ⟨fun e he => ?_, fun task asked => ?_, fun none => absurd current (none _ pending)⟩
    · rcases mem_place.1 he with rfl | he
      · exact .inl ⟨current, rfl, b, pending, rfl⟩
      · exact .inr ⟨current ▸ (h.sound.book.other split).1 e he, split ▸ mem_of_rest he⟩
    · obtain ⟨x, hx, same, armed, generation, -⟩ :=
        h.installed (k, b) pending task (Option.mem_toList.1 asked)
      exact ⟨x, hx, same, .inl ⟨armed, h.unfired x hx _ pending generation.symm,
        generation.trans current⟩⟩

theorem Arms.old {armed : Option TaskId × BatchTable T.Fn} (arms : Arms ctx r a armed)
    {e : BatchKey × PendingBatch T.Fn} (he : e ∈ armed.2.pending) :
    ∃ b, (e.1, b) ∈ (tableOf ctx r.world).pending ∧ b.generation = e.2.generation := by
  rcases arms.pending e he with ⟨-, -, old⟩ | ⟨-, old⟩
  · exact old
  · exact ⟨e.2, old, rfl⟩

/-- Arming asks no other timer to cancel than one that is armed and has not fired. -/
theorem asks_other (h : Ordered ctx r) {armed : Option TaskId × BatchTable T.Fn}
    (arms : Arms ctx r a armed) (hx : x ∈ r.timers) (other : x ≠ a)
    (asks : x.task ∈ armed.1.toList) :
    x.isArmed = true ∧ x.took = none ∧ x.call.seat.generation = a.call.seat.generation := by
  obtain ⟨x', hx', same, cause⟩ := arms.asks _ asks
  obtain rfl := h.eq_of_index hx hx' (congrArg _ same)
  exact cause.resolve_right fun late => other late.1

/-- Only timers that have been asked to cancel are cancelled once a timer has been armed. -/
theorem cancelled_of_arms (h : Ordered ctx r) {armed : Option TaskId × BatchTable T.Fn}
    (arms : Arms ctx r a armed) (asked : r.world.Asked w armed.1.toList) (hx : x ∈ r.timers) :
    ∃ canceled, w.canceled? x.task = some canceled ∧
      (canceled = true → x.task ∈ r.requests ++ armed.1.toList) := by
  obtain ⟨canceled, before, old⟩ := h.cancelled x hx
  obtain ⟨canceled', after, new, -⟩ := asked x.task canceled before
  refine ⟨canceled', after, fun gone => List.mem_append.2 ?_⟩
  refine (new gone).imp old fun asks => ?_
  obtain ⟨task, asked, same⟩ := List.mem_map.1 asks
  obtain ⟨z, hz, rfl, -⟩ := arms.asks task asked
  obtain rfl := h.eq_of_index hx hz same
  exact asked

/-- A call that arms its timer keeps the rota in order. -/
theorem arms_keeps (h : Ordered ctx r) (timers : r.timers = older ++ a :: newer)
    (unarmed : a.isArmed = false) {armed : Option TaskId × BatchTable T.Fn}
    (arms : Arms ctx r a armed) {before after : List (Member T)} {m m' : Member T}
    (members : r.session.members = before ++ m :: after) (role : m.role = .call a.call)
    (role' : m'.role = m.role) (yields : m'.yields = m.yields)
    (sound : Session.Sound ctx ⟨w, before ++ m' :: after⟩) (table : tableOf ctx w = armed.2)
    (asked : r.world.Asked w armed.1.toList) :
    Ordered ctx ⟨⟨w, before ++ m' :: after⟩,
      older ++ { a with isArmed := true, isEarly := a.took.isSome } :: newer,
      r.requests ++ armed.1.toList⟩ := by
  let a' : Timer T := { a with isArmed := true, isEarly := a.took.isSome }
  let r' : Rota T := ⟨⟨w, before ++ m' :: after⟩, older ++ a' :: newer,
    r.requests ++ armed.1.toList⟩
  show Ordered ctx r'
  have ha : a ∈ r.timers := by simp [timers]
  have ha' : a' ∈ r'.timers := List.mem_append_right _ List.mem_cons_self
  have ne_of_armed {x : Timer T} (isArmed : x.isArmed = true) : x ≠ a := by
    rintro rfl
    rw [unarmed] at isArmed
    cases isArmed
  have all {P : Timer T → Prop} (this : P a') (rest : ∀ x ∈ r.timers, x ≠ a → P x) :
      ∀ x ∈ r'.timers, P x := h.forall_update timers this rest
  have kept {x : Timer T} (hx : x ∈ r.timers) (other : x ≠ a) : x ∈ r'.timers :=
    mem_kept timers hx other
  have listed {x : Timer T} (hx : x ∈ r.timers) :
      ∃ x' ∈ r'.timers, x'.task = x.task ∧ x'.took = x.took := by
    by_cases other : x = a
    · subst other
      exact ⟨a', ha', rfl, rfl⟩
    · exact ⟨x, kept hx other, rfl, rfl⟩
  have pending {e : BatchKey × PendingBatch T.Fn} (he : e ∈ (tableOf ctx r'.world).pending) :
      e ∈ armed.2.pending := table ▸ he
  have forks : Session.Forks m → Session.Forks m' := by
    rw [Session.Forks, Session.Forks, role', yields]
    exact id
  exact
    { sound
      forks := Session.forks_update members h.forks forks
      called := by
        rw [show r'.session.joined = _ from Session.joined_update members role']
        exact all (h.called a ha) fun x hx _ => h.called x hx
      distinct := by
        have distinct := h.distinct
        simpa only [r', a', timers, List.map_append, List.map_cons] using distinct
      asked := fun task asks => by
        have old : ∃ x ∈ r.timers, x.task = task := by
          rcases List.mem_append.1 asks with asks | asks
          · exact h.asked task asks
          · obtain ⟨x, hx, same, -⟩ := arms.asks task asks
            exact ⟨x, hx, same⟩
        obtain ⟨x, hx, same⟩ := old
        obtain ⟨x', hx', same', -⟩ := listed hx
        exact ⟨x', hx', same'.trans same⟩
      cancelled := by
        have known := h.cancelled_of_arms arms asked ha
        exact all known fun x hx _ => h.cancelled_of_arms arms asked hx
      fired := by
        have fired := h.fired
        rw [timers] at fired
        rw [show r'.session.fired = _ from Session.fired_update members role']
        simpa only [r', List.filterMap_append, List.filterMap_cons] using fired
      unfired := by
        have unfired : ∀ x ∈ r.timers, ∀ e ∈ (tableOf ctx r'.world).pending,
            e.2.generation = x.call.seat.generation → x.took = none := by
          intro x hx e he same
          obtain ⟨b, hb, generation⟩ := arms.old (pending he)
          exact h.unfired x hx _ hb (generation.trans same)
        exact all (unfired a ha) fun x hx _ => unfired x hx
      installed := fun e he task timer => by
        rcases arms.pending e (pending he) with ⟨same, timer', b, hb, generation⟩ | ⟨other, he⟩
        · obtain rfl := Option.some.inj (timer'.symm.trans timer)
          refine ⟨a', ha', rfl, rfl, same.symm, fun asks => ?_⟩
          rcases List.mem_append.1 asks with asks | asks
          · exact (h.unarmed a ha unarmed).2 asks
          · obtain ⟨x, hx, same', cause⟩ := arms.asks _ asks
            obtain rfl := h.eq_of_index ha hx (congrArg _ same')
            rcases cause with ⟨isArmed, -⟩ | ⟨-, none⟩
            · exact ne_of_armed isArmed rfl
            · exact none _ hb (generation.trans same)
        · obtain ⟨x, hx, rfl, isArmed, generation, unasked⟩ := h.installed e he task timer
          have ne := ne_of_armed isArmed
          refine ⟨x, kept hx ne, rfl, isArmed, generation, fun asks => ?_⟩
          rcases List.mem_append.1 asks with asks | asks
          · exact unasked asks
          · exact other (generation.symm.trans (h.asks_other arms hx ne asks).2.2)
      guarded := by
        refine all (fun _ e he same => ?_) fun x hx _ isArmed e he same => ?_
        · rcases arms.pending e (pending he) with ⟨-, timer, -⟩ | ⟨other, -⟩
          · simp [timer]
          · exact absurd same other
        · rcases arms.pending e (pending he) with ⟨-, timer, -⟩ | ⟨-, he⟩
          · simp [timer]
          · exact h.guarded x hx isArmed e he same
      unarmed := by
        refine all (by rintro ⟨⟩) fun x hx other idle => ⟨(h.unarmed x hx idle).1, fun asks => ?_⟩
        rcases List.mem_append.1 asks with asks | asks
        · exact (h.unarmed x hx idle).2 asks
        · have isArmed := (h.asks_other arms hx other asks).1
          rw [idle] at isArmed
          cases isArmed
      early := all id fun x hx _ => h.early x hx
      requested := by
        refine all (fun b took => ?_) fun x hx other b took => ?_
        · have took : a.took = some (some b) := took
          -- A timer that has fired finds no pending batch of its call.
          have late := arms.late fun e he same => by
            have none := h.unfired a ha e he same
            rw [took] at none
            cases none
          refine iff_of_true (List.mem_append_right _ ?_) (by simp [a', took])
          simp [late, a']
        · rw [← h.requested x hx b took]
          refine ⟨fun asks => ?_, List.mem_append_left _⟩
          refine (List.mem_append.1 asks).resolve_right fun asks => ?_
          have none := (h.asks_other arms hx other asks).2.1
          rw [took] at none
          cases none
      waiting := fun n hn j role₁ busy => by
        rcases mem_place.1 hn with rfl | hn
        · exact ⟨a', ha', Role.call.inj (role.symm.trans (role'.symm.trans role₁)), rfl⟩
        · obtain ⟨x, hx, call, isArmed⟩ := h.waiting n (members ▸ mem_of_rest hn) j role₁ busy
          exact ⟨x, kept hx (ne_of_armed isArmed), call, isArmed⟩
      unforced := fun n hn b role₁ forced => by
        rcases mem_place.1 hn with rfl | hn
        · rw [role', role] at role₁
          cases role₁
        · obtain ⟨x, hx, took, gone⟩ := h.unforced n (members ▸ mem_of_rest hn) b role₁ forced
          obtain ⟨_, after, -, stays⟩ := asked x.task true gone
          obtain ⟨x', hx', task, took'⟩ := listed hx
          refine ⟨x', hx', took'.trans took, ?_⟩
          rw [task, show r'.world.canceled? x.task = _ from after, stays rfl] }

theorem arm (h : Ordered ctx r) (timers : r.timers = older ++ a :: newer)
    (unarmed : a.isArmed = false) {before after : List (Member T)} {m : Member T}
    {ticket : BatchTicket} {code : T.sig.Code (T.sig.Signal × T.sig.Gen)}
    (members : r.session.members = before ++ m :: after) (role : m.role = .call a.call)
    (resting : m.activity = .resting (callGen (.suspended (.batch ticket))))
    (ran : r.world.runAsks (c.resumeGen (callGen (.suspended (.batch ticket)))
      (.next (.task a.task))) = (code, w)) :
    Ordered ctx
      ⟨⟨w, before ++
        { m with inputs := m.inputs ++ [Resume.next (.task a.task)] }.settle code :: after⟩,
      older ++ { a with isArmed := true, isEarly := a.took.isSome } :: newer,
      r.requests ++ r.world.cancelRequests
        (c.resumeGen (callGen (.suspended (.batch ticket))) (.next (.task a.task)))⟩ := by
  have sound := h.sound.step (.resume before after m _ _ _ _ members resting ran)
  have stage := h.sound.callAt (by simp [members]) role
  rw [resting] at stage
  obtain ⟨timeout, rfl⟩ : ∃ timeout, ticket = ⟨ctx, a.call.batchKey, a.call.seat, timeout⟩ := by
    cases stage
    exact ⟨_, rfl⟩
  obtain ⟨k, w', waits, -, leaves, requests, asked⟩ :=
    runAsks_callGen_task (c := c) ⟨ctx, a.call.batchKey, a.call.seat, timeout⟩ h.sound.context a.task
  obtain ⟨rfl, rfl⟩ := Prod.mk.inj (ran.symm.trans waits)
  rw [show r.world.cancelRequests _ = _ from requests]
  have arms := h.arms (a := a) (by simp [timers])
  exact h.arms_keeps timers unarmed arms members role rfl rfl sound leaves.table asked

theorem fire (h : Ordered ctx r) (timers : r.timers = older ++ a :: newer)
    (unfired : a.took = none) (unasked : a.task ∉ r.requests) {ms : Nat} {op : T.sig.Operation}
    {batch : Option (PendingBatch T.Fn)} (delays : a.root = Delay.delay ms op)
    (handled : r.world.runSync (c.handleMw .executeBatch op ctx) =
      (.ok (.ok (.ofOpening (.executeBatch batch))), w)) :
    Ordered ctx ⟨r.session.enlist w (.timer batch) (.executeBatch batch),
      older ++ { a with took := some batch } :: newer, r.requests⟩ := by
  let a' : Timer T := { a with took := some batch }
  let r' : Rota T := ⟨r.session.enlist w (.timer batch) (.executeBatch batch),
    older ++ a' :: newer, r.requests⟩
  show Ordered ctx r'
  have sound := h.sound.step (.fire op batch w handled)
  have ha : a ∈ r.timers := by simp [timers]
  have ha' : a' ∈ r'.timers := List.mem_append_right _ List.mem_cons_self
  have joined := h.called a ha
  obtain ⟨ms', id, root⟩ := joined.2
  obtain rfl : op = .custom executeKind (.sealed id (.batch a.call.batchKey)) := by
    have same := delays.symm.trans root
    simp only [Delay.delay, Gen.ofOpening, Operation.execute.injEq, Gen.library.injEq,
      Coroutine.created.injEq, Opening.delay.injEq] at same
    exact same.2.2
  obtain ⟨w', flushed, leaves, tasks⟩ :=
    runSync_flush (c := c) h.sound.context executeKind id a.call.batchKey
  obtain ⟨took, rfl⟩ := Prod.mk.inj (flushed.symm.trans handled)
  have canceled (id : TaskId) : r'.world.canceled? id = r.world.canceled? id := by
    rw [World.canceled?, World.canceled?, World.task?, World.task?]
    exact congrArg (fun ts => ((ts[id.index]?).map (·.1)).map (·.canceled)) tasks
  have all {P : Timer T → Prop} (this : P a') (rest : ∀ x ∈ r.timers, x ≠ a → P x) :
      ∀ x ∈ r'.timers, P x := h.forall_update timers this rest
  have kept {x : Timer T} (hx : x ∈ r.timers) (other : x ≠ a) : x ∈ r'.timers :=
    mem_kept timers hx other
  have listed {x : Timer T} (hx : x ∈ r.timers) :
      ∃ x' ∈ r'.timers, x'.task = x.task ∧ x'.call = x.call ∧ x'.isArmed = x.isArmed := by
    by_cases other : x = a
    · subst other
      exact ⟨a', ha', rfl, rfl, rfl⟩
    · exact ⟨x, kept hx other, rfl, rfl, rfl⟩
  -- No batch of the key stays pending.
  have left {e : BatchKey × PendingBatch T.Fn} (he : e ∈ (tableOf ctx r'.world).pending) :
      e ∈ (tableOf ctx r.world).pending ∧ e.2.generation ≠ a.call.seat.generation := by
    have he : e ∈ ((tableOf ctx r.world).take a.call.batchKey).2.pending := leaves.table ▸ he
    obtain ⟨old, apart⟩ := BatchTable.mem_take.1 he
    refine ⟨old, fun same => ?_⟩
    rw [h.agrees joined.1 old same] at apart
    cases apart
  exact
    { sound
      forks := Session.forks_enlist h.forks
      called := by
        have called {x : Timer T} (hx : x ∈ r.timers) :
            x.call ∈ r'.session.joined ∧ Session.Flushes x.call x.root := by
          rw [show r'.session.joined = _ from Session.joined_enlist ..]
          exact ⟨List.mem_append_left _ (h.called x hx).1, (h.called x hx).2⟩
        have this := called ha
        exact all this fun x hx _ => called hx
      distinct := by
        have distinct := h.distinct
        simpa only [r', a', timers, List.map_append, List.map_cons] using distinct
      asked := fun task asks => by
        obtain ⟨x, hx, same⟩ := h.asked task asks
        obtain ⟨x', hx', same', -⟩ := listed hx
        exact ⟨x', hx', same'.trans same⟩
      cancelled := by
        have known {x : Timer T} (hx : x ∈ r.timers) :
            ∃ canceled, r'.world.canceled? x.task = some canceled ∧
              (canceled = true → x.task ∈ r'.requests) := by
          rw [canceled]
          exact h.cancelled x hx
        have this := known ha
        exact all this fun x hx _ => known hx
      fired := by
        have fired := h.fired
        simp only [timers, List.filterMap_append, List.filterMap_cons, unfired] at fired
        rw [show r'.session.fired = _ from Session.fired_enlist ..]
        simp only [r', a', List.filterMap_append, List.filterMap_cons]
        exact List.perm_middle.trans ((fired.cons batch).trans (List.perm_append_singleton ..).symm)
      unfired := by
        refine all (fun e he same => absurd same (left he).2) fun x hx _ e he same => ?_
        exact h.unfired x hx e (left he).1 same
      installed := fun e he task timer => by
        obtain ⟨x, hx, same, isArmed, generation, unasked⟩ := h.installed e (left he).1 task timer
        obtain ⟨x', hx', same', call, isArmed'⟩ := listed hx
        exact ⟨x', hx', same'.trans same, isArmed'.trans isArmed, call ▸ generation, unasked⟩
      guarded := by
        refine all (fun _ e he same => absurd same (left he).2) fun x hx _ isArmed e he same => ?_
        exact h.guarded x hx isArmed e (left he).1 same
      unarmed := by
        have idle := h.unarmed a ha
        exact all idle fun x hx _ => h.unarmed x hx
      early := all (fun _ => rfl) fun x hx _ => h.early x hx
      requested := by
        refine all (fun b _ => iff_of_false unasked fun early => ?_) fun x hx _ => h.requested x hx
        have took := h.early a ha early
        rw [unfired] at took
        cases took
      waiting := fun m hm j role busy => by
        have old : m ∈ r.session.members := by
          refine (List.mem_append.1 hm).resolve_right fun new => ?_
          rw [List.mem_singleton.1 new] at role
          cases role
        obtain ⟨x, hx, call, isArmed⟩ := h.waiting m old j role busy
        obtain ⟨x', hx', -, call', isArmed'⟩ := listed hx
        exact ⟨x', hx', call'.trans call, isArmed'.trans isArmed⟩
      unforced := fun m hm b role forced => by
        have old : m ∈ r.session.members := by
          refine (List.mem_append.1 hm).resolve_right fun new => ?_
          rw [List.mem_singleton.1 new] at forced
          cases forced
        obtain ⟨x, hx, took, gone⟩ := h.unforced m old b role forced
        refine ⟨x, kept hx fun same => ?_, took, (canceled _).trans gone⟩
        rw [same, unfired] at took
        cases took }

theorem step (h : Ordered ctx r) (step : Step c ctx r r') : Ordered ctx r' := by
  cases step with
  | aside s step aside => exact h.aside step aside
  | fork m j root member role yielded _ => exact h.fork member role yielded
  | arm older newer a before after m ticket code w timers unarmed members role resting ran =>
    exact h.arm timers unarmed members role resting ran
  | fire older newer a ms op batch w timers unfired unasked delays handled =>
    exact h.fire timers unfired unasked delays handled

theorem run (h : Ordered ctx r) (run : Relation.ReflTransGen (Step c ctx) r r') :
    Ordered ctx r' := by
  induction run with
  | refl => exact h
  | tail _ step ih => exact ih.step step

/-- A call joins a batch. -/
theorem joins (h : Ordered ctx r) {opening : Opening T.sig.Gen T.Fn}
    (step : Session.Step c ctx r.session (r.session.enlist w (.call j) opening))
    (kept : ∀ a ∈ r.timers, w.canceled? a.task = r.world.canceled? a.task) :
    Step c ctx r { r with session := r.session.enlist w (.call j) opening } := by
  refine .aside _ step ⟨?_, fun i m' found busy => ?_, kept, fun m hm b role forced => ?_⟩
  · simp [Session.fired, Session.enlist, Role.timer?]
  · refine ⟨m', ?_, busy⟩
    by_cases bound : i < r.session.members.length
    · rwa [Session.enlist, List.getElem?_append_left bound] at found
    · rw [Session.enlist, List.getElem?_append_right (Nat.le_of_not_lt bound)] at found
      rw [List.mem_singleton.1 (List.mem_of_getElem? found)] at busy
      cases busy
  · refine h.unforced m ((List.mem_append.1 hm).resolve_right fun new => ?_) b role forced
    rw [List.mem_singleton.1 new] at role
    cases role

/-- A generator is resumed and does not arm a timer. -/
theorem resumes (h : Ordered ctx r) (before after : List (Member T)) {m : Member T} {g : T.sig.Gen}
    (input : Resume) {code : T.sig.Code (T.sig.Signal × T.sig.Gen)}
    (members : r.session.members = before ++ m :: after) (resting : m.activity = .resting g)
    (ran : r.world.runAsks (c.resumeGen g input) = (code, w))
    (idle : ({ m with inputs := m.inputs ++ [input] }.settle code).activity.isBusy = false)
    (kept : ∀ a ∈ r.timers, w.canceled? a.task = r.world.canceled? a.task)
    (forced : input = .forcedReturn → ∀ b, m.role = .timer (some b) → r.Interrupted b) :
    Step c ctx r { r with
      session :=
        ⟨w, before ++ { m with inputs := m.inputs ++ [input] }.settle code :: after⟩ } := by
  let m' : Member T := { m with inputs := m.inputs ++ [input] }.settle code
  have role' : m'.role = m.role := Member.role_settle _ _
  have inputs' : m'.inputs = m.inputs ++ [input] := Member.inputs_settle _ _
  refine .aside _ (.resume before after m g input code w members resting ran)
    ⟨Session.fired_update members role', fun i n found busy => ?_, kept,
      fun n hn b role old => ?_⟩
  · have replaced : before ++ m' :: after = r.session.members.set before.length m' := by
      simp [members]
    rw [replaced, List.getElem?_set] at found
    split at found
    · split at found
      · rw [← Option.some.inj found, idle] at busy
        cases busy
      · cases found
    · exact ⟨n, found, busy⟩
  · rcases mem_place.1 hn with rfl | hn
    · rw [inputs', List.mem_append, List.mem_singleton] at old
      rw [role'] at role
      rcases old with old | now
      · exact h.unforced m (by simp [members]) b role old
      · exact forced now.symm b role
    · exact h.unforced n (members ▸ mem_of_rest hn) b role old

end Ordered

/-- What becomes of the batches that timers took. -/
structure Keeps (r : Rota T) : Prop where
  /-- A timer that took a batch is asked to cancel iff it had fired before its call armed it. -/
  asked : ∀ a ∈ r.timers, ∀ b, a.took = some (some b) →
    (a.task ∈ r.requests ↔ a.isEarly = true)
  uncancelled : ∀ a ∈ r.timers, ∀ b, a.took = some (some b) → a.isEarly = false →
    r.world.canceled? a.task = some false
  /-- Every waiting call gets what the call of its batch ended with, which is never a forced return
  unless the timer was early. -/
  answered : ∀ m ∈ r.session.members, ∀ b, m.role = .timer (some b) →
    (∀ a ∈ r.timers, a.took = some (some b) → a.isEarly = false) → m.yields ≠ [] →
    ∀ first input later, m.inputs = first :: input :: later → input ≠ .forcedReturn ∧
    ∀ n ∈ r.session.members, ∀ j code, n.role = .call j → j.seat.generation = b.generation →
      n.activity = .busy code →
      ∃ wait k part g, code = .perform (.wait wait) k ∧
        r.world.poll wait = .inl input.outcome ∧ k input.outcome = .done (.complete part, g) ∧
        Part j.seat.index input part

theorem Ordered.keeps (h : Ordered ctx r) (c : Client T) : Keeps r where
  asked := h.requested
  uncancelled a ha b took early := by
    obtain ⟨canceled, known, asked⟩ := h.cancelled a ha
    cases canceled with
    | false => exact known
    | true => simp [(h.requested a ha b took).1 (asked rfl)] at early
  answered m hm b role early started first input later inputs := by
    have unforced : input ≠ .forcedReturn := by
      rintro rfl
      obtain ⟨a, ha, took, gone⟩ := h.unforced m hm b role (by simp [inputs])
      obtain ⟨canceled, known, asked⟩ := h.cancelled a ha
      obtain rfl : canceled = true := Option.some.inj (known.symm.trans gone)
      have isEarly := (h.requested a ha b took).1 (asked rfl)
      rw [early a ha took] at isEarly
      cases isEarly
    refine ⟨unforced, ?_⟩
    have coalesced : Session.Coalesced c ctx r.session := h.sound.coalesced
    exact coalesced.answered m hm b role started first input later inputs unforced

open Session

/-- A run of the stub client. -/
def StubRun : Rota stubSig → Rota stubSig → Prop :=
  Relation.ReflTransGen (Step stubClient ⟨0⟩)

theorem stubSession_opens : Opens ⟨0⟩ stubSession := ⟨Nat.one_pos, rfl, rfl⟩

theorem StubRun.ordered {r : Rota stubSig} (run : StubRun ⟨stubSession, [], []⟩ r) :
    Ordered ⟨0⟩ r :=
  (Ordered.opens stubSession_opens).run run

theorem StubRun.andThen {r₀ r r' : Rota stubSig} (run : StubRun r₀ r)
    (step : Step stubClient ⟨0⟩ r r') : Step stubClient ⟨0⟩ r r' ∧ StubRun r₀ r' :=
  ⟨step, run.tail step⟩

/-- One call has joined a batch and yielded the fork of its timer, which has been carried out. -/
def stubForked : Rota stubSig :=
  let func : stubSig.Fn := .batched 2 default (.plain "f" 1 default ()) ()
  let w := (stubSession.world.runSync
    (stubClient.handleMw (.batchCalls 5) (.call func [.null]) ⟨0⟩)).2
  let j : Joined Unit Unit := ⟨.plain "f" 1 default (), .bool true, [.null], ⟨1, 0, ⟨0⟩⟩⟩
  let started := w.runAsks
    (stubClient.resumeGen (callGen (.created (.batch ⟨⟨0⟩, j.batchKey, j.seat, 5⟩))) (.next .null))
  let root := Delay.delay 5 (.custom executeKind (.sealed 0 (.batch j.batchKey)))
  let spawned := started.2.spawn ⟨0⟩ (.operation root)
  ⟨⟨spawned.2, [Member.settle ⟨.call j, .gone, [.next .null], []⟩ started.1]⟩,
    [⟨j, spawned.1, root, false, none, false⟩], []⟩

theorem stubForked_reached : StubRun ⟨stubSession, [], []⟩ stubForked := by
  have spares (s : Session stubSig) : s.Spares ⟨0⟩ s.world :=
    ⟨Nat.le_refl _, rfl, Nat.le_refl _, fun _ _ => rfl⟩
  have call {ticket w} :=
    Session.Step.call (c := stubClient) (s := stubSession)
      (.batched 2 default (.plain "f" 1 default ()) ()) _ () [.null] (.bool true) 5 ticket
      stubSession.world w rfl rfl (spares _) rfl
  obtain ⟨-, joined⟩ := StubRun.andThen .refl ((StubRun.ordered .refl).joins (call rfl) nofun)
  obtain ⟨-, asked⟩ := joined.andThen <|
    joined.ordered.resumes [] [] (.next .null) rfl rfl rfl rfl nofun nofun
  exact (asked.andThen (.fork _ _ _ (List.mem_singleton.2 rfl) rfl rfl nofun)).2

/-- Batching cancels a timer that took a batch only if it was early: it fired before its own call
armed it, finds no batch to arm by then, and is cancelled as if it were too late. Every other batch
runs undisturbed, and the calls that wait for it get what the call of its function ends with. -/
theorem cancelled_iff_early (c : Client T) (ctx : ContextId) {s₀ : Session T}
    (opens : Opens ctx s₀) (run : Relation.ReflTransGen (Step c ctx) ⟨s₀, [], []⟩ r) :
    Keeps r :=
  ((Ordered.opens opens).run run).keeps c

/-- A timer that fires before its call arms it takes the batch and calls the function. When the call
then arms it, it is cancelled in the middle of that call, and the call that waits is interrupted. -/
theorem cancels_executing :
    ∃ r r' r'', Opens ⟨0⟩ stubSession ∧ StubRun ⟨stubSession, [], []⟩ r ∧
      Step stubClient ⟨0⟩ r r' ∧ StubRun r' r'' ∧
      (∃ a b m, r.timers = [a] ∧ a.took = some (some b) ∧ r.requests = [] ∧
        r.session.members[1]? = some m ∧ m.role = .timer (some b) ∧
        m.activity = .resting (timerGen (.suspended (.executeBatch b.promise))) ∧
        r'.requests = [a.task] ∧ r'.world.canceled? a.task = some true) ∧
      ∃ n wait k g, r''.session.members[0]? = some n ∧
        n.activity = .busy (.perform (.wait wait) k) ∧
        r''.world.poll wait = .inl (.error .interrupted) ∧
        k (.error .interrupted) = .done (.complete (.error .interrupted), g) := by
  obtain ⟨-, fired⟩ := stubForked_reached.andThen
    (.fire [] [] _ _ _ _ _ rfl rfl List.not_mem_nil rfl rfl)
  obtain ⟨-, called⟩ := fired.andThen <|
    fired.ordered.resumes [_] [] (.next .null)
      rfl rfl rfl rfl (fun _ _ => rfl) nofun
  obtain ⟨arms, armed⟩ := called.andThen (.arm [] [] _ [] [_] _ _ _ _ rfl rfl rfl rfl rfl rfl)
  have forced := armed.ordered.resumes (c := stubClient) [_] []
    .forcedReturn rfl rfl rfl rfl (List.forall_mem_singleton.2 rfl)
    fun _ b role => ⟨_, List.mem_singleton.2 rfl, congrArg some (Role.timer.inj role), rfl⟩
  exact ⟨_, _, _, stubSession_opens, called, arms, .single forced,
    ⟨_, _, _, rfl, rfl, rfl, rfl, rfl, rfl, rfl, rfl⟩, _, _, _, _, rfl, rfl, rfl, rfl⟩

/-- The call arms its timer before that fires; the batch runs undisturbed and the call gets its
part. -/
theorem cancelled_iff_early_answered :
    ∃ r, Opens ⟨0⟩ stubSession ∧ StubRun ⟨stubSession, [], []⟩ r ∧ Keeps r ∧
      (∃ a b, r.timers = [a] ∧ a.took = some (some b) ∧ a.isEarly = false ∧ r.requests = []) ∧
      ∃ n wait k g, r.session.members[0]? = some n ∧
        n.activity = .busy (.perform (.wait wait) k) ∧
        r.world.poll wait = .inl (.ok (.list [.bool true])) ∧
        k (.ok (.list [.bool true])) = .done (.complete (.ok (.bool true)), g) := by
  obtain ⟨-, armed⟩ := stubForked_reached.andThen
    (.arm [] [] _ [] [] _ _ _ _ rfl rfl rfl rfl rfl rfl)
  obtain ⟨-, fired⟩ := armed.andThen (.fire [] [] _ _ _ _ _ rfl rfl List.not_mem_nil rfl rfl)
  obtain ⟨-, called⟩ := fired.andThen <|
    fired.ordered.resumes [_] [] (.next .null)
      rfl rfl rfl rfl (List.forall_mem_singleton.2 rfl) nofun
  obtain ⟨-, ended⟩ := called.andThen <|
    called.ordered.resumes [_] [] (.next (.list [.bool true]))
      rfl rfl rfl rfl (List.forall_mem_singleton.2 rfl) nofun
  exact ⟨_, stubSession_opens, ended, cancelled_iff_early stubClient ⟨0⟩ stubSession_opens ended,
    ⟨_, _, rfl, rfl, rfl, rfl⟩, _, _, _, _, rfl, rfl, rfl, rfl⟩

theorem Ordered.taken_perm (h : Ordered ctx r) :
    (r.timers.filterMap (·.took.join)).Perm r.session.taken := by
  have batch (role : Role T.Target T.Grouping) : role.timer?.bind id = role.batch? := by
    rcases role with j | _ | b <;> rfl
  have perm := h.fired.filterMap id
  rwa [List.filterMap_filterMap, Session.fired, List.filterMap_filterMap,
    funext fun m : Member T => batch m.role] at perm

/-- No two timers took batches of the same generation. -/
theorem Ordered.took_once (h : Ordered ctx r) {b b' : PendingBatch T.Fn} (ha : a ∈ r.timers)
    (took : a.took = some (some b)) (hx : x ∈ r.timers) (took' : x.took = some (some b'))
    (same : b.generation = b'.generation) : x = a := by
  have distinct : (r.session.taken.map (·.generation)).Nodup := by
    have distinct := h.sound.book.distinct
    rw [Book.batches, List.map_append] at distinct
    exact distinct.of_append_right
  have apart := (h.taken_perm.map (·.generation)).nodup_iff.2 distinct
  rw [List.Nodup, List.pairwise_map, List.pairwise_filterMap] at apart
  let Apart (a x : Timer T) : Prop := ∀ b, a.took.join = some b → ∀ b', x.took.join = some b' →
    b.generation ≠ b'.generation
  have : Std.Symm Apart := ⟨fun a x apart b hb b' hb' => (apart b' hb' b hb).symm⟩
  by_contra other
  have apart : r.timers.Pairwise Apart := apart
  exact apart.forall ha hx (Ne.symm other) b (by simp [took]) b' (by simp [took']) same

/-- No caller is stranded: while a call waits, its batch is pending under its key and has a timer that
will flush it, which has not been cancelled, or has been taken by exactly one timer. -/
theorem waits_for_timer (c : Client T) (ctx : ContextId) {s₀ : Session T} (opens : Opens ctx s₀)
    (run : Relation.ReflTransGen (Step c ctx) ⟨s₀, [], []⟩ r) :
    ∀ n ∈ r.session.members, ∀ j, n.role = .call j → n.activity.isBusy = true →
      (∃ a ∈ r.timers, a.call = j ∧ a.isArmed = true) ∧
      ((∃ b, (tableOf ctx r.world).find? j.batchKey = some b ∧
        b.generation = j.seat.generation ∧ ∃ a ∈ r.timers, b.timer = some a.task ∧
          a.took = none ∧ r.world.canceled? a.task = some false) ∨
      ∃! a, a ∈ r.timers ∧
        ∃ b, a.took = some (some b) ∧ b.generation = j.seat.generation) := by
  intro n hn j role busy
  have h := (Ordered.opens opens).run run
  have hj := Session.Sound.mem_joined hn role
  obtain ⟨a, ha, rfl, isArmed⟩ := h.waiting n hn j role busy
  refine ⟨⟨a, ha, rfl, isArmed⟩, ?_⟩
  obtain ⟨b, hb, generation⟩ := List.mem_map.1 (h.sound.book.seated a.call hj)
  rcases List.mem_append.1 hb with pending | taken
  · obtain ⟨e, he, rfl⟩ := List.mem_map.1 pending
    left
    obtain ⟨task, timer⟩ := Option.isSome_iff_exists.1 (h.guarded a ha isArmed e he generation)
    obtain ⟨x, hx, rfl, -, generation', unasked⟩ := h.installed e he task timer
    refine ⟨e.2, ?_, generation, x, hx, timer, h.unfired x hx e he generation'.symm, ?_⟩
    · have agrees := h.agrees hj he generation
      rcases BatchTable.find_cases h.sound.book.apart a.call.batchKey with
        ⟨-, others⟩ | ⟨before, k, b, after, split, -, found, others⟩
      · rw [others e he] at agrees
        cases agrees
      · have he : e ∈ before ++ (k, b) :: after := split ▸ he
        rcases mem_place.1 he with rfl | he
        · exact found
        · simp [others e he] at agrees
    · obtain ⟨canceled, known, asked⟩ := h.cancelled x hx
      cases canceled with
      | false => exact known
      | true => exact absurd (asked rfl) unasked
  · right
    obtain ⟨x, hx, took⟩ := List.mem_filterMap.1 (h.taken_perm.mem_iff.2 taken)
    have took : x.took = some (some b) := Option.join_eq_some_iff.1 took
    refine ⟨x, ⟨hx, b, took, generation⟩, fun x' ⟨hx', b', took', generation'⟩ => ?_⟩
    exact h.took_once hx took hx' took' (generation.trans generation'.symm)

/-- A call that has armed its timer waits for it to fire; once it has fired, it is the one that took
the batch. -/
theorem waits_for_timer_fired :
    ∃ r r' n, Opens ⟨0⟩ stubSession ∧ StubRun ⟨stubSession, [], []⟩ r ∧
      Step stubClient ⟨0⟩ r r' ∧ r.session.members[0]? = some n ∧
      r'.session.members[0]? = some n ∧ n.activity.isBusy = true ∧
      (∃ a b, r.timers = [a] ∧ (tableOf ⟨0⟩ r.world).pending.map (·.2) = [b] ∧
        b.timer = some a.task ∧ r'.timers = [{ a with took := some (some b) }]) ∧
      ∃! a, a ∈ r'.timers ∧ ∃ b, a.took = some (some b) ∧ b.generation = 1 := by
  obtain ⟨-, armed⟩ := stubForked_reached.andThen
    (.arm [] [] _ [] [] _ _ _ _ rfl rfl rfl rfl rfl rfl)
  obtain ⟨fires, fired⟩ := armed.andThen
    (.fire [] [] _ _ _ _ _ rfl rfl List.not_mem_nil rfl rfl)
  have waits := waits_for_timer stubClient ⟨0⟩ stubSession_opens fired _
    (List.mem_of_getElem? (i := 0) rfl) _ rfl rfl
  refine ⟨_, _, _, stubSession_opens, armed, fires, rfl, rfl, rfl, ⟨_, _, rfl, rfl, rfl, rfl⟩, ?_⟩
  refine waits.2.resolve_left ?_
  rintro ⟨b, found, -⟩
  cases found

end Rota

end Batch

end EffectEngine
