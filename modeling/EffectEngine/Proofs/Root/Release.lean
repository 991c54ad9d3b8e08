import EffectEngine.Proofs.Root.Chronicle

/-!
# The release of listeners

Listeners that have been set up are to be finalized, whatever ends the run. `Released` says that
they were. It holds of all runs that follow the protocol to its end. A panic ends a run as it
stands: `Interrupted` says who has been finalized by then, which is nobody unless the panic comes in
a `finalize` hook.
-/

namespace EffectEngine

variable {L : Type}

/-- The listener that is set up by two occasions in a row. -/
def Occasion.setUp? : Occasion L → Option (Occasion L) → Option L
  | .called l .setUp, some (.answered (.ok _)) => some l
  | _, _ => none

/-- The listeners that were set up, in the order in which they were. -/
def initialized : List (Occasion L) → List L
  | [] => []
  | o :: os => (o.setUp? os.head?).toList ++ initialized os

/-- The listeners whose `finalize` hook was called, in the order in which it was. -/
def finalized (os : List (Occasion L)) : List L :=
  os.filterMap fun
    | .called l (.finalize _) => some l
    | _ => none

/-- Whoever was set up has been finalized, once and in the same order. -/
def Released (os : List (Occasion L)) : Prop := initialized os <+: finalized os

/-! ### Who is finalized -/

section Finalized

variable {ls : List L} {hook : Hook} {os ps : List (Occasion L)} {result : Except Error Unit}
  {r : Outcome}

theorem finalized_append (os ps : List (Occasion L)) :
    finalized (os ++ ps) = finalized os ++ finalized ps := List.filterMap_append

theorem Heard.finalized (h : Heard hook ls os result) (other : ∀ e, hook ≠ .finalize e) :
    finalized os = [] := by
  induction h with
  | all => rfl
  | failed =>
    cases hook with
    | finalize e => exact absurd rfl (other e)
    | _ => rfl
  | next l rest ih =>
    cases hook with
    | finalize e => exact absurd rfl (other e)
    | _ => exact ih

theorem Told.finalized_error {e : Error} (h : Told (.error e) ls os) : finalized os = [] := by
  induction h with
  | all => rfl
  | next l result rest ih => exact ih

theorem Told.finalized {e : Option Error} (h : Told (.finalize e) ls os) : finalized os = ls := by
  induction h with
  | all => rfl
  | next l result rest ih => exact congrArg (l :: ·) ih

theorem Told.called {o : Occasion L} (h : Told hook ls os) (mem : o ∈ os) :
    (∃ l, o = .called l hook) ∨ o.isOpening = false := by
  induction h with
  | all => cases mem
  | next l result rest ih =>
    rcases List.mem_cons.1 mem with rfl | mem
    · exact .inl ⟨l, rfl⟩
    · rcases List.mem_cons.1 mem with rfl | mem
      · exact .inr rfl
      · exact ih mem

/-- All listeners are finalized, at the end and nowhere else. -/
theorem Closes.finalize_last (h : Closes ls r os) : ∃ before after e, os = before ++ after ∧
    EffectEngine.finalized before = [] ∧ Told (.finalize e) ls after := by
  cases h with
  | well v finalized => exact ⟨[], os, none, rfl, rfl, finalized⟩
  | ill e told finalized => exact ⟨_, _, some e, rfl, told.finalized_error, finalized⟩

/-- Nobody is finalized before the result is certain. -/
theorem Protocol.closes (h : Protocol ls os r) : ∃ before closing, os = before ++ closing ∧
    EffectEngine.finalized before = [] ∧ Closes ls r closing := by
  cases h with
  | uninitialized setUp closes => exact ⟨_, _, rfl, setUp.finalized nofun, closes⟩
  | @failed es fs e setUp closes =>
    refine ⟨es ++ [.started, .settled (.error e)], fs, by simp, ?_, closes⟩
    rw [finalized_append, setUp.finalized nofun]
    rfl
  | @unprepared es fs gs v e setUp preComplete closes =>
    refine ⟨es ++ .started :: .settled (.ok v) :: fs, gs, by simp, ?_, closes⟩
    rw [finalized_append, setUp.finalized nofun]
    exact preComplete.finalized nofun
  | @incomplete es fs gs hs v e setUp preComplete complete closes
  | @completed es fs gs hs v setUp preComplete complete closes =>
    refine ⟨es ++ .started :: .settled (.ok v) :: (fs ++ gs), hs, by simp, ?_, closes⟩
    rw [finalized_append, setUp.finalized nofun]
    refine (finalized_append fs gs).trans ?_
    rw [preComplete.finalized nofun, complete.finalized nofun]
    rfl

/-- All listeners are finalized, at the end and nowhere else. -/
theorem Protocol.finalize_last (h : Protocol ls os r) : ∃ before after e, os = before ++ after ∧
    EffectEngine.finalized before = [] ∧ Told (.finalize e) ls after := by
  obtain ⟨before, closing, rfl, nobody, closes⟩ := h.closes
  cases closes with
  | well v finalized => exact ⟨before, closing, none, rfl, nobody, finalized⟩
  | @ill es fs e told finalized =>
    refine ⟨before ++ es, fs, some e, (List.append_assoc ..).symm, ?_, finalized⟩
    rw [finalized_append, nobody, told.finalized_error]
    rfl

theorem Protocol.finalized (h : Protocol ls os r) : finalized os = ls := by
  obtain ⟨before, after, e, rfl, nobody, told⟩ := h.finalize_last
  rw [finalized_append, nobody, told.finalized]
  rfl

/-- While a task or a hook of another kind is running, nobody has been finalized. -/
theorem Protocol.finalized_beginning {last : Occasion L} (h : Protocol ls (os ++ last :: ps) r)
    (opening : last.isOpening = true) (other : ∀ l e, last ≠ .called l (.finalize e)) :
    EffectEngine.finalized (os ++ [last]) = [] := by
  obtain ⟨before, after, e, split, nobody, told⟩ := h.finalize_last
  have alone : EffectEngine.finalized [last] = [] := by
    cases last with
    | called l hook =>
      cases hook with
      | finalize e => exact absurd rfl (other l e)
      | _ => rfl
    | _ => rfl
  rcases List.append_eq_append_iff.1 split with ⟨bs, rfl, -⟩ | ⟨bs, -, rfl⟩
  · rw [finalized_append] at nobody ⊢
    rw [(List.append_eq_nil_iff.1 nobody).1, alone]
    rfl
  · rcases told.called (List.mem_append_right bs (List.mem_cons_self ..)) with ⟨l, rfl⟩ | closed
    · exact absurd rfl (other l e)
    · cases opening.symm.trans closed

end Finalized

/-! ### Who was set up -/

section Initialized

variable {ls : List L} {os ps : List (Occasion L)} {result : Except Error Unit} {r : Outcome}

theorem initialized_isPrefix (os ps : List (Occasion L)) :
    initialized os <+: initialized (os ++ ps) := by
  induction os with
  | nil => exact List.nil_prefix
  | cons o os ih =>
    cases os with
    | nil =>
      have alone : initialized [o] = [] := by
        cases o with
        | called l hook => cases hook <;> rfl
        | _ => rfl
      exact alone ▸ List.nil_prefix
    | cons o' os => exact (List.prefix_append_right_inj _).2 ih

/-- Only hooks of one kind are called. -/
theorem Heard.called {hook : Hook} {o : Occasion L} (h : Heard hook ls os result) (mem : o ∈ os) :
    (∃ l, o = .called l hook) ∨ ∃ answer, o = .answered answer := by
  induction h with
  | all => cases mem
  | failed l =>
    rcases List.mem_cons.1 mem with rfl | mem
    · exact .inl ⟨l, rfl⟩
    · exact .inr ⟨_, List.mem_singleton.1 mem⟩
  | next l rest ih =>
    rcases List.mem_cons.1 mem with rfl | mem
    · exact .inl ⟨l, rfl⟩
    · rcases List.mem_cons.1 mem with rfl | mem
      · exact .inr ⟨_, rfl⟩
      · exact ih mem

theorem initialized_eq_nil (none : ∀ l, .called l .setUp ∉ os) : initialized os = [] := by
  induction os with
  | nil => rfl
  | cons o os ih =>
    have quiet : o.setUp? os.head? = Option.none := by
      unfold Occasion.setUp?
      split
      · exact absurd (List.mem_cons_self ..) (none _)
      · rfl
    rw [initialized, quiet, ih fun l mem => none l (List.mem_cons_of_mem _ mem)]
    rfl

theorem Heard.not_setUp {hook : Hook} (h : Heard hook ls os result) (other : hook ≠ .setUp)
    (l : L) : .called l .setUp ∉ os := by
  intro mem
  rcases h.called mem with ⟨l', same⟩ | ⟨_, ⟨⟩⟩
  exact other (Occasion.called.inj same).2.symm

theorem Told.not_setUp {hook : Hook} (h : Told hook ls os) (other : hook ≠ .setUp) (l : L) :
    .called l .setUp ∉ os := by
  intro mem
  rcases h.called mem with ⟨l', same⟩ | ⟨⟨⟩⟩
  exact other (Occasion.called.inj same).2.symm

theorem Closes.not_setUp (h : Closes ls r os) (l : L) : .called l .setUp ∉ os := by
  cases h with
  | well v finalized => exact finalized.not_setUp nofun l
  | ill e told finalized =>
    simp only [List.mem_append, told.not_setUp nofun l, finalized.not_setUp nofun l, or_self,
      not_false_eq_true]

theorem Heard.initialized (h : Heard .setUp ls os result) (none : ∀ l, .called l .setUp ∉ ps) :
    initialized (os ++ ps) <+: ls := by
  induction h with
  | all => exact (initialized_eq_nil none).symm ▸ List.prefix_rfl
  | failed l ls e =>
    have nobody : EffectEngine.initialized ps = [] := initialized_eq_nil none
    show EffectEngine.initialized ps <+: l :: ls
    exact nobody ▸ List.nil_prefix
  | next l rest ih => exact (List.prefix_cons_inj l).2 ih

/-- Listeners are set up in the order of registration, and before all else. -/
theorem Protocol.initialized (h : Protocol ls os r) : initialized os <+: ls := by
  cases h with
  | uninitialized setUp closes => exact setUp.initialized closes.not_setUp
  | failed setUp closes => exact setUp.initialized fun l => by simp [closes.not_setUp l]
  | unprepared setUp preComplete closes =>
    exact setUp.initialized fun l => by simp [preComplete.not_setUp nofun l, closes.not_setUp l]
  | incomplete setUp preComplete complete closes
  | completed setUp preComplete complete closes =>
    exact setUp.initialized fun l => by
      simp [preComplete.not_setUp nofun l, complete.not_setUp nofun l, closes.not_setUp l]

end Initialized

/-! ### Release -/

/-- A run has been given up in the code of its task or of a hook. Only in a `finalize` hook someone
has been finalized by then. -/
structure Interrupted (ls : List L) (os : List (Occasion L)) : Prop where
  last : ∃ o ∈ os.getLast?, o.isOpening = true
  ahead : ∃ more result, Protocol ls (os ++ more) result
  initialized : initialized os <+: ls
  finalized : finalized os <+: ls
  released : Released os ↔ (EffectEngine.initialized os).length ≤ (EffectEngine.finalized os).length
  nobody : (∀ o ∈ os.getLast?, ∀ l e, o ≠ .called l (.finalize e)) → EffectEngine.finalized os = []

theorem Protocol.released {ls : List L} {os : List (Occasion L)} {r : Outcome}
    (h : Protocol ls os r) : Released os := by
  rw [Released, h.finalized]
  exact h.initialized

theorem interrupted_of_ahead {ls : List L} {os : List (Occasion L)} {last : Occasion L}
    (opening : last.isOpening = true)
    (ahead : ∃ more result, Protocol ls (os ++ [last] ++ more) result) :
    Interrupted ls (os ++ [last]) := by
  obtain ⟨more, result, protocol⟩ := ahead
  have setUp : initialized (os ++ [last]) <+: ls :=
    (initialized_isPrefix _ more).trans protocol.initialized
  have told : finalized (os ++ [last]) <+: ls :=
    protocol.finalized ▸ (List.prefix_append (os ++ [last]) more).filterMap _
  refine ⟨⟨last, List.getLast?_concat .., opening⟩, ⟨more, result, protocol⟩, setUp, told,
    ⟨List.IsPrefix.length_le, List.prefix_of_prefix_length_le setUp told⟩, fun other => ?_⟩
  rw [List.append_assoc] at protocol
  exact protocol.finalized_beginning opening (other last (List.getLast?_concat ..))

namespace Root

variable {S : Sig}

/-- A run that returns has released all its listeners. It ends otherwise only in a panic of its task
or of a hook, and then nobody is finalized any more. -/
theorem released_unless_unwound (host : Host S) {w : World S} (rootless : ∀ i, w.roots i = [])
    (n : Nat) (id : TaskId) :
    let happened := ((Chronicle.tick host)^[n] ⟨w, []⟩).of id
    Enacted host w n id ∧ (∀ result, .returned result ∈ happened → ∃ os,
      happened = os.map .occasion ++ [.returned result] ∧ Protocol host.listeners os result ∧
      finalized os = host.listeners ∧ Released os) ∧
    ∀ message, .unwound message ∈ happened → ∃ os,
      happened = os.map .occasion ++ [.unwound message] ∧ Interrupted host.listeners os := by
  intro happened
  obtain ⟨os, ahead, stands⟩ := (Chronicle.accounted host rootless n).protocol id
  refine ⟨enacted host rootless n id, fun result mem => ?_, fun message mem => ?_⟩
  · rcases stands with on | ⟨result', ended, protocol⟩ | ⟨message, ended, -⟩
    · simp [happened, on] at mem
    · obtain rfl : result = result' := by simpa [happened, ended] using mem
      exact ⟨os, ended, protocol, protocol.finalized, protocol.released⟩
    · simp [happened, ended] at mem
  · rcases stands with on | ⟨result', ended, -⟩ | ⟨message', ended, before, last, rfl, opening⟩
    · simp [happened, on] at mem
    · simp [happened, ended] at mem
    · obtain rfl : message = message' := by simpa [happened, ended] using mem
      exact ⟨_, ended, interrupted_of_ahead opening ahead⟩

/-- Generators that panic, and one listener whose hooks look at the clock. -/
def panickingHost : Host .ofStubs := { idleHost with resume := fun _ _ => .panic "boom" }

/-- A generator panics in a root task whose listener has been set up. The thread is gone, and the
listener was never finalized. -/
theorem panic_finalizes_nobody :
    let r := (Chronicle.tick panickingHost)^[30] ⟨oneRun, []⟩
    let os : List (Occasion Unit) := [.called () .setUp, .answered (.ok ()), .started]
    r.of ⟨0, 0⟩ = os.map .occasion ++ [.unwound "boom"] ∧
      (r.world.fate? World.mainThread).map Fate.outcome = some (.error (.panicked "boom")) ∧
      initialized os = panickingHost.listeners ∧ finalized os = [] ∧ ¬ Released os := by
  refine ⟨rfl, rfl, rfl, rfl, fun released => ?_⟩
  have more : 1 ≤ 0 := released.length_le
  omega

theorem interrupted_by_panic :
    (∀ i, oneRun.roots i = []) ∧ ∃ os,
      ((Chronicle.tick panickingHost)^[30] ⟨oneRun, []⟩).of ⟨0, 0⟩ =
        os.map .occasion ++ [.unwound "boom"] ∧ Interrupted panickingHost.listeners os := by
  have rootless : ∀ i, oneRun.roots i = [] := rootless_start 0 () false _
  have panicked : .unwound "boom" ∈ ((Chronicle.tick panickingHost)^[30] ⟨oneRun, []⟩).of ⟨0, 0⟩ :=
    List.mem_of_getLast? rfl
  exact ⟨rootless, (released_unless_unwound panickingHost rootless 30 ⟨0, 0⟩).2.2 "boom" panicked⟩

end Root

end EffectEngine
