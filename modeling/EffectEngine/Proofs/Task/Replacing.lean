import EffectEngine.Proofs.Task.Dispatch

/-!
# What `terminal` does to the stack

An operation may be in `Layer`s of `start` and `terminal`. `Peels` says what it means that all of
them are undone: each layer of `terminal` takes the top frame away, whose generator is resumed for
its return and nothing else. `Dispatch.peels` says that a dispatch undoes layers in just this way.

The ban on replacing a frame by a `fork` or `defer` looks at one layer only, so that with `start` in
between such an operation is carried out against the frame below.
-/

namespace EffectEngine

variable {G F M : Type}

inductive Layer where
  | start
  | terminal
deriving DecidableEq

namespace Operation

def wrap (op : Operation G F) : Layer → Operation G F
  | .start => .start op
  | .terminal => .terminal op

/-- An operation in layers, the outermost one first. -/
def layered (op : Operation G F) (ls : List Layer) : Operation G F :=
  ls.foldr (fun l op => op.wrap l) op

theorem layered_append (op : Operation G F) (ls ls' : List Layer) :
    op.layered (ls ++ ls') = (op.layered ls').layered ls := List.foldr_append

theorem needsFrame_wrap (op : Operation G F) (l : Layer) : (op.wrap l).needsFrame = false := by
  cases l <;> rfl

end Operation

open Exchange

/-- All layers around an operation are undone. With each one of `terminal` the top frame goes, which
is still running; its generator is resumed once, for its return. -/
inductive Peels (registry : Registry M) (op : Operation G F) : Task G F M → List Layer →
    List (Exchange G F M) → Task G F M → Prop
  | none (t : Task G F M) : Peels registry op t [] [] t
  | start {t t' : Task G F M} {ls : List Layer} {xs : List (Exchange G F M)}
    (rest : Peels registry op t ls xs t') : Peels registry op t (.start :: ls)
      (declines (.start (op.layered ls)) (registry.handlers startKind) ++ xs) t'
  | terminal {t t' : Task G F M} {ls : List Layer} {xs : List (Exchange G F M)} {f : Frame G F M}
    {fs : List (Frame G F M)} (frames : t.frames = f :: fs)
    (allowed : (op.layered ls).refusal? t.frames = .none) (signal : Signal G F)
    (rest : Peels registry op { t with frames := fs } ls xs t') :
    Peels registry op t (.terminal :: ls)
      (declines (.terminal (op.layered ls)) (registry.handlers terminalKind) ++
        retirement t.id f signal ++ xs) t'

section Layers

variable {registry : Registry M} {origin : Option (HandlerSlot M)} {p : Purpose}
  {t t' u : Task G F M} {op op' : Operation G F} {l : Layer} {ls done todo : List Layer}
  {xs ys : List (Exchange G F M)}

/-- One more layer is undone. -/
theorem Peels.snoc (h : Peels registry (op.wrap l) t done xs u)
    (last : Peels registry op u [l] ys t') :
    Peels registry op t (done ++ [l]) (xs ++ ys) t' := by
  generalize wrapped : op.wrap l = op₁ at h
  induction h with
  | none t => exact last
  | start rest ih =>
    subst wrapped
    have peels := (ih last).start
    rw [Operation.layered_append, ← List.append_assoc] at peels
    exact peels
  | @terminal t _ ls xs f fs frames allowed signal rest ih =>
    subst wrapped
    have same : op.layered (ls ++ [l]) = (op.wrap l).layered ls := op.layered_append ls [l]
    have peels := Peels.terminal frames (same ▸ allowed) signal (ih last)
    rw [same, ← List.append_assoc] at peels
    exact peels

theorem Undone.peels (h : Undone registry origin t (op.wrap l) xs t' op') :
    op' = op ∧ Peels registry op t [l] xs t' := by
  cases l with
  | start =>
    cases h with
    | start entry =>
      cases entry
      exact ⟨rfl, List.append_nil (declines _ _) ▸ (Peels.none t).start⟩
    | terminal entry => cases entry
  | terminal =>
    cases h with
    | start entry => cases entry
    | terminal entry frames allowed signal =>
      cases entry
      have allowed : (op.layered []).refusal? t.frames = none := allowed
      exact ⟨rfl, List.append_nil (_ ++ _) ▸ .terminal frames allowed signal (.none _)⟩

theorem Peels.sheds (h : Peels registry op t ls xs t') :
    Sheds registry origin t (op.layered ls) xs t' op := by
  induction h with
  | none t => exact .none
  | @start t t' ls xs rest ih =>
    have undone : Undone registry origin t (op.layered (.start :: ls)) _ t (op.layered ls) :=
      .start rfl
    exact (Sheds.none.more undone).trans ih
  | @terminal t t' ls xs f fs frames allowed signal rest ih =>
    have undone : Undone registry origin t (op.layered (.terminal :: ls)) _ _ (op.layered ls) :=
      .terminal rfl frames allowed signal
    exact (Sheds.none.more undone).trans ih

/-- The layers of an operation are undone from the outermost one on, and then those that it has
itself. -/
theorem Sheds.peels (h : Sheds registry origin t (op.layered ls) xs t' op') :
    ∃ done todo ys zs u, ls = done ++ todo ∧ xs = ys ++ zs ∧
      Peels registry (op.layered todo) t done ys u ∧
      (todo = [] ∧ Sheds registry origin u op zs t' op' ∨
        todo ≠ [] ∧ zs = [] ∧ t' = u ∧ op' = op.layered todo) := by
  generalize layered : op.layered ls = op₁ at h
  induction h with
  | none =>
    subst layered
    cases ls with
    | nil => exact ⟨[], [], [], [], t, rfl, rfl, .none t, .inl ⟨rfl, .none⟩⟩
    | cons l ls => exact ⟨[], l :: ls, [], [], t, rfl, rfl, .none t, .inr ⟨nofun, rfl, rfl, rfl⟩⟩
  | more before undone ih =>
    obtain ⟨done, todo, ys, zs, u, rfl, rfl, peels, inside | ⟨more, rfl, rfl, rfl⟩⟩ := ih
    · obtain ⟨rfl, sheds⟩ := inside
      exact ⟨done, [], ys, _, u, rfl, List.append_assoc .., peels, .inl ⟨rfl, sheds.more undone⟩⟩
    · cases todo with
      | nil => exact absurd rfl more
      | cons l todo =>
        obtain ⟨rfl, last⟩ := Undone.peels undone
        refine ⟨done ++ [l], todo, _, [], _, ?_, ?_, Peels.snoc peels last, ?_⟩
        · simp
        · simp
        · cases todo with
          | nil => exact .inl ⟨rfl, .none⟩
          | cons => exact .inr ⟨nofun, rfl, rfl, rfl⟩

/-- What is left of a task whose frames have been taken away. -/
theorem Peels.frames (h : Peels registry op t ls xs u) : ∃ fs, t.frames = fs ++ u.frames ∧
    fs.length = ls.count .terminal ∧ (∀ f ∈ fs, f.completed = false) ∧
      u = { t with frames := u.frames } := by
  induction h with
  | none t => exact ⟨[], rfl, rfl, nofun, rfl⟩
  | start rest ih =>
    obtain ⟨fs, split, length, running, same⟩ := ih
    exact ⟨fs, split, by simpa using length, running, same⟩
  | @terminal t u ls xs f fs frames allowed signal rest ih =>
    obtain ⟨fs', split, length, running, same⟩ := ih
    obtain ⟨-, f', fs'', frames', unfinished⟩ := Operation.refusal?_eq_none.1 allowed
    obtain ⟨rfl, -⟩ := List.cons.inj (frames.symm.trans frames')
    refine ⟨f :: fs', ?_, ?_, List.forall_mem_cons.2 ⟨unfinished, running⟩, same⟩
    · rw [frames, List.cons_append, ← split]
    · simpa using length

variable [Named G]

/-- A layer of `terminal` that cannot be undone leaves the frames alone. -/
theorem Stands.untouched {inner : Operation G F} {e : Error}
    (h : Stands registry origin p t (.terminal inner) xs u)
    (refused : inner.refusal? t.frames = some e) :
    (∀ x ∈ xs, (∃ m op accepts, x = .filtered m op accepts) ∨
        ∃ m op result, x = .handled m op result) ∧
      ∃ v, t.Still v ∧ (u = v ∨ ∃ g name slot, u = v.push g name slot p) := by
  have asked {op : Operation G F} {ms : List M} {zs : List (Exchange G F M)}
      (others : ∀ x ∈ zs, (∃ m op accepts, x = .filtered m op accepts) ∨
        ∃ m op result, x = .handled m op result) :
      ∀ x ∈ declines op ms ++ zs, (∃ m op accepts, x = .filtered m op accepts) ∨
        ∃ m op result, x = .handled m op result := by
    intro x hx
    rcases List.mem_append.1 hx with hx | hx
    · obtain ⟨m, -, rfl⟩ := List.mem_map.1 hx
      exact .inl ⟨m, op, false, rfl⟩
    · exact others x hx
  cases h with
  | underway position still =>
    generalize u.stage = stage at position
    cases position with
    | begun => exact ⟨nofun, u, still, .inl rfl⟩
    | offering k entry bound =>
      exact ⟨List.append_nil (declines _ _) ▸ asked nofun, u, still, .inl rfl⟩
    | handling k entry handler => exact ⟨asked (by simp), u, still, .inl rfl⟩
    | invoking entry | forking entry => cases entry
    | replacing entry frames allowed | retiring entry frames allowed
    | reporting entry frames allowed =>
      cases entry
      rw [refused] at allowed
      cases allowed
  | ended ended =>
    cases ended with
    | misdirected entry => cases entry
    | refused k entry handler e still => exact ⟨asked (by simp), _, still.become _, .inl rfl⟩
    | handled k entry handler g still =>
      exact ⟨asked (by simp), _, still, .inr ⟨g, _, _, rfl⟩⟩
    | failed entry fails still =>
      exact ⟨List.append_nil (declines _ _) ▸ asked nofun, _, still.become _, .inl rfl⟩
    | invoked entry | executed entry | forked entry | registered entry | recovered entry =>
      cases entry

end Layers

/-- What a dispatch makes of layers of `start` and `terminal`, `op` being the operation inside. -/
structure Replacing (registry : Registry M) [Named G] (op : Operation G F) : Prop where
  /-- At any time, the layers that nobody took have been undone from the outermost one on, and the
  rest is dispatched against the frames that are left, for the same handler slot. -/
  peels : ∀ (t : Task G F M) ls origin p impulses,
    let d := (Dispatch.begin t (op.layered ls) origin p).after registry impulses
    ∃ done todo xs ys u, ls = done ++ todo ∧ d.exchanges = xs ++ ys ∧
      Peels registry (op.layered todo) t done xs u ∧
      (todo = [] ∧ Dispatch.Traced registry origin p u op ⟨d.task, ys⟩ ∨
        todo ≠ [] ∧ Stands registry origin p u (op.layered todo) ys d.task)
  /-- The frames that go are the top ones. -/
  frames : ∀ {t u : Task G F M} {ls xs}, Peels registry op t ls xs u → ∃ fs,
    t.frames = fs ++ u.frames ∧ fs.length = ls.count .terminal ∧
      (∀ f ∈ fs, f.completed = false) ∧ u = { t with frames := u.frames }
  /-- If the answers let it, the dispatch undoes as many layers as can be undone. -/
  undone : ∀ {t u : Task G F M} {ls xs}, Peels registry op t ls xs u → ∀ origin p,
    ∃ impulses, (Dispatch.begin t (op.layered ls) origin p).after registry impulses =
      ⟨u.become (.dispatching (.operation op) origin p), xs⟩
  /-- A layer of `terminal` that is refused fails, -/
  refused : ∀ {t u : Task G F M} {ls xs e}, Peels registry (.terminal op) t ls xs u →
    op.refusal? u.frames = some e → ∀ origin p, ∃ impulses,
      (Dispatch.begin t ((.terminal op : Operation G F).layered ls) origin p).after registry impulses =
        ⟨u.become (.dispatched (.error e) p),
          xs ++ declines (.terminal op) (registry.handlers terminalKind)⟩
  /-- and whatever happens, no frame goes with it and no generator is resumed. -/
  untouched : ∀ {t : Task G F M} {e}, op.refusal? t.frames = some e → ∀ origin p impulses,
    let d := (Dispatch.begin t (.terminal op) origin p).after registry impulses
    (∀ x ∈ d.exchanges, (∃ m op accepts, x = .filtered m op accepts) ∨
        ∃ m op result, x = .handled m op result) ∧
      ∃ u, t.Still u ∧ (d.task = u ∨ ∃ g name slot, d.task = u.push g name slot p)

section Dispatches

variable [Named G] (registry : Registry M) (t : Task G F M) (op : Operation G F)
  (origin : Option (HandlerSlot M)) (p : Purpose)

theorem Dispatch.peels (ls : List Layer) (impulses : List (Impulse G F)) :
    let d := (Dispatch.begin t (op.layered ls) origin p).after registry impulses
    ∃ done todo xs ys u, ls = done ++ todo ∧ d.exchanges = xs ++ ys ∧
      Peels registry (op.layered todo) t done xs u ∧
      (todo = [] ∧ Dispatch.Traced registry origin p u op ⟨d.task, ys⟩ ∨
        todo ≠ [] ∧ Stands registry origin p u (op.layered todo) ys d.task) := by
  intro d
  obtain ⟨xs, t', op', ys, passed, sheds, stands⟩ :=
    Dispatch.traced registry t (op.layered ls) origin p impulses
  obtain ⟨done, todo, xs, zs, u, split, rfl, peels, inside | ⟨more, rfl, rfl, rfl⟩⟩ := sheds.peels
  · obtain ⟨rfl, sheds⟩ := inside
    refine ⟨done, [], xs, zs ++ ys, u, split, ?_, peels, .inl ⟨rfl, ?_⟩⟩
    · exact passed.trans (List.append_assoc ..)
    · exact ⟨zs, t', op', ys, rfl, sheds, stands⟩
  · exact ⟨done, todo, xs, ys, t', split, List.append_nil xs ▸ passed, peels, .inr ⟨more, stands⟩⟩

/-- A layer of `terminal` that is refused is never undone. -/
theorem Dispatch.stands_of_refused {e : Error} (refused : op.refusal? t.frames = some e)
    (impulses : List (Impulse G F)) :
    let d := (Dispatch.begin t (.terminal op) origin p).after registry impulses
    Stands registry origin p t (.terminal op) d.exchanges d.task := by
  intro d
  obtain ⟨done, todo, xs, ys, u, split, passed, peels, rest⟩ :=
    Dispatch.peels registry t op origin p [.terminal] impulses
  cases peels with
  | none =>
    obtain rfl : todo = [.terminal] := split.symm
    rcases rest with ⟨empty, -⟩ | ⟨-, stands⟩
    · cases empty
    · exact passed.symm ▸ stands
  | start => cases split
  | terminal frames allowed signal rest =>
    obtain ⟨-, split⟩ := List.cons.inj split
    obtain ⟨rfl, rfl⟩ := List.append_eq_nil_iff.1 split.symm
    exact absurd (allowed.symm.trans refused) nofun

end Dispatches

/-- `terminal` takes away the top frame or fails without doing anything, layer by layer. -/
theorem Operation.replaces_or_fails [Named G] (registry : Registry M) (op : Operation G F) :
    Replacing registry op where
  peels t ls origin p impulses := Dispatch.peels registry t op origin p ls impulses
  frames peels := peels.frames
  undone peels origin p := peels.sheds.reached
  refused {_ u _ xs e} peels refused origin p := by
    have fails : Dispatch.Passes registry origin p u (.terminal op) _ _ := Dispatch.passes_core rfl
    rw [Task.core_refused refused] at fails
    exact List.append_nil (declines _ _) ▸ peels.sheds.andThen fails
  untouched refused origin p impulses :=
    (Dispatch.stands_of_refused registry _ op origin p refused impulses).untouched refused

/-! ### The ban on replacing a frame by a `fork` or `defer` -/

section Needy

variable {registry : Registry M} {origin : Option (HandlerSlot M)} {p : Purpose}
  {t u : Task G F M} {op op' : Operation G F} {ls : List Layer} {xs : List (Exchange G F M)}

theorem Peels.last_of_needy (h : Peels registry op t ls xs u) (needs : op.needsFrame = true) :
    ls.getLast? ≠ some .terminal := by
  induction h with
  | none => nofun
  | @start _ _ ls _ rest ih =>
    cases ls with
    | nil => nofun
    | cons l ls => exact ih
  | @terminal _ _ ls _ _ _ frames allowed signal rest ih =>
    cases ls with
    | nil =>
      have plain : op.needsFrame = false := (Operation.refusal?_eq_none.1 allowed).1
      rw [needs] at plain
      cases plain
    | cons l ls => exact ih

/-- Layers can be undone as long as enough frames are running, if an operation that needs its frame
is not directly inside `terminal`. -/
theorem exists_peels (registry : Registry M) (op : Operation G F) {fs rest : List (Frame G F M)}
    (last : ls.getLast? ≠ some .terminal) (frames : t.frames = fs ++ rest)
    (length : fs.length = ls.count .terminal) (running : ∀ f ∈ fs, f.completed = false) :
    ∃ xs, Peels registry op t ls xs { t with frames := rest } := by
  induction ls generalizing t fs with
  | nil =>
    obtain rfl := List.eq_nil_of_length_eq_zero length
    obtain rfl : t.frames = rest := frames
    exact ⟨[], .none t⟩
  | cons l ls ih =>
    have plain (terminal : l = .terminal) : (op.layered ls).needsFrame = false := by
      cases ls with
      | nil => exact absurd (congrArg some terminal) last
      | cons l' ls => exact Operation.needsFrame_wrap _ l'
    have innermost : ls.getLast? ≠ some .terminal := by
      cases ls with
      | nil => nofun
      | cons => exact last
    cases l with
    | start =>
      obtain ⟨xs, peels⟩ := ih innermost frames (by simpa using length) running
      exact ⟨_, peels.start⟩
    | terminal =>
      cases fs with
      | nil => simp at length
      | cons f fs =>
        obtain ⟨unfinished, running⟩ := List.forall_mem_cons.1 running
        obtain ⟨xs, peels⟩ :=
          @ih { t with frames := fs ++ rest } fs innermost rfl (by simpa using length) running
        have allowed : (op.layered ls).refusal? t.frames = none :=
          Operation.refusal?_eq_none.2 ⟨plain rfl, f, fs ++ rest, frames, unfinished⟩
        exact ⟨_, .terminal frames allowed (.complete (.ok .null)) peels⟩

theorem Registry.entry_of_needy (registry : Registry M) (origin : Option (HandlerSlot M))
    (needs : op.needsFrame = true) :
    registry.entry origin op = .ok (op, ⟨op.kind, registry.handlers op.kind, 0⟩) := by
  cases op with
  | fork | defer => rfl
  | _ => cases needs

/-- Nothing is inside an operation that needs its frame, as far as its dispatch goes. -/
theorem Sheds.of_needy (h : Sheds registry origin t op xs u op') (needs : op.needsFrame = true) :
    u = t ∧ op' = op := by
  induction h with
  | none => exact ⟨rfl, rfl⟩
  | more before undone ih =>
    obtain ⟨rfl, rfl⟩ := ih
    have entry := Registry.entry_of_needy registry origin needs
    cases undone with
    | start entry' | terminal entry' =>
      obtain ⟨rfl, -⟩ := Prod.mk.inj (Except.ok.inj (entry.symm.trans entry'))
      cases needs

variable [Named G]

theorem Stands.of_dispatching (h : Stands registry origin p t op' xs u)
    (stage : u.stage = .dispatching (.operation op) origin p) : op' = op ∧ t.Still u := by
  cases h with
  | ended ended =>
    obtain ⟨result, dispatched⟩ := ended.stage
    cases stage.symm.trans dispatched
  | underway position still =>
    rw [stage] at position
    cases position
    exact ⟨rfl, still⟩

/-- An operation that needs its frame is carried out behind layers of `start` and `terminal` if and
only if the innermost layer is not `terminal` and the frames that go are still running; it is
carried out against those that are left. -/
theorem Dispatch.comes_to_needy (registry : Registry M) (t : Task G F M)
    {op : Operation G F} (needs : op.needsFrame = true) (ls : List Layer)
    (origin : Option (HandlerSlot M)) (p : Purpose) :
    (∀ impulses, let d := (Dispatch.begin t (op.layered ls) origin p).after registry impulses
      d.task.stage = .dispatching (.operation op) origin p →
      ls.getLast? ≠ some .terminal ∧ ∃ fs rest, t.frames = fs ++ rest ∧
        fs.length = ls.count .terminal ∧ (∀ f ∈ fs, f.completed = false) ∧
          ({ t with frames := rest } : Task G F M).Still d.task) ∧
    ∀ fs rest, ls.getLast? ≠ some .terminal → t.frames = fs ++ rest →
      fs.length = ls.count .terminal → (∀ f ∈ fs, f.completed = false) →
      ∃ impulses, ((Dispatch.begin t (op.layered ls) origin p).after registry impulses).task =
        ({ t with frames := rest } : Task G F M).become (.dispatching (.operation op) origin p) := by
  constructor
  · intro impulses d stage
    obtain ⟨done, todo, xs, ys, u, split, passed, peels, rest⟩ :=
      Dispatch.peels registry t op origin p ls impulses
    rcases rest with ⟨rfl, xs', t', op', ys', -, sheds, stands⟩ | ⟨more, stands⟩
    · obtain ⟨rfl, rfl⟩ := sheds.of_needy needs
      obtain ⟨fs, frames, length, running, same⟩ := peels.frames
      obtain rfl : ls = done := split.trans (List.append_nil done)
      refine ⟨peels.last_of_needy needs, fs, t'.frames, frames, length, running, ?_⟩
      exact same ▸ (stands.of_dispatching stage).2
    · cases todo with
      | nil => exact absurd rfl more
      | cons l todo =>
        have plain := Operation.needsFrame_wrap (op.layered todo) l
        rw [← (stands.of_dispatching stage).1] at needs
        exact absurd (needs.symm.trans plain) nofun
  · intro fs rest last frames length running
    obtain ⟨xs, peels⟩ := exists_peels registry op last frames length running
    obtain ⟨impulses, reached⟩ := peels.sheds.reached
    exact ⟨impulses, congrArg Dispatch.task reached⟩

/-- With `start` in between, a frame is replaced by a `fork`. -/
theorem Dispatch.comes_to_needy_behind_start :
    let caller : Frame Stub Unit Unit := ⟨⟨"caller"⟩, "caller", .clear, .ok .null, [], false, none⟩
    let t : Task Stub Unit Unit := ⟨default, false, [caller], .ok .null, .resuming⟩
    let op : Operation Stub Unit := .fork .recover
    op.needsFrame = true ∧ ∃ impulses,
      ((Dispatch.begin t (op.layered [.terminal, .start]) none .yielded).after default
        impulses).task = ({ t with frames := [] } : Task Stub Unit Unit).become
          (.dispatching (.operation op) none .yielded) :=
  ⟨rfl, (Dispatch.comes_to_needy default _ rfl [.terminal, .start] none .yielded).2 [_] []
    nofun rfl rfl (List.forall_mem_singleton.2 rfl)⟩

end Needy

/-- A task whose only frame yields a `fork` inside `start` inside `terminal` lets go of the frame and
forks. -/
theorem Dispatch.replaces_frame_by_fork :
    let caller : Stub := ⟨"caller"⟩
    let op : Operation Stub Unit := .terminal (.start (.fork .recover))
    let r : Run Stub Unit Unit := (Run.start default (.generator caller)).after default
      (.replicate 4 .move ++ [.resumed (.yielded (.operation op)) caller])
    let d := (Dispatch.begin r.task op none .yielded).after default
      (.replicate 3 .move ++ .resumed (.complete (.error .interrupted)) caller ::
        .replicate 4 .move ++ [.forked default])
    r.task.stage = .dispatching (.operation op) none .yielded ∧
      r.task.frames.map (·.generator) = [caller] ∧
      d.exchanges = [.retired caller (.complete (.error .interrupted)), .forked .recover] ∧
      d.task.frames.isEmpty ∧ d.task.root = .ok (.task default) ∧
      d.task.stage = .dispatched (.ok ()) .yielded := by
  exact ⟨rfl, rfl, rfl, rfl, rfl, rfl⟩

end EffectEngine
