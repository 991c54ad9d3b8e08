import EffectEngine.Function
import EffectEngine.Middleware.BatchTable
import EffectEngine.Proofs.Value.Keys
import Mathlib.Data.List.Nodup

/-!
# The books of a batch table

A `Book` is a table of pending batches together with the batches that were taken from it and the
calls that joined them so far. `Book.Kept` says that it is in order: every call has its place in one
batch, and each batch has one argument for each of its calls. Joining, opening, arming and taking
keep a book in order, and a batch that has been taken gets no further calls.
-/

namespace EffectEngine

/-! ### A place in a list, and the rest -/

section Rest

variable {α β : Type} {before after : List α} {a x : α}

theorem mem_place : x ∈ before ++ a :: after ↔ x = a ∨ x ∈ before ++ after :=
  List.perm_middle.mem_iff.trans List.mem_cons

theorem mem_of_rest (h : x ∈ before ++ after) : x ∈ before ++ a :: after := mem_place.2 (.inr h)

theorem rest_sublist : (before ++ after).Sublist (before ++ a :: after) :=
  (List.sublist_cons_self ..).append_left before

theorem ne_of_rest {f : α → β} (h : ((before ++ a :: after).map f).Nodup)
    (hx : x ∈ before ++ after) : f x ≠ f a := by
  rw [List.map_append, List.map_cons, List.nodup_middle, List.nodup_cons, ← List.map_append] at h
  exact fun same => h.1 (same ▸ List.mem_map_of_mem hx)

end Rest

namespace BatchTable

variable {F : Type} {t : BatchTable F} {before after : List (BatchKey × PendingBatch F)}
  {k key : BatchKey} {b b' : PendingBatch F}

/-- No two pending batches have keys that agree. -/
def Apart (t : BatchTable F) : Prop := t.pending.Pairwise fun e e' => (e.1 == e'.1) = false

/-- A key has at most one pending batch. -/
theorem find_cases (h : t.Apart) (key : BatchKey) :
    (t.find? key = none ∧ ∀ e ∈ t.pending, (e.1 == key) = false) ∨
    ∃ before k b after, t.pending = before ++ (k, b) :: after ∧ (k == key) = true ∧
      t.find? key = some b ∧ ∀ e ∈ before ++ after, (e.1 == key) = false := by
  rcases found : t.pending.find? (·.1 == key) with _ | ⟨k, b⟩
  · refine .inl ⟨by rw [find?, found]; rfl, fun e he => ?_⟩
    simpa using List.find?_eq_none.1 found e he
  · obtain ⟨agrees, before, after, split, others⟩ := List.find?_eq_some_iff_append.1 found
    refine .inr ⟨before, k, b, after, split, agrees, by rw [find?, found]; rfl, fun e he => ?_⟩
    rcases List.mem_append.1 he with he | he
    · simpa using others e he
    · have apart : (k == e.1) = false := by
        rw [Apart, split, List.pairwise_append, List.pairwise_cons] at h
        exact h.2.1.1 e he
      by_contra same
      have same : (e.1 == key) = true := by simpa using same
      rw [BEq.trans agrees (BEq.symm same)] at apart
      cases apart

section Split

variable (split : t.pending = before ++ (k, b) :: after) (agrees : (k == key) = true)
  (others : ∀ e ∈ before ++ after, (e.1 == key) = false)
include split agrees others

theorem put_of_split (found : t.find? key = some b) :
    t.put key b' = { t with pending := before ++ (k, b') :: after } := by
  have same (l : List (BatchKey × PendingBatch F)) (hl : ∀ e ∈ l, (e.1 == key) = false) :
      l.map (fun e => if e.1 == key then (e.1, b') else e) = l :=
    (List.map_congr_left fun e he => by simp [hl e he]).trans (List.map_id l)
  rw [put, found, split]
  simp [agrees, same before fun e he => others e (List.mem_append_left _ he),
    same after fun e he => others e (List.mem_append_right _ he)]

theorem filter_of_split :
    t.pending.filter (fun e => !(e.1 == key)) = before ++ after := by
  have same (l : List (BatchKey × PendingBatch F)) (hl : ∀ e ∈ l, (e.1 == key) = false) :
      l.filter (fun e => !(e.1 == key)) = l :=
    List.filter_eq_self.2 fun e he => by simp [hl e he]
  rw [split, List.filter_append, List.filter_cons_of_neg (by simp [agrees]),
    same before fun e he => others e (List.mem_append_left _ he),
    same after fun e he => others e (List.mem_append_right _ he)]

end Split

theorem put_of_none (found : t.find? key = none) :
    t.put key b' = { t with pending := t.pending ++ [(key, b')] } := by
  simp [put, found]

/-- A call joins the pending batch of its key, at the end, or opens a batch of its own. -/
theorem enqueue_cases (h : t.Apart) (key : BatchKey) (func : F) (args : List Value)
    (promise : PromiseId) :
    (∃ before k b after, t.pending = before ++ (k, b) :: after ∧ (k == key) = true ∧
      t.enqueue key func args promise = (⟨b.generation, b.args.length, b.promise⟩,
        { t with
          pending := before ++ (k, { b with args := b.args ++ [.list args] }) :: after })) ∨
    (∀ e ∈ t.pending, (e.1 == key) = false) ∧
      t.enqueue key func args promise = (⟨t.generation + 1, 0, promise⟩,
        ⟨t.generation + 1,
          t.pending ++ [(key, ⟨t.generation + 1, func, [.list args], promise, none⟩)]⟩) := by
  rcases find_cases h key with ⟨none, others⟩ | ⟨before, k, b, after, split, agrees, found, others⟩
  · refine .inr ⟨others, ?_⟩
    have fresh : (⟨t.generation + 1, t.pending⟩ : BatchTable F).find? key = Option.none := none
    simp [enqueue, join?, none, openNew, put_of_none fresh]
  · refine .inl ⟨before, k, b, after, split, agrees, ?_⟩
    simp [enqueue, join?, found, put_of_split split agrees others found]

/-- Arming installs the timer of a batch that is pending, and rejects any other. -/
theorem arm_split (h : t.Apart) (key : BatchKey) (generation : Nat) (timer : TaskId) :
    (t.arm key generation timer = (some timer, t) ∧
      ∀ e ∈ t.pending, (e.1 == key) = true → e.2.generation ≠ generation) ∨
    ∃ before k b after, t.pending = before ++ (k, b) :: after ∧ (k == key) = true ∧
      b.generation = generation ∧ t.arm key generation timer = (b.timer,
        { t with pending := before ++ (k, { b with timer := some timer }) :: after }) := by
  rcases find_cases h key with ⟨none, others⟩ | ⟨before, k, b, after, split, agrees, found, others⟩
  · exact .inl ⟨by simp [arm, none], fun e he agrees => by simp [others e he] at agrees⟩
  · by_cases current : b.generation = generation
    · refine .inr ⟨before, k, b, after, split, agrees, current, ?_⟩
      simp [arm, found, current, put_of_split split agrees others found]
    · refine .inl ⟨by simp [arm, found, current], fun e he agrees' => ?_⟩
      rw [split, List.mem_append, List.mem_cons] at he
      rcases he with he | rfl | he
      · simp [others e (List.mem_append_left _ he)] at agrees'
      · exact current
      · simp [others e (List.mem_append_right _ he)] at agrees'

/-- Arming changes at most the timer of a pending batch. -/
theorem arm_cases (h : t.Apart) (key : BatchKey) (generation : Nat) (timer : TaskId) :
    (t.arm key generation timer).2 = t ∨
    ∃ before k b after, t.pending = before ++ (k, b) :: after ∧
      (t.arm key generation timer).2 =
        { t with pending := before ++ (k, { b with timer := some timer }) :: after } := by
  rcases arm_split h key generation timer with
    ⟨rejected, -⟩ | ⟨before, k, b, after, split, -, -, armed⟩
  · exact .inl (congrArg Prod.snd rejected)
  · exact .inr ⟨before, k, b, after, split, congrArg Prod.snd armed⟩

theorem mem_take {e : BatchKey × PendingBatch F} :
    e ∈ (t.take key).2.pending ↔ e ∈ t.pending ∧ (e.1 == key) = false := by
  simp [take]

/-- Taking finds the pending batch of a key, if there is one. -/
theorem take_split (h : t.Apart) (key : BatchKey) :
    (t.take key = (none, t) ∧ ∀ e ∈ t.pending, (e.1 == key) = false) ∨
    ∃ before k b after, t.pending = before ++ (k, b) :: after ∧
      t.take key = (some b, { t with pending := before ++ after }) ∧
      ∀ e ∈ before ++ after, (e.1 == key) = false := by
  rcases find_cases h key with ⟨none, others⟩ | ⟨before, k, b, after, split, agrees, found, others⟩
  · have all : t.pending.filter (fun e => !(e.1 == key)) = t.pending :=
      List.filter_eq_self.2 fun e he => by simp [others e he]
    exact .inl ⟨by rw [take, none, all], others⟩
  · refine .inr ⟨before, k, b, after, split, ?_, others⟩
    rw [take, found, filter_of_split split agrees others]

/-- Taking removes the pending batch of a key, if there is one. -/
theorem take_cases (h : t.Apart) (key : BatchKey) :
    t.take key = (none, t) ∨
    ∃ before k b after, t.pending = before ++ (k, b) :: after ∧
      t.take key = (some b, { t with pending := before ++ after }) :=
  (take_split h key).imp And.left fun ⟨before, k, b, after, split, took, _⟩ =>
    ⟨before, k, b, after, split, took⟩

end BatchTable

namespace Batch

/-- A call that joined a batch: the underlying function, the key of the call, its arguments and its
seat. -/
structure Joined (φ κ : Type) where
  func : GeneratorFn φ κ
  key : Value
  args : List Value
  seat : BatchSeat

def Joined.batchKey {φ κ : Type} (j : Joined φ κ) : BatchKey := ⟨j.func.identity, j.key.key⟩

/-- The calls of one batch, in the order in which they joined. -/
def callsOf {φ κ : Type} (joined : List (Joined φ κ)) (generation : Nat) : List (Joined φ κ) :=
  joined.filter (·.seat.generation == generation)

/-- A table, the batches taken from it, and the calls that joined its batches. -/
structure Book (φ κ : Type) where
  table : BatchTable (GeneratorFn φ κ)
  taken : List (PendingBatch (GeneratorFn φ κ))
  joined : List (Joined φ κ)

variable {φ κ : Type} {joined : List (Joined φ κ)} {j : Joined φ κ} {k key : BatchKey}
  {b : PendingBatch (GeneratorFn φ κ)} {generation : Nat}

theorem mem_callsOf :
    j ∈ callsOf joined generation ↔ j ∈ joined ∧ j.seat.generation = generation := by
  simp [callsOf]

theorem callsOf_snoc (h : j.seat.generation = generation) :
    callsOf (joined ++ [j]) generation = callsOf joined generation ++ [j] := by
  simp [callsOf, h]

theorem callsOf_snoc_other (h : j.seat.generation ≠ generation) :
    callsOf (joined ++ [j]) generation = callsOf joined generation := by
  simp [callsOf, h]

/-- A batch serves the calls that joined it: their keys agree with that of the batch, and each call
has the argument at its index. -/
structure Serves (joined : List (Joined φ κ)) (k : BatchKey) (b : PendingBatch (GeneratorFn φ κ)) :
    Prop where
  func : k.func = b.func.identity
  calls : ∀ j ∈ callsOf joined b.generation, (k == j.batchKey) = true ∧ j.seat.promise = b.promise
  args : b.args = (callsOf joined b.generation).map (.list ·.args)
  index : (callsOf joined b.generation).map (·.seat.index) = List.range b.args.length

namespace Serves

theorem snoc_other (h : Serves joined k b) (other : j.seat.generation ≠ b.generation) :
    Serves (joined ++ [j]) k b := by
  have same : callsOf (joined ++ [j]) b.generation = callsOf joined b.generation :=
    callsOf_snoc_other other
  exact ⟨h.func, by rw [same]; exact h.calls, by rw [same]; exact h.args,
    by rw [same]; exact h.index⟩

theorem snoc (h : Serves joined k b) (agrees : (k == j.batchKey) = true)
    (seat : j.seat = ⟨b.generation, b.args.length, b.promise⟩) :
    Serves (joined ++ [j]) k { b with args := b.args ++ [.list j.args] } := by
  have calls : callsOf (joined ++ [j]) b.generation = callsOf joined b.generation ++ [j] :=
    callsOf_snoc (by rw [seat])
  refine ⟨h.func, fun j' hj => ?_, ?_, ?_⟩
  · rw [calls] at hj
    rcases List.mem_append.1 hj with old | new
    · exact h.calls j' old
    · rw [List.mem_singleton.1 new]
      exact ⟨agrees, by rw [seat]⟩
  · rw [calls, List.map_append, ← h.args]
    rfl
  · rw [calls, List.map_append, h.index, List.length_append]
    simp [seat, List.range_succ]

theorem withTimer (h : Serves joined k b) (timer : Option TaskId) :
    Serves joined k { b with timer } := ⟨h.func, h.calls, h.args, h.index⟩

end Serves

namespace Book

def batches (book : Book φ κ) : List (PendingBatch (GeneratorFn φ κ)) :=
  book.table.pending.map (·.2) ++ book.taken

/-- A book is in order. -/
structure Kept (book : Book φ κ) : Prop where
  apart : book.table.Apart
  numbered : ∀ g ∈ book.batches.map (·.generation), g ≤ book.table.generation
  distinct : (book.batches.map (·.generation)).Nodup
  pledged : (book.batches.map (·.promise)).Nodup
  pending : ∀ e ∈ book.table.pending, Serves book.joined e.1 e.2
  taken : ∀ b ∈ book.taken, ∃ k, Serves book.joined k b
  seated : ∀ j ∈ book.joined, j.seat.generation ∈ book.batches.map (·.generation)

variable {t : BatchTable (GeneratorFn φ κ)} {taken : List (PendingBatch (GeneratorFn φ κ))}
  {before after : List (BatchKey × PendingBatch (GeneratorFn φ κ))}
  {b' : PendingBatch (GeneratorFn φ κ)} {n : Nat}

theorem batches_perm (split : t.pending = before ++ (k, b) :: after) :
    (Book.mk t taken joined).batches.Perm (b :: ((before ++ after).map (·.2) ++ taken)) := by
  simp only [batches, split, List.map_append, List.map_cons, List.append_assoc, List.cons_append]
  exact List.perm_middle

theorem apart_replace (h : t.Apart) (split : t.pending = before ++ (k, b) :: after) :
    (BatchTable.mk n (before ++ (k, b') :: after)).Apart := by
  rw [BatchTable.Apart, split] at h
  simpa only [BatchTable.Apart, List.pairwise_append, List.pairwise_cons, List.mem_cons,
    forall_eq_or_imp] using h

namespace Kept

theorem empty : Kept (⟨.empty, [], []⟩ : Book φ κ) := by
  constructor <;> simp [batches, BatchTable.empty, BatchTable.Apart]

/-- All other batches have other generations. -/
theorem other (h : Kept ⟨t, taken, joined⟩) (split : t.pending = before ++ (k, b) :: after) :
    (∀ e ∈ before ++ after, e.2.generation ≠ b.generation) ∧
    ∀ b' ∈ taken, b'.generation ≠ b.generation := by
  have perm : (Book.mk t taken joined).batches.Perm _ := batches_perm split
  have distinct := (perm.map (·.generation)).nodup_iff.1 h.distinct
  rw [List.map_cons, List.nodup_cons] at distinct
  constructor
  · intro e he same
    have listed : e.2 ∈ (before ++ after).map (·.2) := List.mem_map_of_mem he
    exact distinct.1 (List.mem_map.2 ⟨e.2, List.mem_append_left _ listed, same⟩)
  · intro b' hb same
    exact distinct.1 (List.mem_map.2 ⟨b', List.mem_append_right _ hb, same⟩)

/-- The batch of a split can be replaced by one that keeps its generation and its promise. -/
theorem replace {joined' : List (Joined φ κ)} (h : Kept ⟨t, taken, joined⟩)
    (split : t.pending = before ++ (k, b) :: after) (generation : b'.generation = b.generation)
    (promise : b'.promise = b.promise) (serves : Serves joined' k b')
    (pending : ∀ e ∈ before ++ after, Serves joined' e.1 e.2)
    (held : ∀ b ∈ taken, ∃ k, Serves joined' k b)
    (seated : ∀ j ∈ joined', j ∈ joined ∨ j.seat.generation = b.generation) :
    Kept ⟨{ t with pending := before ++ (k, b') :: after }, taken, joined'⟩ := by
  let book : Book φ κ := ⟨{ t with pending := before ++ (k, b') :: after }, taken, joined'⟩
  have generations : book.batches.map (·.generation) =
      (Book.mk t taken joined).batches.map (·.generation) := by
    simp [book, batches, split, generation]
  have promises : book.batches.map (·.promise) =
      (Book.mk t taken joined).batches.map (·.promise) := by
    simp [book, batches, split, promise]
  exact
    { apart := apart_replace h.apart split
      numbered := by
        rw [generations]
        exact h.numbered
      distinct := by
        rw [generations]
        exact h.distinct
      pledged := by
        rw [promises]
        exact h.pledged
      pending := by
        intro e he
        rcases mem_place.1 he with rfl | he
        · exact serves
        · exact pending e he
      taken := held
      seated := by
        intro j hj
        rw [generations]
        rcases seated j hj with old | new
        · exact h.seated j old
        · rw [new]
          exact List.mem_map.2 ⟨b, (batches_perm split).mem_iff.2 List.mem_cons_self, rfl⟩ }

theorem join (h : Kept ⟨t, taken, joined⟩) (split : t.pending = before ++ (k, b) :: after)
    (agrees : (k == j.batchKey) = true)
    (seat : j.seat = ⟨b.generation, b.args.length, b.promise⟩) :
    Kept ⟨{ t with
      pending := before ++ (k, { b with args := b.args ++ [.list j.args] }) :: after }, taken,
      joined ++ [j]⟩ := by
  obtain ⟨others, held⟩ := h.other split
  have generation : j.seat.generation = b.generation := by rw [seat]
  have served : Serves joined k b := h.pending (k, b) (by rw [split]; simp)
  refine h.replace split rfl rfl (served.snoc agrees seat) ?_ ?_ ?_
  · intro e he
    have pending : e ∈ t.pending := split ▸ mem_of_rest he
    refine (h.pending e pending).snoc_other ?_
    rw [generation]
    exact (others e he).symm
  · intro b' hb
    obtain ⟨k', serves⟩ := h.taken b' hb
    refine ⟨k', serves.snoc_other ?_⟩
    rw [generation]
    exact (held b' hb).symm
  · intro j' hj
    rcases List.mem_append.1 hj with old | new
    · exact .inl old
    · rw [List.mem_singleton.1 new]
      exact .inr generation

theorem withTimer (h : Kept ⟨t, taken, joined⟩) (split : t.pending = before ++ (k, b) :: after)
    (timer : Option TaskId) :
    Kept ⟨{ t with pending := before ++ (k, { b with timer }) :: after }, taken, joined⟩ := by
  have served : Serves joined k b := h.pending (k, b) (by rw [split]; simp)
  refine h.replace split rfl rfl (served.withTimer timer) ?_ h.taken fun j hj => .inl hj
  exact fun e he => h.pending e (split ▸ mem_of_rest he)

theorem callsOf_next (h : Kept ⟨t, taken, joined⟩) : callsOf joined (t.generation + 1) = [] := by
  refine List.eq_nil_iff_forall_not_mem.2 fun j hj => ?_
  obtain ⟨hj, generation⟩ := mem_callsOf.1 hj
  have := h.numbered _ (h.seated j hj)
  simp only [generation] at this
  omega

theorem opened (h : Kept ⟨t, taken, joined⟩)
    (alone : ∀ e ∈ t.pending, (e.1 == j.batchKey) = false) {promise : PromiseId}
    (seat : j.seat = ⟨t.generation + 1, 0, promise⟩)
    (fresh : promise ∉ (Book.mk t taken joined).batches.map (·.promise)) :
    Kept ⟨⟨t.generation + 1, t.pending ++
      [(j.batchKey, ⟨t.generation + 1, j.func, [.list j.args], promise, none⟩)]⟩, taken,
      joined ++ [j]⟩ := by
  let new : PendingBatch (GeneratorFn φ κ) :=
    ⟨t.generation + 1, j.func, [.list j.args], promise, none⟩
  let book : Book φ κ :=
    ⟨⟨t.generation + 1, t.pending ++ [(j.batchKey, new)]⟩, taken, joined ++ [j]⟩
  have generation : j.seat.generation = t.generation + 1 := by rw [seat]
  have older : ∀ g ∈ (Book.mk t taken joined).batches.map (·.generation), g ≤ t.generation :=
    h.numbered
  have perm : book.batches.Perm (new :: (Book.mk t taken joined).batches) := by
    simp only [book, batches, List.map_append, List.append_assoc]
    exact List.perm_middle
  have generations := perm.map (·.generation)
  have serves_other {k : BatchKey} {b : PendingBatch (GeneratorFn φ κ)}
      (hb : b ∈ (Book.mk t taken joined).batches) (serves : Serves joined k b) :
      Serves (joined ++ [j]) k b := by
    refine serves.snoc_other ?_
    have := older _ (List.mem_map_of_mem hb)
    omega
  exact
    { apart := by
        refine List.pairwise_append.2 ⟨h.apart, List.pairwise_singleton .., fun e he e' he' => ?_⟩
        rw [List.mem_singleton.1 he']
        exact alone e he
      numbered := by
        intro g hg
        rcases List.mem_cons.1 (generations.mem_iff.1 hg) with rfl | hg
        · exact Nat.le_refl _
        · exact Nat.le_succ_of_le (older g hg)
      distinct := by
        refine generations.nodup_iff.2 (List.nodup_cons.2 ⟨fun hg => ?_, h.distinct⟩)
        have : t.generation + 1 ≤ t.generation := older _ hg
        omega
      pledged := (perm.map (·.promise)).nodup_iff.2 (List.nodup_cons.2 ⟨fresh, h.pledged⟩)
      pending := by
        intro e he
        rcases List.mem_append.1 he with he | he
        · exact serves_other (List.mem_append_left _ (List.mem_map_of_mem he)) (h.pending e he)
        · rw [List.mem_singleton.1 he]
          have calls : callsOf (joined ++ [j]) (t.generation + 1) = [j] := by
            rw [callsOf_snoc generation, h.callsOf_next, List.nil_append]
          refine ⟨rfl, ?_, ?_, ?_⟩ <;> simp [calls, seat, List.range_succ]
      taken := by
        intro b hb
        obtain ⟨k, serves⟩ := h.taken b hb
        exact ⟨k, serves_other (List.mem_append_right _ hb) serves⟩
      seated := by
        intro j' hj
        refine generations.mem_iff.2 ?_
        rcases List.mem_append.1 hj with old | new
        · exact List.mem_cons_of_mem _ (h.seated j' old)
        · rw [List.mem_singleton.1 new, generation]
          exact List.mem_cons_self }

/-- A batch that leaves the table and all others keep their calls. -/
theorem remove (h : Kept ⟨t, taken, joined⟩) (split : t.pending = before ++ (k, b) :: after) :
    Kept ⟨{ t with pending := before ++ after }, taken ++ [b], joined⟩ := by
  have perm : (Book.mk { t with pending := before ++ after } (taken ++ [b]) joined).batches.Perm
      (Book.mk t taken joined).batches := by
    refine List.Perm.trans ?_ (batches_perm split).symm
    simp only [batches, ← List.append_assoc]
    exact List.perm_append_singleton ..
  have generations := perm.map (·.generation)
  refine ⟨?_, fun g hg => h.numbered g (generations.mem_iff.1 hg),
    generations.nodup_iff.2 h.distinct, (perm.map (·.promise)).nodup_iff.2 h.pledged,
    fun e he => h.pending e (split ▸ mem_of_rest he), ?_,
    fun j hj => generations.mem_iff.2 (h.seated j hj)⟩
  · have apart := h.apart
    rw [BatchTable.Apart, split] at apart
    exact apart.sublist rest_sublist
  · intro b' hb
    rcases List.mem_append.1 hb with old | new
    · exact h.taken b' old
    · rw [List.mem_singleton.1 new]
      exact ⟨k, h.pending (k, b) (by rw [split]; simp)⟩

/-- A call that joins gets a place in a batch that has not been taken, or in a new one with the
given promise. -/
theorem enqueue (h : Kept ⟨t, taken, joined⟩) (func : GeneratorFn φ κ) (key : Value)
    (args : List Value) {promise : PromiseId}
    (fresh : promise ∉ (Book.mk t taken joined).batches.map (·.promise)) :
    let placed := t.enqueue ⟨func.identity, key.key⟩ func args promise
    let joined' := joined ++ [⟨func, key, args, placed.1⟩]
    Kept ⟨placed.2, taken, joined'⟩ ∧
    (∀ b ∈ taken, callsOf joined' b.generation = callsOf joined b.generation) ∧
    ∀ p ∈ placed.2.pending.map (·.2.promise), p ∈ t.pending.map (·.2.promise) ∨ p = promise := by
  intro placed joined'
  simp only [joined', placed]
  rcases BatchTable.enqueue_cases h.apart ⟨func.identity, key.key⟩ func args promise with
    ⟨before, k, b, after, split, agrees, joins⟩ | ⟨alone, opens⟩
  · rw [joins]
    refine ⟨h.join (j := ⟨func, key, args, _⟩) split agrees rfl, fun b' hb => ?_, fun p hp => ?_⟩
    · exact callsOf_snoc_other ((h.other split).2 b' hb).symm
    · refine .inl ?_
      rw [split]
      simpa only [List.map_append, List.map_cons] using hp
  · rw [opens]
    refine ⟨h.opened (j := ⟨func, key, args, _⟩) alone rfl fresh, fun b hb => ?_, fun p hp => ?_⟩
    · refine callsOf_snoc_other fun same => ?_
      have := h.numbered b.generation (List.mem_map_of_mem (List.mem_append_right _ hb))
      simp only [← same] at this
      omega
    · simpa using hp

/-- Arming a timer changes neither calls nor promises. -/
theorem arm (h : Kept ⟨t, taken, joined⟩) (key : BatchKey) (generation : Nat) (timer : TaskId) :
    let t' := (t.arm key generation timer).2
    Kept ⟨t', taken, joined⟩ ∧ t'.pending.map (·.2.promise) = t.pending.map (·.2.promise) := by
  intro t'
  rcases BatchTable.arm_cases h.apart key generation timer with
    same | ⟨before, k, b, after, split, armed⟩
  · rw [show t' = t from same]
    exact ⟨h, rfl⟩
  · rw [show t' = _ from armed]
    refine ⟨h.withTimer split (some timer), ?_⟩
    rw [split]
    simp only [List.map_append, List.map_cons]

/-- Taking moves a pending batch, if there is one for the key, to those that have been taken. -/
theorem take (h : Kept ⟨t, taken, joined⟩) (key : BatchKey) :
    let found := t.take key
    Kept ⟨found.2, taken ++ found.1.toList, joined⟩ ∧
    (∀ e ∈ found.2.pending, e ∈ t.pending) ∧ ∀ b ∈ found.1, ∃ k, (k, b) ∈ t.pending := by
  intro found
  simp only [found]
  rcases BatchTable.take_cases h.apart key with none | ⟨before, k, b, after, split, took⟩
  · rw [none]
    exact ⟨by simpa using h, fun e he => he, nofun⟩
  · rw [took]
    refine ⟨h.remove split, fun e he => split ▸ mem_of_rest he, fun b' hb => ⟨k, ?_⟩⟩
    rw [split, ← Option.some.inj hb]
    simp

/-- Two calls are in one batch only if they are calls of the same function with keys that agree. -/
theorem grouped (h : Kept ⟨t, taken, joined⟩) {j j' : Joined φ κ} (hj : j ∈ joined)
    (hj' : j' ∈ joined) (same : j.seat.generation = j'.seat.generation) :
    (j.batchKey == j'.batchKey) = true := by
  obtain ⟨b, hb, generation⟩ := List.mem_map.1 (h.seated j hj)
  have grouped {k : BatchKey} (serves : Serves joined k b) :
      (j.batchKey == j'.batchKey) = true := by
    have agrees := (serves.calls j (mem_callsOf.2 ⟨hj, generation.symm⟩)).1
    have agrees' := (serves.calls j' (mem_callsOf.2 ⟨hj', (generation.trans same).symm⟩)).1
    exact BEq.trans (BEq.symm agrees) agrees'
  rcases List.mem_append.1 hb with hb | hb
  · obtain ⟨e, he, rfl⟩ := List.mem_map.1 hb
    exact grouped (h.pending e he)
  · obtain ⟨k, serves⟩ := h.taken b hb
    exact grouped serves

end Kept

end Book

end Batch

end EffectEngine
