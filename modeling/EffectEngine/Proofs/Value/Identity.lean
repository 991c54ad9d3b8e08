import EffectEngine.Proofs.Value.Keys
import Mathlib.Data.List.Forall2

/-!
# Which errors are the same

`Error.Matches` says that two errors are of one variant and equal field by field. `Error.same` looks
at texts instead of fields, and in the text of an error with two fields one can run over into the
other (`Error.Blurs`). Errors are the same exactly if they match up to this
(`Error.same_iff_matches`), and so are the errors in values that are equal or one key of a batch
(`Error.Identification`).
-/

namespace EffectEngine

/-! ### Texts with a separator -/

/-- If a text is divided in two ways, one of its first parts is the longer one. -/
theorem divided_cases {a b c d : String} (h : a ++ b = c ++ d) :
    (∃ extra, c = a ++ extra ∧ b = extra ++ d) ∨ ∃ extra, a = c ++ extra ∧ d = extra ++ b := by
  rw [← String.toList_inj, String.toList_append, String.toList_append,
    List.append_eq_append_iff] at h
  rcases h with ⟨extra, hc, hb⟩ | ⟨extra, ha, hd⟩
  · refine .inl ⟨String.ofList extra, ?_, ?_⟩ <;>
      rw [← String.toList_inj, String.toList_append, String.toList_ofList] <;> assumption
  · refine .inr ⟨String.ofList extra, ?_, ?_⟩ <;>
      rw [← String.toList_inj, String.toList_append, String.toList_ofList] <;> assumption

/-- Two colons in a text do not overlap. -/
theorem colon_cases {extra v v' : String} (h : ": " ++ v = extra ++ (": " ++ v')) :
    (extra = "" ∧ v = v') ∨ ∃ inner, extra = ": " ++ inner ∧ v = inner ++ ": " ++ v' := by
  simp only [← String.toList_inj, String.toList_append] at h ⊢
  generalize extra.toList = cs at h ⊢
  match cs, h with
  | [], h => exact .inl ⟨rfl, by simpa using h⟩
  | [_], h => simp at h
  | c :: d :: rest, h =>
    simp only [String.reduceToList, List.cons_append, List.nil_append, List.cons.injEq] at h
    obtain ⟨rfl, rfl, h⟩ := h
    exact .inr ⟨String.ofList rest, by simp, by simpa using h⟩

/-- Two separators between quoted words in a text can overlap by a quote. -/
theorem quote_cases {extra v v' : String} (h : "\", got \"" ++ v = extra ++ ("\", got \"" ++ v')) :
    (extra = "" ∧ v = v') ∨
      (∃ inner, extra = "\", got \"" ++ inner ∧ v = inner ++ "\", got \"" ++ v') ∨
      extra = "\", got " ∧ v = ", got \"" ++ v' := by
  simp only [← String.toList_inj, String.toList_append] at h ⊢
  generalize extra.toList = cs at h ⊢
  match cs, h with
  | [], h => exact .inl ⟨rfl, by simpa using h⟩
  | [_], h | [_, _], h | [_, _, _], h | [_, _, _, _], h | [_, _, _, _, _], h
  | [_, _, _, _, _, _], h => simp at h
  | [c₁, c₂, c₃, c₄, c₅, c₆, c₇], h =>
    simp only [String.reduceToList, List.cons_append, List.nil_append, List.cons.injEq] at h
    obtain ⟨rfl, rfl, rfl, rfl, rfl, rfl, rfl, -, h⟩ := h
    exact .inr (.inr ⟨by simp, by simpa using h⟩)
  | c₁ :: c₂ :: c₃ :: c₄ :: c₅ :: c₆ :: c₇ :: c₈ :: rest, h =>
    simp only [String.reduceToList, List.cons_append, List.nil_append, List.cons.injEq] at h
    obtain ⟨rfl, rfl, rfl, rfl, rfl, rfl, rfl, rfl, h⟩ := h
    exact .inr (.inl ⟨String.ofList rest, by simp, by simpa using h⟩)

namespace Error

/-! ### Equality by fields and by text -/

/-- Two errors are of one variant and their fields are equal, those of nested errors in turn;
failures of application code are one failure. Other errors that are `alike` pass too. -/
inductive Matches (alike : Error → Error → Prop) : Error → Error → Prop
  | nextOutsideHandler : Matches alike nextOutsideHandler nextOutsideHandler
  | nextKindMismatch (expected got : String) :
    Matches alike (nextKindMismatch expected got) (nextKindMismatch expected got)
  | unrecognizedOperation (kind : String) :
    Matches alike (unrecognizedOperation kind) (unrecognizedOperation kind)
  | forbiddenTerminal (kind : String) :
    Matches alike (forbiddenTerminal kind) (forbiddenTerminal kind)
  | usage (operation message : String) :
    Matches alike (usage operation message) (usage operation message)
  | cancelled : Matches alike cancelled cancelled
  | interrupted : Matches alike interrupted interrupted
  | cancelFailed {a b : Error} (error : Matches alike a b) :
    Matches alike (cancelFailed a) (cancelFailed b)
  | deferred {a b x y : Error} (error : Matches alike a b) (masked : Matches alike x y) :
    Matches alike (deferred a x) (deferred b y)
  | panicked (message : String) : Matches alike (panicked message) (panicked message)
  | application (f g : Failure) (one : f.id = g.id) :
    Matches alike (application f) (application g)
  | alike {a b : Error} (h : alike a b) : Matches alike a b

/-- Equality field by field. -/
def SameFields : Error → Error → Prop := Matches fun _ _ => False

/-- Two errors read alike although their fields differ: what one has at the end of its first field,
the other has at the beginning of its second. -/
inductive Blurs : Error → Error → Prop
  | usage (operation inner message : String) :
    Blurs (usage operation (inner ++ ": " ++ message)) (usage (operation ++ ": " ++ inner) message)
  | mismatch (expected inner got : String) :
    Blurs (nextKindMismatch expected (inner ++ "\", got \"" ++ got))
      (nextKindMismatch (expected ++ "\", got \"" ++ inner) got)
  /-- The quote that ends one separator begins the other. -/
  | overlap (expected got : String) :
    Blurs (nextKindMismatch expected (", got \"" ++ got))
      (nextKindMismatch (expected ++ "\", got ") got)

/-- One of the two errors blurs into the other. -/
def Confusable (a b : Error) : Prop := a.Blurs b ∨ b.Blurs a

theorem message_nextKindMismatch (expected got : String) :
    (nextKindMismatch expected got).message =
      "next: operation kind mismatch, expected \"" ++ expected ++ "\", got \"" ++ got ++ "\"" := rfl

theorem message_unrecognizedOperation (kind : String) :
    (unrecognizedOperation kind).message = "unrecognized operation kind \"" ++ kind ++ "\"" := rfl

theorem message_forbiddenTerminal (kind : String) :
    (forbiddenTerminal kind).message =
      "terminal: " ++ kind ++ " operations cannot be terminal" := rfl

theorem message_usage (operation message : String) :
    (usage operation message).message = operation ++ ": " ++ message := rfl

theorem message_panicked (text : String) :
    (panicked text).message = "task panicked: " ++ text := rfl

variable {a b : Error}

theorem Blurs.trait_eq (h : a.Blurs b) : a.trait = b.trait := by
  cases h with
  | usage => simp only [trait, message_usage, String.append_assoc]
  | mismatch => simp only [trait, message_nextKindMismatch, String.append_assoc]
  | overlap =>
    refine congrArg (Trait.plain _) (String.toList_inj.1 ?_)
    simp [message_nextKindMismatch]

theorem matches_usage {o m o' m' : String} (h : (usage o m).message = (usage o' m').message) :
    Matches Confusable (usage o m) (usage o' m') := by
  rw [message_usage, message_usage, String.append_assoc, String.append_assoc] at h
  rcases divided_cases h with ⟨extra, rfl, rest⟩ | ⟨extra, rfl, rest⟩
  · rcases colon_cases rest with ⟨rfl, rfl⟩ | ⟨inner, rfl, rfl⟩
    · rw [String.append_empty]
      exact .usage o m
    · rw [← String.append_assoc]
      exact .alike (.inl (.usage o inner m'))
  · rcases colon_cases rest with ⟨rfl, rfl⟩ | ⟨inner, rfl, rfl⟩
    · rw [String.append_empty]
      exact .usage o' m'
    · rw [← String.append_assoc]
      exact .alike (.inr (.usage o' inner m))

theorem matches_nextKindMismatch {e g e' g' : String}
    (h : (nextKindMismatch e g).message = (nextKindMismatch e' g').message) :
    Matches Confusable (nextKindMismatch e g) (nextKindMismatch e' g') := by
  simp only [message_nextKindMismatch, String.append_left_inj] at h
  simp only [String.append_assoc, String.append_right_inj] at h
  rcases divided_cases h with ⟨extra, rfl, rest⟩ | ⟨extra, rfl, rest⟩
  · rcases quote_cases rest with ⟨rfl, rfl⟩ | ⟨inner, rfl, rfl⟩ | ⟨rfl, rfl⟩
    · rw [String.append_empty]
      exact .nextKindMismatch e g
    · rw [← String.append_assoc]
      exact .alike (.inl (.mismatch e inner g'))
    · exact .alike (.inl (.overlap e g'))
  · rcases quote_cases rest with ⟨rfl, rfl⟩ | ⟨inner, rfl, rfl⟩ | ⟨rfl, rfl⟩
    · rw [String.append_empty]
      exact .nextKindMismatch e' g'
    · rw [← String.append_assoc]
      exact .alike (.inr (.mismatch e' inner g))
    · exact .alike (.inr (.overlap e' g))

theorem trait_eq_of_matches (h : Matches Confusable a b) : a.trait = b.trait := by
  induction h with
  | alike h => exact h.elim (·.trait_eq) (·.trait_eq.symm)
  | application f g one => simp only [trait, one]
  | cancelFailed _ ih => simp only [trait, ih]
  | deferred _ _ ihe ihm => simp only [trait, ihe, ihm]
  | _ => rfl

theorem matches_of_trait_eq (h : a.trait = b.trait) : Matches Confusable a b := by
  induction a generalizing b with
  | cancelFailed a ih =>
    cases b with
    | cancelFailed b => exact .cancelFailed (ih (Trait.cancelFailed.inj h))
    | _ => cases h
  | deferred a x ihe ihm =>
    cases b with
    | deferred b y =>
      obtain ⟨error, masked⟩ := Trait.deferred.inj h
      exact .deferred (ihe error) (ihm masked)
    | _ => cases h
  | application f =>
    cases b with
    | application g => exact .application f g (Trait.application.inj h)
    | _ => cases h
  | nextOutsideHandler =>
    cases b with
    | nextOutsideHandler => exact .nextOutsideHandler
    | _ => cases h
  | nextKindMismatch e g =>
    cases b with
    | nextKindMismatch e' g' => exact matches_nextKindMismatch (Trait.plain.inj h).2
    | _ => cases h
  | unrecognizedOperation k =>
    cases b with
    | unrecognizedOperation k' =>
      have text := (Trait.plain.inj h).2
      simp only [message_unrecognizedOperation, String.append_left_inj,
        String.append_right_inj] at text
      exact text ▸ .unrecognizedOperation k
    | _ => cases h
  | forbiddenTerminal k =>
    cases b with
    | forbiddenTerminal k' =>
      have text := (Trait.plain.inj h).2
      simp only [message_forbiddenTerminal, String.append_left_inj,
        String.append_right_inj] at text
      exact text ▸ .forbiddenTerminal k
    | _ => cases h
  | usage o m =>
    cases b with
    | usage o' m' => exact matches_usage (Trait.plain.inj h).2
    | _ => cases h
  | cancelled =>
    cases b with
    | cancelled => exact .cancelled
    | _ => cases h
  | interrupted =>
    cases b with
    | interrupted => exact .interrupted
    | _ => cases h
  | panicked m =>
    cases b with
    | panicked m' =>
      have text := (Trait.plain.inj h).2
      simp only [message_panicked, String.append_right_inj] at text
      exact text ▸ .panicked m
    | _ => cases h

/-- Errors are the same exactly if they match field by field, or else read alike. -/
theorem same_iff_matches : a.same b = true ↔ Matches Confusable a b :=
  same_iff_trait.trans ⟨matches_of_trait_eq, trait_eq_of_matches⟩

/-! ### What is never confused -/

theorem SameFields.usage_eq {o m o' m' : String} (h : (usage o m).SameFields (usage o' m')) :
    o = o' ∧ m = m' := by
  cases h with
  | usage => exact ⟨rfl, rfl⟩
  | alike h => exact h.elim

theorem SameFields.nextKindMismatch_eq {e g e' g' : String}
    (h : (nextKindMismatch e g).SameFields (nextKindMismatch e' g')) : e = e' ∧ g = g' := by
  cases h with
  | nextKindMismatch => exact ⟨rfl, rfl⟩
  | alike h => exact h.elim

/-- Errors that read alike by accident differ in their fields. -/
theorem Confusable.not_sameFields (h : Confusable a b) : ¬ a.SameFields b := by
  intro same
  rcases h with h | h <;> cases h with
  | usage => exact absurd (congrArg String.toList same.usage_eq.1) (by simp)
  | mismatch | overlap =>
    exact absurd (congrArg String.toList same.nextKindMismatch_eq.1) (by simp)

/-- No field of an error holds the text that separates it from the next one. -/
def Crisp : Error → Prop
  | usage operation _ => ':' ∉ operation.toList
  | nextKindMismatch expected _ => '"' ∉ expected.toList
  | cancelFailed error => error.Crisp
  | deferred error masked => error.Crisp ∧ masked.Crisp
  | _ => True

theorem Blurs.not_crisp (h : a.Blurs b) : ¬ b.Crisp := by
  cases h <;> simp [Crisp]

theorem Confusable.not_crisp (h : Confusable a b) (ha : a.Crisp) : ¬ b.Crisp :=
  h.elim (·.not_crisp) fun blurs _ => blurs.not_crisp ha

/-- What passes as alike may be replaced by something else, for errors that have a property which
nested errors inherit. -/
theorem Matches.imp {p : Error → Prop} {alike alike' : Error → Error → Prop}
    (inside : ∀ {e : Error}, p (.cancelFailed e) → p e)
    (both : ∀ {e m : Error}, p (.deferred e m) → p e ∧ p m)
    (imp : ∀ {a b : Error}, p a → p b → alike a b → alike' a b) (h : Matches alike a b)
    (ha : p a) (hb : p b) : Matches alike' a b := by
  induction h with
  | nextOutsideHandler => exact .nextOutsideHandler
  | nextKindMismatch expected got => exact .nextKindMismatch expected got
  | unrecognizedOperation kind => exact .unrecognizedOperation kind
  | forbiddenTerminal kind => exact .forbiddenTerminal kind
  | usage operation message => exact .usage operation message
  | cancelled => exact .cancelled
  | interrupted => exact .interrupted
  | cancelFailed _ error => exact .cancelFailed (error (inside ha) (inside hb))
  | deferred _ _ error masked =>
    exact .deferred (error (both ha).1 (both hb).1) (masked (both ha).2 (both hb).2)
  | panicked message => exact .panicked message
  | application f g one => exact .application f g one
  | alike h => exact .alike (imp ha hb h)

theorem SameFields.same (h : a.SameFields b) : a.same b = true :=
  same_iff_matches.2 <| Matches.imp (p := fun _ => True) (fun _ => trivial)
    (fun _ => ⟨trivial, trivial⟩) (fun _ _ h => h.elim) h trivial trivial

theorem Matches.sameFields (h : Matches Confusable a b) (ha : a.Crisp) (hb : b.Crisp) :
    a.SameFields b :=
  Matches.imp (p := Crisp) id id (fun ha hb h => absurd hb (h.not_crisp ha)) h ha hb

end Error

/-! ### Values and keys -/

namespace Value

mutual

/-- The errors in a value, in order. -/
def errors : Value → List Error
  | error e => [e]
  | list items => errorsAll items
  | _ => []

def errorsAll : List Value → List Error
  | [] => []
  | v :: vs => errors v ++ errorsAll vs

end

/-- A test for equality that looks into lists and compares errors by `Error.same`. -/
structure Discerning (alike : Value → Value → Bool) : Prop where
  typed : ∀ {v w : Value}, alike v w = true → v.typeName = w.typeName
  items : ∀ {vs ws : List Value}, alike (list vs) (list ws) = true →
    List.Forall₂ (fun v w => alike v w = true) vs ws
  same : ∀ {a b : Error}, alike (error a) (error b) = true → a.same b = true

mutual

/-- Values that pass hold the same errors at the same places. -/
theorem Discerning.errors_same {alike : Value → Value → Bool} (h : Discerning alike) :
    (v w : Value) → alike v w = true →
    List.Forall₂ (fun a b => a.same b = true) v.errors w.errors
  | list vs, w, passes => by
    cases w with
    | list ws => exact h.errorsAll_same vs ws (h.items passes)
    | _ => exact absurd (h.typed passes) (by simp [typeName])
  | error a, w, passes => by
    cases w with
    | error b => exact .cons (h.same passes) .nil
    | _ => exact absurd (h.typed passes) (by simp [typeName])
  | null, w, passes | bool _, w, passes | int _, w, passes | float _, w, passes
  | str _, w, passes | task _, w, passes | .sealed .., w, passes => by
    cases w with
    | list | error => exact absurd (h.typed passes) (by simp [typeName])
    | _ => exact .nil

theorem Discerning.errorsAll_same {alike : Value → Value → Bool} (h : Discerning alike) :
    (vs ws : List Value) → List.Forall₂ (fun v w => alike v w = true) vs ws →
    List.Forall₂ (fun a b => a.same b = true) (errorsAll vs) (errorsAll ws)
  | [], _, .nil => .nil
  | v :: vs, w :: ws, .cons first rest =>
    List.rel_append (h.errors_same v w first) (h.errorsAll_same vs ws rest)

end

theorem discerning_eq : Discerning eq where
  typed {v w} passes := by
    cases v <;> cases w <;> first | rfl | cases passes
  items {vs ws} passes := by
    simp only [eq] at passes
    induction vs generalizing ws with
    | nil =>
      cases ws with
      | nil => exact .nil
      | cons => cases passes
    | cons v vs ih =>
      cases ws with
      | nil => cases passes
      | cons w ws =>
        simp only [eqAll, Bool.and_eq_true] at passes
        exact .cons passes.1 (ih passes.2)
  same passes := passes

theorem discerning_key : Discerning fun v w => v.key == w.key where
  typed {v w} passes := by
    cases v <;> cases w <;> first | rfl | cases passes
  items {vs ws} passes := by
    change KeyPart.agreeAll (keys vs) (keys ws) = true at passes
    induction vs generalizing ws with
    | nil =>
      cases ws with
      | nil => exact .nil
      | cons => cases passes
    | cons v vs ih =>
      cases ws with
      | nil => cases passes
      | cons w ws =>
        simp only [keys, KeyPart.agreeAll, Bool.and_eq_true] at passes
        exact .cons passes.1 (ih passes.2)
  same passes := passes

end Value

/-! ### What equality of errors tells apart -/

/-- Equality of errors is meant to go by variant and fields. It goes by variant and text. This is
what it then says about two errors, and about the errors in two values. -/
structure Error.Identification (a b : Error) (v w : Value) : Prop where
  /-- Errors that are equal field by field are the same. -/
  of_fields : a.SameFields b → a.same b = true
  /-- Errors are the same exactly if they are equal field by field, up to errors inside them that
  read alike, -/
  exactly : a.same b = true ↔ Matches Confusable a b
  /-- and these do differ in a field. -/
  confused : Confusable a b → ¬ a.SameFields b
  /-- Without separators inside their fields, errors are the same exactly if they are equal field by
  field. -/
  crisp : a.Crisp → b.Crisp → (a.same b = true ↔ a.SameFields b)
  /-- For errors as values there is no other condition, -/
  value : (Value.error a == Value.error b) = true ↔ Matches Confusable a b
  /-- and none for errors as keys of one function's batch. -/
  key : ∀ f : Nat, ((⟨f, (Value.error a).key⟩ : BatchKey) == ⟨f, (Value.error b).key⟩) = true ↔
    Matches Confusable a b
  /-- Equal values hold, at the same places, errors that are the same, -/
  values : (v == w) = true → List.Forall₂ (Matches Confusable) v.errors w.errors
  /-- and so do values that are one key of a batch. -/
  keys : ∀ f g : Nat, ((⟨f, v.key⟩ : BatchKey) == ⟨g, w.key⟩) = true →
    List.Forall₂ (Matches Confusable) v.errors w.errors

theorem Error.same_by_fields_or_text (a b : Error) (v w : Value) :
    Error.Identification a b v w where
  of_fields := SameFields.same
  exactly := same_iff_matches
  confused := Confusable.not_sameFields
  crisp ha hb := ⟨fun h => (same_iff_matches.1 h).sameFields ha hb, SameFields.same⟩
  value := same_iff_matches
  key f := by
    rw [BatchKey.beq_iff]
    exact (and_iff_right rfl).trans same_iff_matches
  values equal :=
    (Value.discerning_eq.errors_same v w equal).imp fun _ _ => same_iff_matches.1
  keys f g equal :=
    (Value.discerning_key.errors_same v w (BatchKey.beq_iff.1 equal).2).imp
      fun _ _ => same_iff_matches.1

/-- Two errors of one variant that differ in both fields, and are one error, one value and one key
of a batch. -/
theorem Error.reads_alike :
    let a : Error := .nextKindMismatch "a\", got \"b" "c"
    let b : Error := .nextKindMismatch "a" "b\", got \"c"
    ¬ a.SameFields b ∧ a.same b = true ∧ (Value.error a == Value.error b) = true ∧
      ((⟨0, (Value.error a).key⟩ : BatchKey) == ⟨0, (Value.error b).key⟩) = true := by
  refine ⟨fun same => ?_, by decide, by decide, by decide⟩
  exact absurd same.nextKindMismatch_eq.1 (by decide)

end EffectEngine
