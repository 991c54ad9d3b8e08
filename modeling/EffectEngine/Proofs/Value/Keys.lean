import EffectEngine.Value
import Mathlib.Logic.Basic

/-!
# Keys that group together

Agreement of keys is an equivalence, so that calls whose keys agree with that of a batch agree with
each other. Errors are the same failure exactly if they have the same `Error.trait`, and keys agree
exactly if they have the same `KeyPart.trait`.
-/

namespace EffectEngine

namespace Error

/-- What errors have in common that are the same failure. -/
inductive Trait where
  | application (id : Nat)
  | cancelFailed (error : Trait)
  | deferred (error masked : Trait)
  | plain (kind : Plain) (message : String)

def trait : Error → Trait
  | application failure => .application failure.id
  | cancelFailed error => .cancelFailed error.trait
  | deferred error masked => .deferred error.trait masked.trait
  | e@nextOutsideHandler => .plain .nextOutsideHandler e.message
  | e@(nextKindMismatch ..) => .plain .nextKindMismatch e.message
  | e@(unrecognizedOperation _) => .plain .unrecognizedOperation e.message
  | e@(forbiddenTerminal _) => .plain .forbiddenTerminal e.message
  | e@(usage ..) => .plain .usage e.message
  | e@cancelled => .plain .cancelled e.message
  | e@interrupted => .plain .interrupted e.message
  | e@(panicked _) => .plain .panicked e.message

theorem same_iff_trait {a b : Error} : a.same b = true ↔ a.trait = b.trait := by
  induction a generalizing b with
  | cancelFailed a ih => cases b <;> simp [same, trait, plain?, ih]
  | deferred a x iha ihx => cases b <;> simp [same, trait, plain?, iha, ihx]
  | _ => cases b <;> simp [same, trait, plain?]

end Error

namespace KeyPart

/-- What keys have in common that group together. -/
inductive Trait where
  | null
  | bool (b : Bool)
  | int (i : Int64)
  | float (bits : UInt64)
  | str (s : String)
  | list (items : List Trait)
  | task (id : TaskId)
  | error (e : Error.Trait)
  | sealed (id : Nat)

mutual

def trait : KeyPart → Trait
  | null => .null
  | bool b => .bool b
  | int i => .int i
  | float bits => .float bits
  | str s => .str s
  | list items => .list (traits items)
  | task id => .task id
  | error e => .error e.trait
  | sealed id => .sealed id

def traits : List KeyPart → List Trait
  | [] => []
  | k :: ks => trait k :: traits ks

end

mutual

theorem agrees_iff_trait : (a b : KeyPart) → (a.agrees b = true ↔ a.trait = b.trait)
  | list as, b => by
    cases b with
    | list bs => simpa only [agrees, trait, Trait.list.injEq] using agreeAll_iff_traits as bs
    | _ => simp [agrees, trait]
  | error a, b => by cases b <;> simp [agrees, trait, Error.same_iff_trait]
  | null, b | bool _, b | int _, b | float _, b | str _, b | task _, b | sealed _, b => by
    cases b <;> simp [agrees, trait]

theorem agreeAll_iff_traits : (as bs : List KeyPart) →
    (agreeAll as bs = true ↔ traits as = traits bs)
  | [], bs => by cases bs <;> simp [agreeAll, traits]
  | a :: as, bs => by
    cases bs with
    | nil => simp [agreeAll, traits]
    | cons b bs =>
      simp only [agreeAll, traits, Bool.and_eq_true, List.cons.injEq, agrees_iff_trait a b,
        agreeAll_iff_traits as bs]

end

theorem beq_iff_trait {a b : KeyPart} : (a == b) = true ↔ a.trait = b.trait :=
  agrees_iff_trait a b

instance : EquivBEq KeyPart where
  rfl := beq_iff_trait.2 rfl
  symm h := beq_iff_trait.2 (beq_iff_trait.1 h).symm
  trans h h' := beq_iff_trait.2 ((beq_iff_trait.1 h).trans (beq_iff_trait.1 h'))

end KeyPart

theorem BatchKey.beq_iff {a b : BatchKey} :
    (a == b) = true ↔ a.func = b.func ∧ (a.key == b.key) = true := by
  change (a.func == b.func && a.key == b.key) = true ↔ _
  rw [Bool.and_eq_true, beq_iff_eq]

instance : EquivBEq BatchKey where
  rfl := BatchKey.beq_iff.2 ⟨rfl, BEq.rfl⟩
  symm h :=
    have ⟨func, key⟩ := BatchKey.beq_iff.1 h
    BatchKey.beq_iff.2 ⟨func.symm, BEq.symm key⟩
  trans h h' :=
    have ⟨func, key⟩ := BatchKey.beq_iff.1 h
    have ⟨func', key'⟩ := BatchKey.beq_iff.1 h'
    BatchKey.beq_iff.2 ⟨func.trans func', BEq.trans key key'⟩

end EffectEngine
