import EffectEngine.Proofs.Value.Identity
import EffectEngine.Middleware.BatchTable
import Mathlib.Data.List.Find

/-!
# Keys in a hash map

Agreement of keys is an equivalence by `Proofs.Value.Keys`; here it is shown to fit the data that a
hash of a key takes in (`KeyPart.digest_eq`), so that a map which looks only among the keys of one
hash finds what `BatchTable.find?` finds. What agreement of keys has to do with equality of values
is read off `Value.agreesBy`, of which both are instances (`Value.HashContract`).

An error of application code enters a hash by its text and is compared by its number. Numbers stand
for allocations, so two failures of one number are one failure; `Failure.Numbered` says so where it
is needed.
-/

namespace EffectEngine

/-- Two failures with one number are one failure. -/
def Failure.Numbered (fs gs : List Failure) : Prop := ∀ f ∈ fs, ∀ g ∈ gs, f.id = g.id → f = g

namespace Failure.Numbered

variable {fs fs' gs gs' : List Failure}

theorem mono (h : Numbered fs gs) (hf : fs' ⊆ fs) (hg : gs' ⊆ gs) : Numbered fs' gs' :=
  fun f hf' g hg' => h f (hf hf') g (hg hg')

theorem left (h : Numbered (fs ++ fs') (gs ++ gs')) : Numbered fs gs :=
  h.mono (List.subset_append_left ..) (List.subset_append_left ..)

theorem right (h : Numbered (fs ++ fs') (gs ++ gs')) : Numbered fs' gs' :=
  h.mono (List.subset_append_right ..) (List.subset_append_right ..)

end Failure.Numbered

namespace Error

/-- The failures of application code that an error holds. -/
def failures : Error → List Failure
  | application failure => [failure]
  | cancelFailed error => error.failures
  | deferred error masked => error.failures ++ masked.failures
  | _ => []

theorem message_cancelFailed (error : Error) :
    (cancelFailed error).message = "task did not cancel properly: " ++ error.message := rfl

theorem message_deferred (error masked : Error) :
    (deferred error masked).message =
      "deferred operation failed: " ++ error.message ++ " (masking: " ++ masked.message ++ ")" :=
  rfl

/-- Errors that are the same have one text. -/
theorem message_eq {a b : Error} (numbered : Failure.Numbered a.failures b.failures)
    (h : a.trait = b.trait) : a.message = b.message := by
  induction a generalizing b with
  | application f =>
    cases b with
    | application g =>
      simp only [failures] at numbered
      have one : f = g := numbered f (List.mem_singleton_self f) g (List.mem_singleton_self g)
        (Trait.application.inj h)
      rw [one]
    | _ => cases h
  | cancelFailed a ih =>
    cases b with
    | cancelFailed b =>
      simp only [failures] at numbered
      rw [message_cancelFailed, message_cancelFailed, ih numbered (Trait.cancelFailed.inj h)]
    | _ => cases h
  | deferred a x iha ihx =>
    cases b with
    | deferred b y =>
      simp only [failures] at numbered
      obtain ⟨error, masked⟩ := Trait.deferred.inj h
      rw [message_deferred, message_deferred, iha numbered.left error, ihx numbered.right masked]
    | _ => cases h
  | _ =>
    -- All others have their text in their trait.
    cases b <;> simp_all [trait]

end Error

namespace KeyPart

mutual

/-- The failures of application code that a key holds. -/
def failures : KeyPart → List Failure
  | error e => e.failures
  | list items => failuresAll items
  | _ => []

def failuresAll : List KeyPart → List Failure
  | [] => []
  | k :: ks => failures k ++ failuresAll ks

end

theorem length_traits (ks : List KeyPart) : (traits ks).length = ks.length := by
  induction ks with
  | nil => rfl
  | cons k ks ih => simp only [traits, List.length_cons, ih]

mutual

theorem digest_eq_of_trait : (k l : KeyPart) → Failure.Numbered k.failures l.failures →
    k.trait = l.trait → k.digest = l.digest
  | list ks, l, numbered, h => by
    cases l with
    | list ls =>
      have items := Trait.list.inj h
      have length : ks.length = ls.length := by rw [← length_traits, items, length_traits]
      simp only [digest, length, digestAll_eq_of_traits ks ls numbered items]
    | _ => cases h
  | error a, l, numbered, h => by
    cases l with
    | error b => simp only [digest, Error.message_eq numbered (Trait.error.inj h)]
    | _ => cases h
  | null, l, _, h | bool _, l, _, h | int _, l, _, h | float _, l, _, h | str _, l, _, h
  | task _, l, _, h | sealed _, l, _, h => by
    cases l <;> cases h
    rfl

theorem digestAll_eq_of_traits : (ks ls : List KeyPart) →
    Failure.Numbered (failuresAll ks) (failuresAll ls) →
    traits ks = traits ls → digestAll ks = digestAll ls
  | [], ls, _, h => by
    cases ls with
    | nil => rfl
    | cons => cases h
  | k :: ks, ls, numbered, h => by
    cases ls with
    | nil => cases h
    | cons l ls =>
      obtain ⟨first, rest⟩ := List.cons.inj h
      simp only [digestAll, digest_eq_of_trait k l numbered.left first,
        digestAll_eq_of_traits ks ls numbered.right rest]

end

/-- Keys that agree are hashed from the same data. -/
theorem digest_eq {k l : KeyPart} (numbered : Failure.Numbered k.failures l.failures)
    (h : (k == l) = true) : k.digest = l.digest :=
  digest_eq_of_trait k l numbered (beq_iff_trait.1 h)

end KeyPart

namespace BatchKey

/-- The data a hash of the key of a batch takes in. -/
def digest (key : BatchKey) : List KeyPart.Datum := .address key.func :: key.key.digest

theorem digest_eq {a b : BatchKey} (numbered : Failure.Numbered a.key.failures b.key.failures)
    (h : (a == b) = true) : a.digest = b.digest := by
  obtain ⟨func, key⟩ := beq_iff.1 h
  rw [digest, digest, func, KeyPart.digest_eq numbered key]

end BatchKey

/-- Looking only among the entries whose keys have the right hash finds the entry of a key. -/
theorem BatchTable.find?_eq_hashed {F H : Type} [BEq H] [ReflBEq H]
    (hash : List KeyPart.Datum → H) (t : BatchTable F) (key : BatchKey)
    (numbered : ∀ e ∈ t.pending, Failure.Numbered e.1.key.failures key.key.failures) :
    ((t.pending.filter fun e => hash e.1.digest == hash key.digest).find? (·.1 == key)).map (·.2) =
      t.find? key := by
  have agreed : ∀ e ∈ t.pending, (hash e.1.digest == hash key.digest && e.1 == key) =
      (e.1 == key) := by
    intro e he
    cases agree : e.1 == key with
    | false => exact Bool.and_false _
    | true => rw [BatchKey.digest_eq (numbered e he) agree, BEq.rfl]; rfl
  simp only [BatchTable.find?, List.find?_filter, Bool.decide_and, Bool.decide_eq_true,
    List.find?_congr agreed]

/-! ### Keys of values -/

namespace Value

mutual

/-- Equality of values with a given comparison of floats. -/
def agreesBy (floats : Double → Double → Bool) : Value → Value → Bool
  | null, null => true
  | bool a, bool b => a == b
  | int a, int b => a == b
  | float a, float b => floats a b
  | str a, str b => a == b
  | list a, list b => agreeAllBy floats a b
  | task a, task b => a == b
  | error a, error b => a.same b
  | sealed a _, sealed b _ => a == b
  | _, _ => false

def agreeAllBy (floats : Double → Double → Bool) : List Value → List Value → Bool
  | [], [] => true
  | a :: as, b :: bs => agreesBy floats a b && agreeAllBy floats as bs
  | _, _ => false

end

mutual

/-- No float occurs in a value. -/
def floatFree : Value → Bool
  | float _ => false
  | list items => floatFreeAll items
  | _ => true

def floatFreeAll : List Value → Bool
  | [] => true
  | v :: vs => floatFree v && floatFreeAll vs

end

mutual

theorem eq_eq_agreesBy : (v w : Value) → v.eq w = v.agreesBy Double.numEq w
  | list vs, w => by
    cases w with
    | list ws => exact eqAll_eq_agreeAllBy vs ws
    | _ => rfl
  | null, w | bool _, w | int _, w | float _, w | str _, w | task _, w | error _, w
  | .sealed .., w => by cases w <;> rfl

theorem eqAll_eq_agreeAllBy : (vs ws : List Value) →
    eqAll vs ws = agreeAllBy Double.numEq vs ws
  | [], ws => by cases ws <;> rfl
  | v :: vs, ws => by
    cases ws with
    | nil => rfl
    | cons w ws => simp only [eqAll, agreeAllBy, eq_eq_agreesBy v w, eqAll_eq_agreeAllBy vs ws]

end

mutual

theorem agrees_key_eq_agreesBy : (v w : Value) →
    v.key.agrees w.key = v.agreesBy (fun x y => x.bits == y.bits) w
  | list vs, w => by
    cases w with
    | list ws => exact agreeAll_keys_eq_agreeAllBy vs ws
    | _ => rfl
  | null, w | bool _, w | int _, w | float _, w | str _, w | task _, w | error _, w
  | .sealed .., w => by cases w <;> rfl

theorem agreeAll_keys_eq_agreeAllBy : (vs ws : List Value) →
    KeyPart.agreeAll (keys vs) (keys ws) = agreeAllBy (fun x y => x.bits == y.bits) vs ws
  | [], ws => by cases ws <;> rfl
  | v :: vs, ws => by
    cases ws with
    | nil => rfl
    | cons w ws =>
      simp only [keys, KeyPart.agreeAll, agreeAllBy, agrees_key_eq_agreesBy v w,
        agreeAll_keys_eq_agreeAllBy vs ws]

end

mutual

/-- How floats are compared is nothing to a value without floats. -/
theorem agreesBy_eq_of_floatFree (r s : Double → Double → Bool) : (v w : Value) →
    v.floatFree = true → v.agreesBy r w = v.agreesBy s w
  | list vs, w, h => by
    cases w with
    | list ws => exact agreeAllBy_eq_of_floatFree r s vs ws h
    | _ => rfl
  | null, w, _ | bool _, w, _ | int _, w, _ | str _, w, _ | task _, w, _ | error _, w, _
  | .sealed .., w, _ => by cases w <;> rfl

theorem agreeAllBy_eq_of_floatFree (r s : Double → Double → Bool) : (vs ws : List Value) →
    floatFreeAll vs = true → agreeAllBy r vs ws = agreeAllBy s vs ws
  | [], ws, _ => by cases ws <;> rfl
  | v :: vs, ws, h => by
    cases ws with
    | nil => rfl
    | cons w ws =>
      simp only [floatFreeAll, Bool.and_eq_true] at h
      simp only [agreeAllBy, agreesBy_eq_of_floatFree r s v w h.1,
        agreeAllBy_eq_of_floatFree r s vs ws h.2]

end

/-- What a hash map asks of the keys of values, and what these have to do with equality of
values. -/
structure HashContract (u v w : Value) : Prop where
  refl : (u.key == u.key) = true
  symm : (u.key == v.key) = true → (v.key == u.key) = true
  trans : (u.key == v.key) = true → (v.key == w.key) = true → (u.key == w.key) = true
  /-- Keys that agree are hashed from the same data, -/
  digest : Failure.Numbered u.key.failures v.key.failures →
    (u.key == v.key) = true → u.key.digest = v.key.digest
  /-- and so are keys of batches. -/
  batch : Failure.Numbered u.key.failures v.key.failures →
    ∀ f g : Nat, ((⟨f, u.key⟩ : BatchKey) == ⟨g, v.key⟩) = true →
      BatchKey.digest ⟨f, u.key⟩ = BatchKey.digest ⟨g, v.key⟩
  /-- Keys agree exactly if the values are equal with their floats taken by bits, -/
  bits : (u.key == v.key) = u.agreesBy (fun x y => x.bits == y.bits) v
  /-- and values are equal exactly if they are equal with their floats taken as numbers. -/
  numbers : (u == v) = u.agreesBy Double.numEq v
  /-- For a value without floats, keys agree exactly if the values are equal. -/
  floatFree : u.floatFree = true → (u.key == v.key) = (u == v)
  float : ∀ x y : Double, ((float x).key == (float y).key) = true ↔ x.bits = y.bits

theorem keys_fit_hashing (u v w : Value) : HashContract u v w where
  refl := BEq.rfl
  symm := BEq.symm
  trans := BEq.trans
  digest := KeyPart.digest_eq
  batch numbered f g := BatchKey.digest_eq (a := ⟨f, u.key⟩) (b := ⟨g, v.key⟩) numbered
  bits := agrees_key_eq_agreesBy u v
  numbers := eq_eq_agreesBy u v
  floatFree free := by
    have bits : (u.key == v.key) = u.agreesBy (fun x y => x.bits == y.bits) v :=
      agrees_key_eq_agreesBy u v
    have numbers : (u == v) = u.agreesBy Double.numEq v := eq_eq_agreesBy u v
    rw [bits, numbers, agreesBy_eq_of_floatFree _ Double.numEq u v free]
  float x y := by
    change (x.bits == y.bits) = true ↔ _
    exact beq_iff_eq

/-- A NaN is one key although it is not equal to itself, and the two zeros are two keys although
they are equal. -/
example :
    let nan : Value := .float ⟨0x7FF8000000000000⟩
    let zero : Value := .float ⟨0⟩
    let negativeZero : Value := .float ⟨0x8000000000000000⟩
    (nan.key == nan.key) = true ∧ (nan == nan) = false ∧
      (zero.key == negativeZero.key) = false ∧ (zero == negativeZero) = true := by
  decide

end Value

end EffectEngine
