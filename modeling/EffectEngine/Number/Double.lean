/-!
# Double-precision numbers by their bits

`Double` is a 64-bit IEEE number given by its bit pattern, so that equality of bits, numeric
equality (`Double.numEq`) and the decoded form `m · 2 ^ q` are all available to proofs.
-/

namespace EffectEngine

/-- A double-precision number: 1 sign bit, 11 exponent bits, 52 fraction bits. -/
structure Double where
  bits : UInt64
deriving DecidableEq, Inhabited, Repr

namespace Double

def negative (x : Double) : Bool := x.bits.toNat >>> 63 == 1

def exponentField (x : Double) : Nat := x.bits.toNat >>> 52 % 2048

def fractionField (x : Double) : Nat := x.bits.toNat % (1 <<< 52)

def isNaN (x : Double) : Bool := x.exponentField == 2047 && x.fractionField != 0

def isInfinite (x : Double) : Bool := x.exponentField == 2047 && x.fractionField == 0

/-- Both zeros. -/
def isZero (x : Double) : Bool := x.exponentField == 0 && x.fractionField == 0

/-- The significand `m` of a finite number `± m · 2 ^ q`. -/
def significand (x : Double) : Nat :=
  if x.exponentField == 0 then x.fractionField else 1 <<< 52 + x.fractionField

/-- The exponent `q` of a finite number `± m · 2 ^ q`. -/
def exponent (x : Double) : Int :=
  if x.exponentField == 0 then -1074 else (x.exponentField : Int) - 1075

/-- Numeric equality: a NaN differs from everything, the two zeros agree. -/
def numEq (x y : Double) : Bool :=
  !x.isNaN && !y.isNaN && (x.bits == y.bits || x.isZero && y.isZero)

/-- `n / 2 ^ s` rounded to the nearest integer, a tie to the even one. -/
def shiftRoundEven (n s : Nat) : Nat :=
  let quotient := n >>> s
  let rest := n % (1 <<< s)
  if 2 * rest > 1 <<< s || 2 * rest == 1 <<< s && quotient % 2 == 1 then quotient + 1
  else quotient

/-- The double nearest to a natural number below `2 ^ 1023`, a tie to the even significand.
A significand that rounds up to `2 ^ 53` carries into the exponent field. -/
def ofNat (n : Nat) : Double :=
  if n == 0 then ⟨0⟩
  else
    let e := n.log2
    let m := if e ≤ 52 then n <<< (52 - e) else shiftRoundEven n (e - 52)
    ⟨((e + 1023) <<< 52 + (m - 1 <<< 52)).toUInt64⟩

def ofInt (i : Int) : Double :=
  if i < 0 then ⟨(ofNat i.natAbs).bits ||| 0x8000000000000000⟩ else ofNat i.natAbs

end Double

end EffectEngine
