import EffectEngine.Number.Double

/-!
# Shortest decimal text of a double

`shortest x` is the decimal `d · 10 ^ e` with the fewest digits among those that round to `x`; of
two equally short ones it is the nearer, and an exact tie goes up. `NumberFormat` says how the
digits are laid out.
-/

namespace EffectEngine

structure Decimal where
  digits : Nat
  exponent : Int
deriving DecidableEq, Repr

namespace Double

/-- `10 ^ e` for natural `e`, else one. -/
def tenUp (e : Int) : Nat := Nat.pow 10 e.toNat

/-- The numbers that round to a finite `x` lie between `low` and `high`, both in units of a
quarter of the last place. The gap below a power of two is half as wide. -/
def roundingBounds (x : Double) : Nat × Nat :=
  let m := x.significand
  let low := if x.fractionField == 0 && x.exponentField > 1 then 4 * m - 1 else 4 * m - 2
  (low, 4 * m + 2)

/-- The best multiple of `10 ^ e` that rounds to `x`, if one of the two neighbours of `x` on that
grid does. The ends of the rounding interval belong to it when the significand is even. -/
def onGrid (x : Double) (e : Int) : Option Nat :=
  let q := x.exponent - 2
  let unit := tenUp e <<< (-q).toNat
  let scale := tenUp (-e) <<< q.toNat
  let value := 4 * x.significand * scale
  let (low, high) := x.roundingBounds
  let inside (d : Nat) : Bool :=
    let p := d * unit
    if x.significand % 2 == 0 then low * scale ≤ p && p ≤ high * scale
    else low * scale < p && p < high * scale
  let down := value / unit
  let up := down + 1
  match inside down, inside up with
  | true, true => if value - down * unit < up * unit - value then some down else some up
  | true, false => some down
  | false, true => some up
  | false, false => none

/-- Tries the grids `10 ^ e`, `10 ^ (e - 1)`, …; `n` of them. -/
def firstGrid (x : Double) : Nat → Int → Decimal
  | 0, _ => ⟨0, 0⟩
  | n + 1, e =>
    match x.onGrid e with
    | some d => ⟨d, e⟩
    | none => firstGrid x n (e - 1)

/-- An exponent whose grid has no multiple that rounds to the finite `x`, or is the first that has:
`x` is below `2 ^ (x.exponent + 53)`, and 30103 / 100000 is just above the decimal logarithm of
two. -/
def coarsest (x : Double) : Int := (x.exponent + 53) * 30103 / 100000 + 1

/-- The shortest decimal that rounds to the finite nonzero `x`. It has at most 17 digits, and the
leading digit of a number without its implicit bit is up to 16 places below the coarsest grid. -/
def shortest (x : Double) : Decimal := x.firstGrid 40 x.coarsest

end Double

structure NumberFormat where
  /-- Integral numbers written positionally end in `.0`. -/
  pointZero : Bool
  /-- Exponents `e` of the leading digit that are written positionally: `low ≤ e < high`; `none`
  writes every number positionally. -/
  positional : Option (Int × Int)

namespace NumberFormat

/-- Plain text: always positional, integral numbers without a point. -/
def plain : NumberFormat := ⟨false, none⟩

/-- Debug text: scientific below `10 ^ -4` and from `10 ^ 16` on, integral numbers with a point. -/
def debug : NumberFormat := ⟨true, some (-4, 16)⟩

/-- `ds · 10 ^ e` without an exponent. -/
def positionalText (pointZero : Bool) (ds : List Char) (e : Int) : List Char :=
  if 0 ≤ e then
    ds ++ List.replicate e.toNat '0' ++ (if pointZero then ['.', '0'] else [])
  else
    let places := (-e).toNat
    if ds.length ≤ places then
      '0' :: '.' :: List.replicate (places - ds.length) '0' ++ ds
    else
      ds.take (ds.length - places) ++ '.' :: ds.drop (ds.length - places)

/-- One digit before the point, and the exponent of that digit. -/
def scientificText (ds : List Char) (lead : Int) : List Char :=
  let mantissa := match ds with
    | [] => []
    | [d] => [d]
    | d :: rest => d :: '.' :: rest
  mantissa ++ 'e' :: (toString lead).toList

def write (f : NumberFormat) (x : Double) : String :=
  if x.isNaN then "NaN"
  else
    let sign := if x.negative then ['-'] else []
    let body :=
      if x.isInfinite then ['i', 'n', 'f']
      else if x.isZero then positionalText f.pointZero ['0'] 0
      else
        let d := x.shortest
        let ds := Nat.toDigits 10 d.digits
        let lead := d.exponent + (ds.length : Int) - 1
        match f.positional with
        | none => positionalText f.pointZero ds d.exponent
        | some (low, high) =>
          if low ≤ lead && lead < high then positionalText f.pointZero ds d.exponent
          else scientificText ds lead
    String.ofList (sign ++ body)

end NumberFormat

end EffectEngine
