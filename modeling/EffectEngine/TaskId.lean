/-!
# Task identifiers

The tasks of a run are numbered in the order in which they are created. `TaskId.text` writes the
number, together with a tag of the run, as a 128-bit identifier in the usual `8-4-4-4-12` layout of
lower-case hex digits.
-/

namespace EffectEngine

/-- The identifier of a task: the tag of its run, and its number there. Tags are drawn at random,
so that no other text looks like an identifier. -/
structure TaskId where
  tag : UInt64
  index : Nat
deriving DecidableEq, Inhabited, Repr

def padZeros (width : Nat) (cs : List Char) : List Char :=
  List.replicate (width - cs.length) '0' ++ cs

def paddedHex (width n : Nat) : List Char := padZeros width (Nat.toDigits 16 n)

namespace TaskId

/-- The printed identifier: version 4, variant 1, the number in the last group. -/
def text (t : TaskId) : String :=
  let tag := paddedHex 16 t.tag.toNat
  String.ofList
    (tag.take 8 ++ '-' :: (tag.drop 8).take 4 ++ '-' :: '4' :: (tag.drop 12).take 3 ++
      '-' :: '8' :: tag.drop 15 ++ '0' :: '0' :: '-' :: paddedHex 12 t.index)

def debug (t : TaskId) : String := "TaskId(" ++ t.text ++ ")"

end TaskId

end EffectEngine
