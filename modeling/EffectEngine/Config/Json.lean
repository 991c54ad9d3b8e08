/-!
# Reading JSON records

A strict reader for JSON texts that hold one record with a single known field. Other fields are
skipped, whatever well-formed value they have; a repeated known field is refused. The record may
also be written as an array of at most one item. A `Reader` answers with what it read and the rest
of the text.
-/

namespace EffectEngine.Json

abbrev Reader (α : Type) := List Char → Option (α × List Char)

def isBlank (c : Char) : Bool := c == ' ' || c == '\t' || c == '\n' || c == '\r'

def skipBlanks (cs : List Char) : List Char := cs.dropWhile isBlank

def skipWord : List Char → List Char → Option (List Char)
  | [], cs => some cs
  | w :: ws, c :: cs => if w == c then skipWord ws cs else none
  | _ :: _, [] => none

def hexValue? (c : Char) : Option Nat :=
  if c.isDigit then some (c.toNat - 48)
  else if 'a' ≤ c && c ≤ 'f' then some (c.toNat - 87)
  else if 'A' ≤ c && c ≤ 'F' then some (c.toNat - 55)
  else none

def hexValue4? (a b c d : Char) : Option Nat := do
  pure ((((← hexValue? a) * 16 + (← hexValue? b)) * 16 + (← hexValue? c)) * 16 + (← hexValue? d))

def unescape? : Char → Option Char
  | '"' => some '"'
  | '\\' => some '\\'
  | '/' => some '/'
  | 'b' => some '\x08'
  | 'f' => some '\x0c'
  | 'n' => some '\n'
  | 'r' => some '\r'
  | 't' => some '\t'
  | _ => none

def isHighSurrogate (n : Nat) : Bool := 0xd800 ≤ n && n < 0xdc00

def isLowSurrogate (n : Nat) : Bool := 0xdc00 ≤ n && n < 0xe000

def joinSurrogates (high low : Nat) : Nat := 0x10000 + (high - 0xd800) * 0x400 + (low - 0xdc00)

/-- The rest of a string after its opening quote. Surrogates need a partner. -/
def readString : Reader (List Char)
  | '"' :: rest => some ([], rest)
  | '\\' :: 'u' :: a :: b :: c :: d :: '\\' :: 'u' :: e :: f :: g :: h :: rest => do
    let high ← hexValue4? a b c d
    if isHighSurrogate high then
      let low ← hexValue4? e f g h
      if isLowSurrogate low then
        let (s, rest) ← readString rest
        pure (Char.ofNat (joinSurrogates high low) :: s, rest)
      else none
    else if isLowSurrogate high then none
    else
      let (s, rest) ← readString ('\\' :: 'u' :: e :: f :: g :: h :: rest)
      pure (Char.ofNat high :: s, rest)
  | '\\' :: 'u' :: a :: b :: c :: d :: rest => do
    let n ← hexValue4? a b c d
    if isHighSurrogate n || isLowSurrogate n then none
    else
      let (s, rest) ← readString rest
      pure (Char.ofNat n :: s, rest)
  | '\\' :: e :: rest => do
    let c ← unescape? e
    let (s, rest) ← readString rest
    pure (c :: s, rest)
  | c :: rest =>
    if c.toNat < 0x20 then none
    else do
      let (s, rest) ← readString rest
      pure (c :: s, rest)
  | [] => none

/-- Skips a string after its opening quote. Any four hex digits are taken. -/
def skipString : List Char → Option (List Char)
  | '"' :: rest => some rest
  | '\\' :: 'u' :: a :: b :: c :: d :: rest =>
    if (hexValue4? a b c d).isSome then skipString rest else none
  | '\\' :: e :: rest => if (unescape? e).isSome then skipString rest else none
  | c :: rest => if c.toNat < 0x20 then none else skipString rest
  | [] => none

/-- A number as written: its sign, the digits before the point, and whether a fraction or an
exponent follows. -/
structure NumberText where
  negative : Bool
  digits : List Char
  integral : Bool

def readDigits : Reader (List Char) := fun cs =>
  let ds := cs.takeWhile Char.isDigit
  if ds.isEmpty then none else some (ds, cs.dropWhile Char.isDigit)

def skipFraction : List Char → Option (List Char)
  | '.' :: rest => (readDigits rest).map (·.2)
  | cs => some cs

def skipExponent : List Char → Option (List Char)
  | c :: rest =>
    if c == 'e' || c == 'E' then
      match rest with
      | '+' :: rest | '-' :: rest => (readDigits rest).map (·.2)
      | rest => (readDigits rest).map (·.2)
    else some (c :: rest)
  | [] => some []

/-- A number. No digit may follow a leading zero. -/
def readNumber : Reader NumberText := fun cs => do
  let (negative, cs) := match cs with
    | '-' :: rest => (true, rest)
    | cs => (false, cs)
  let (digits, rest) ← readDigits cs
  if digits.length > 1 && digits.head? == some '0' then none
  else
    let rest' ← (skipFraction rest).bind skipExponent
    pure (⟨negative, digits, rest'.length == rest.length⟩, rest')

mutual

/-- Skips a value, nested at most as deep as the first argument. -/
def skipValue : Nat → List Char → Option (List Char)
  | 0, _ => none
  | fuel + 1, cs =>
    match skipBlanks cs with
    | 'n' :: rest => skipWord ['u', 'l', 'l'] rest
    | 't' :: rest => skipWord ['r', 'u', 'e'] rest
    | 'f' :: rest => skipWord ['a', 'l', 's', 'e'] rest
    | '"' :: rest => skipString rest
    | '[' :: rest =>
      match skipBlanks rest with
      | ']' :: rest => some rest
      | rest => skipItems fuel rest
    | '\x7b' :: rest =>
      match skipBlanks rest with
      | '\x7d' :: rest => some rest
      | rest => skipMembers fuel rest
    | cs => (readNumber cs).map (·.2)

def skipItems : Nat → List Char → Option (List Char)
  | 0, _ => none
  | fuel + 1, cs => do
    match skipBlanks (← skipValue fuel cs) with
    | ']' :: rest => some rest
    | ',' :: rest => skipItems fuel rest
    | _ => none

def skipMembers : Nat → List Char → Option (List Char)
  | 0, _ => none
  | fuel + 1, cs =>
    match skipBlanks cs with
    | '"' :: rest => do
      match skipBlanks (← skipString rest) with
      | ':' :: rest =>
        match skipBlanks (← skipValue fuel rest) with
        | '\x7d' :: rest => some rest
        | ',' :: rest => skipMembers fuel rest
        | _ => none
      | _ => none
    | _ => none

end

/-- Reads the members of an object up to its end and answers with the value of the known field, if
it is there. -/
def readMembers {α : Type} (field : String) (value : Reader α) :
    Nat → Option α → Reader (Option α)
  | 0, _, _ => none
  | fuel + 1, seen, cs =>
    match skipBlanks cs with
    | '"' :: rest => do
      let (name, rest) ← readString rest
      match skipBlanks rest with
      | ':' :: rest =>
        let (seen, rest) ←
          if String.ofList name == field then
            match seen with
            | some _ => none
            | none => (value (skipBlanks rest)).map fun (a, rest) => (some a, rest)
          else (skipValue (rest.length + 1) rest).map fun rest => (seen, rest)
        match skipBlanks rest with
        | '\x7d' :: rest => some (seen, rest)
        | ',' :: rest => readMembers field value fuel seen rest
        | _ => none
      | _ => none
    | _ => none

/-- Reads a text that is a record with a single known field: the outer option is missing if the
text is malformed, the inner one if the field is not given. -/
def readRecord? {α : Type} (field : String) (value : Reader α) (text : String) :
    Option (Option α) := do
  let (a, rest) ← match skipBlanks text.toList with
    | '\x7b' :: rest =>
      match skipBlanks rest with
      | '\x7d' :: rest => some (none, rest)
      | rest => readMembers field value (rest.length + 1) none rest
    | '[' :: rest =>
      match skipBlanks rest with
      | ']' :: rest => some (none, rest)
      | rest => do
        let (a, rest) ← value rest
        match skipBlanks rest with
        | ']' :: rest => some (some a, rest)
        | _ => none
    | _ => none
  if (skipBlanks rest).isEmpty then some a else none

def readBool : Reader Bool
  | 't' :: rest => (skipWord ['r', 'u', 'e'] rest).map (true, ·)
  | 'f' :: rest => (skipWord ['a', 'l', 's', 'e'] rest).map (false, ·)
  | _ => none

def decimalValue (ds : List Char) : Nat := ds.foldl (fun n d => 10 * n + (d.toNat - 48)) 0

/-- A natural number of 64 bits, written without sign, fraction or exponent. -/
def readWord : Reader UInt64 := fun cs => do
  let (n, rest) ← readNumber cs
  let v := decimalValue n.digits
  if n.negative || !n.integral || v ≥ UInt64.size then none else some (v.toUInt64, rest)

end EffectEngine.Json
