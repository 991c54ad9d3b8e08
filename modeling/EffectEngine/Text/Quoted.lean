import EffectEngine.Text.Printable

/-!
# Quoted text

`quoted s` writes a string between double quotes. The quote and the backslash are escaped, tab,
line feed, carriage return and NUL have short forms, and any other character that is not plain is
written as `\u` with its hex code in braces.
-/

namespace EffectEngine

def escapeChar (c : Char) : List Char :=
  match c with
  | '"' => ['\\', '"']
  | '\\' => ['\\', '\\']
  | '\n' => ['\\', 'n']
  | '\r' => ['\\', 'r']
  | '\t' => ['\\', 't']
  | '\x00' => ['\\', '0']
  | c =>
    if Printable.isPlain c then [c]
    else ['\\', 'u', '\x7b'] ++ Nat.toDigits 16 c.toNat ++ ['\x7d']

def quoted (s : String) : String :=
  String.ofList ('"' :: s.toList.flatMap escapeChar ++ ['"'])

def joinTexts (separator : String) : List String → String
  | [] => ""
  | [s] => s
  | s :: rest => s ++ separator ++ joinTexts separator rest

end EffectEngine
