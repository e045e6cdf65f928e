import Dictation.Text.Printable
import Dictation.Text.Units

/-!
# Quoted texts

A text between quotes, with every character that is not printable written as an escape.  The
quotes are single ones; double ones if the text holds a single one and no double one.
-/

namespace Dictation

def hexDigit (n : Nat) : Char :=
  if n < 10 then Char.ofNat (0x30 + n) else Char.ofNat (0x61 + (n - 10))

/-- the last `width` hexadecimal digits -/
def hexDigits : (width : Nat) → (n : Nat) → Text
  | 0, _ => []
  | width + 1, n => hexDigits width (n / 16) ++ [hexDigit (n % 16)]

theorem length_hexDigits (width n : Nat) : (hexDigits width n).length = width := by
  induction width generalizing n with
  | zero => rfl
  | succ w ih => simp [hexDigits, ih]

namespace Quoted

def escape (n : Nat) : Text :=
  if n < 0x100 then "\\x".toList ++ hexDigits 2 n
  else if n < 0x10000 then "\\u".toList ++ hexDigits 4 n
  else "\\U".toList ++ hexDigits 8 n

def ofChar (quote c : Char) : Text :=
  if c == quote || c == '\\' then ['\\', c]
  else if c == '\n' then ['\\', 'n']
  else if c == '\r' then ['\\', 'r']
  else if c == '\t' then ['\\', 't']
  else if isPrintable c then [c]
  else escape c.toNat

def ofSymbol (quote : Char) : Symbol → Text
  | .char c => ofChar quote c
  | .lone u => escape u.toNat

def ofSymbols (s : List Symbol) : Text :=
  let quote := if s.contains (.char '\'') && !s.contains (.char '"') then '"' else '\''
  quote :: s.flatMap (ofSymbol quote) ++ [quote]

def ofText (t : Text) : Text := ofSymbols (t.map .char)

/-- the quoted texts between brackets, with commas between them -/
def ofList (ts : List Text) : Text :=
  '[' :: Text.joinWith ", ".toList (ts.map ofText) ++ [']']

example : ofText "it's".toList = "\"it's\"".toList := by decide
example : ofList [[], "\t\n".toList] = "['', '\\t\\n']".toList := by decide

end Quoted
end Dictation
