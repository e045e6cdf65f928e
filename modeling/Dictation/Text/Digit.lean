import Dictation.Text.Blank

/-!
# Decimal digits of all scripts

Every script with decimal digits has ten code points in a row for them.  `Text.int?` reads a whole
number: white space around it, a sign, at most `Text.maxDigits` digits of any script, and single low
lines between the digits.
-/

namespace Dictation

/-- the zeros of the scripts -/
def zeroDigits : List Nat :=
  [0x30, 0x660, 0x6f0, 0x7c0, 0x966, 0x9e6, 0xa66, 0xae6, 0xb66, 0xbe6, 0xc66, 0xce6, 0xd66,
   0xde6, 0xe50, 0xed0, 0xf20, 0x1040, 0x1090, 0x17e0, 0x1810, 0x1946, 0x19d0, 0x1a80, 0x1a90,
   0x1b50, 0x1bb0, 0x1c40, 0x1c50, 0xa620, 0xa8d0, 0xa900, 0xa9d0, 0xa9f0, 0xaa50, 0xabf0, 0xff10,
   0x104a0, 0x10d30, 0x11066, 0x110f0, 0x11136, 0x111d0, 0x112f0, 0x11450, 0x114d0, 0x11650,
   0x116c0, 0x11730, 0x118e0, 0x11950, 0x11c50, 0x11d50, 0x11da0, 0x16a60, 0x16ac0, 0x16b50,
   0x1d7ce, 0x1d7d8, 0x1d7e2, 0x1d7ec, 0x1d7f6, 0x1e140, 0x1e2f0, 0x1e950, 0x1fbf0]

def digitOf? (c : Char) : Option Nat :=
  (zeroDigits.find? fun z => z ≤ c.toNat && c.toNat < z + 10).map (c.toNat - ·)

example : digitOf? '7' = some 7 := by decide
example : digitOf? (Char.ofNat 0x663) = some 3 := by decide
example : digitOf? 'x' = none := by decide

namespace Text

/-- the number that digits go on to after `n`; after a low line there must be a digit -/
def wholeAfter? (n : Nat) : Text → Option Nat
  | [] => some n
  | '_' :: c :: r =>
    match digitOf? c with
    | some d => wholeAfter? (n * 10 + d) r
    | none => none
  | c :: r =>
    match digitOf? c with
    | some d => wholeAfter? (n * 10 + d) r
    | none => none

/-- longer numbers are not read -/
def maxDigits : Nat := 4300

def whole? : Text → Option Nat
  | [] => none
  | c :: r =>
    if maxDigits < (c :: r).countP (· != '_') then none
    else (digitOf? c).bind fun d => wholeAfter? d r

/-- a blank, but none of the separators U+001C to U+001F -/
def isWhiteSpace (c : Char) : Bool := isBlank c && !(0x1c ≤ c.toNat && c.toNat ≤ 0x1f)

def int? (t : Text) : Option Int :=
  match dropEndWhile isWhiteSpace (t.dropWhile isWhiteSpace) with
  | '-' :: r => (whole? r).map fun n => -(n : Int)
  | '+' :: r => (whole? r).map fun n => (n : Int)
  | r => (whole? r).map fun n => (n : Int)

example : int? " 1_0 ".toList = some 10 := by decide
example : int? "-3".toList = some (-3) := by decide
example : int? "1__0".toList = none := by decide

end Text
end Dictation
