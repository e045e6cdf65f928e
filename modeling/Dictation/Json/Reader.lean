import Dictation.Json.Basic

/-!
# Reading JSON

The grammar of JSON, and besides it the numbers NaN, Infinity and -Infinity and surrogate escapes
without a partner.  Control characters inside strings are refused.  `Json.read?` accepts one value
with blanks around it.

The functions that read nested values recurse on a bound, one more than the length of the text,
which no reading uses up.
-/

namespace Dictation.Json

def isSpace (c : Char) : Bool := c == ' ' || c == '\t' || c == '\n' || c == '\r'

def skipSpace (t : Text) : Text := t.dropWhile isSpace

/-! ## strings -/

def hexValue? (c : Char) : Option Nat :=
  let n := c.toNat
  if 0x30 ≤ n && n ≤ 0x39 then some (n - 0x30)
  else if 0x41 ≤ n && n ≤ 0x46 then some (n - 0x41 + 10)
  else if 0x61 ≤ n && n ≤ 0x66 then some (n - 0x61 + 10)
  else none

def unit? (a b c d : Char) : Option UInt16 :=
  match hexValue? a, hexValue? b, hexValue? c, hexValue? d with
  | some a, some b, some c, some d => some (((a * 16 + b) * 16 + c) * 16 + d).toUInt16
  | _, _, _, _ => none

/-- the character that a one-letter escape stands for -/
def escaped? : Char → Option Char
  | '"' => some '"'
  | '\\' => some '\\'
  | '/' => some '/'
  | 'b' => some '\x08'
  | 'f' => some '\x0c'
  | 'n' => some '\n'
  | 'r' => some '\r'
  | 't' => some '\t'
  | _ => none

/-- the units up to the closing quote, and what follows it -/
def readString : Text → Option (Units × Text)
  | [] => none
  | '"' :: r => some ([], r)
  | '\\' :: 'u' :: a :: b :: c :: d :: r =>
    match unit? a b c d, readString r with
    | some u, some (us, rest) => some (u :: us, rest)
    | _, _ => none
  | '\\' :: e :: r =>
    match escaped? e, readString r with
    | some c, some (us, rest) => some (Units.ofChar c ++ us, rest)
    | _, _ => none
  | c :: r =>
    if c.toNat < 0x20 || c == '\\' then none
    else (readString r).map fun (us, rest) => (Units.ofChar c ++ us, rest)

/-! ## numbers -/

/-- an optional fraction: its digits -/
def readFraction : Text → Text × Text
  | '.' :: r =>
    let ds := r.takeWhile Decimal.isDigit
    if ds.isEmpty then ([], '.' :: r) else (ds, r.dropWhile Decimal.isDigit)
  | t => ([], t)

def readDigits? (t : Text) : Option (Nat × Text) :=
  let ds := t.takeWhile Decimal.isDigit
  if ds.isEmpty then none else some (Decimal.ofDigits ds, t.dropWhile Decimal.isDigit)

/-- an optional exponent -/
def readExponent (t : Text) : Option Int × Text :=
  match t with
  | e :: r =>
    if e == 'e' || e == 'E' then
      let (negative, r') : Bool × Text :=
        match r with
        | '-' :: r' => (true, r')
        | '+' :: r' => (false, r')
        | _ => (false, r)
      match readDigits? r' with
      | some (n, rest) => (some (if negative then -(n : Int) else n), rest)
      | none => (none, t)
    else (none, t)
  | [] => (none, [])

/-- the digits before the point: a zero stands alone -/
def readWhole? : Text → Option (Text × Text)
  | '0' :: r => some (['0'], r)
  | t =>
    let ds := t.takeWhile Decimal.isDigit
    if ds.isEmpty then none else some (ds, t.dropWhile Decimal.isDigit)

def readMagnitude? (negative : Bool) (t : Text) : Option (Json × Text) :=
  (readWhole? t).map fun (whole, r) =>
    let (fraction, r) := readFraction r
    let (exponent, rest) := readExponent r
    if fraction.isEmpty && exponent.isNone then
      let n := Decimal.ofDigits whole
      (.int (if negative then -(n : Int) else n), rest)
    else
      let n := Decimal.ofDigits (whole ++ fraction)
      (.float (Binary64.ofDecimal negative n (exponent.getD 0 - fraction.length)), rest)

/-- what follows a word that the text starts with -/
def after? (word : String) (t : Text) : Option Text :=
  if Text.beginsWith word.toList t then some (t.drop word.toList.length) else none

def readNumber? (t : Text) : Option (Json × Text) :=
  match t with
  | '-' :: r =>
    match after? "Infinity" r with
    | some rest => some (.float (.infinity true), rest)
    | none => readMagnitude? true r
  | _ =>
    match after? "NaN" t, after? "Infinity" t with
    | some rest, _ => some (.float .nan, rest)
    | none, some rest => some (.float (.infinity false), rest)
    | none, none => readMagnitude? false t

/-! ## values -/

mutual

def readValue? : (bound : Nat) → Text → Option (Json × Text)
  | 0, _ => none
  | bound + 1, t =>
    match t with
    | 'n' :: 'u' :: 'l' :: 'l' :: r => some (.null, r)
    | 't' :: 'r' :: 'u' :: 'e' :: r => some (.bool true, r)
    | 'f' :: 'a' :: 'l' :: 's' :: 'e' :: r => some (.bool false, r)
    | '"' :: r => (readString r).map fun (s, rest) => (.str s, rest)
    | '[' :: r =>
      match skipSpace r with
      | ']' :: rest => some (.arr [], rest)
      | r' => (readItems? bound r').map fun (items, rest) => (.arr items, rest)
    | '\x7b' :: r =>
      match skipSpace r with
      | '\x7d' :: rest => some (.obj [], rest)
      | r' => (readFields? bound r').map fun (fs, rest) => (object fs, rest)
    | _ => readNumber? t

/-- the items up to the closing bracket, at least one -/
def readItems? : (bound : Nat) → Text → Option (List Json × Text)
  | 0, _ => none
  | bound + 1, t =>
    match readValue? bound t with
    | none => none
    | some (v, r) =>
      match skipSpace r with
      | ',' :: r' => (readItems? bound (skipSpace r')).map fun (vs, rest) => (v :: vs, rest)
      | ']' :: rest => some ([v], rest)
      | _ => none

/-- the fields up to the closing brace, at least one -/
def readFields? : (bound : Nat) → Text → Option (Fields × Text)
  | 0, _ => none
  | bound + 1, t =>
    match t with
    | '"' :: r =>
      match readString r with
      | none => none
      | some (k, r) =>
        match skipSpace r with
        | ':' :: r =>
          match readValue? bound (skipSpace r) with
          | none => none
          | some (v, r) =>
            match skipSpace r with
            | ',' :: r =>
              (readFields? bound (skipSpace r)).map fun (fs, rest) => ((k, v) :: fs, rest)
            | '\x7d' :: rest => some ([(k, v)], rest)
            | _ => none
        | _ => none
    | _ => none

end

def read? (t : Text) : Option Json :=
  match readValue? (t.length + 1) (skipSpace t) with
  | some (v, rest) => if (skipSpace rest).isEmpty then some v else none
  | none => none

end Dictation.Json
