import Dictation.Json.Basic
import Dictation.Text.Quoted

/-!
# Writing JSON

One writer with three layouts: on one line without spaces, on lines indented by two spaces, and on
one line or on indented lines in ASCII alone.

* `Json.Layout`        what the layouts differ in;
* `Json.writeString`   a string with its escapes;
* `Json.write`         a value, by recursion on it.
-/

namespace Dictation.Json

structure Layout where
  /-- every character outside ASCII is an escape -/
  ascii : Bool
  /-- every item on a line of its own -/
  lines : Bool
  /-- a space after a comma on the same line -/
  spaced : Bool
deriving DecidableEq, Repr

namespace Layout

def compact : Layout := ⟨false, false, false⟩
def indented : Layout := ⟨false, true, false⟩
def asciiLine : Layout := ⟨true, false, true⟩
def asciiIndented : Layout := ⟨true, true, false⟩

/-- the start of a line at a depth -/
def newline (l : Layout) (depth : Nat) : Text :=
  if l.lines then '\n' :: List.replicate (2 * depth) ' ' else []

def comma (l : Layout) : Text := if l.spaced then [',', ' '] else [',']

def colon (l : Layout) : Text := if l.spaced || l.lines then [':', ' '] else [':']

end Layout

/-! ## strings -/

def escapeUnit (u : UInt16) : Text := '\\' :: 'u' :: hexDigits 4 u.toNat

/-- the one-letter escape of a character -/
def shortEscape? (c : Char) : Option Char :=
  if c == '"' then some '"'
  else if c == '\\' then some '\\'
  else if c == '\x08' then some 'b'
  else if c == '\x0c' then some 'f'
  else if c == '\n' then some 'n'
  else if c == '\r' then some 'r'
  else if c == '\t' then some 't'
  else none

/-- stands for itself in a string -/
def isPlain (ascii : Bool) (c : Char) : Bool :=
  0x20 ≤ c.toNat && (!ascii || c.toNat < 0x7f)

def writeChar (ascii : Bool) (c : Char) : Text :=
  match shortEscape? c with
  | some e => ['\\', e]
  | none => if isPlain ascii c then [c] else (Units.ofChar c).flatMap escapeUnit

def writeSymbol (ascii : Bool) : Symbol → Text
  | .char c => writeChar ascii c
  | .lone u => escapeUnit u

def writeString (ascii : Bool) (s : Units) : Text :=
  '"' :: (Units.symbols s).flatMap (writeSymbol ascii) ++ ['"']

/-! ## values -/

def nanText : Text := "NaN".toList
def infinityText : Text := "Infinity".toList

mutual

def writeAt (l : Layout) (depth : Nat) : Json → Text
  | .null => "null".toList
  | .bool true => "true".toList
  | .bool false => "false".toList
  | .int i => Decimal.ofInt i
  | .float x => x.text infinityText nanText
  | .str s => writeString l.ascii s
  | .arr [] => ['[', ']']
  | .arr (v :: vs) =>
    '[' :: l.newline (depth + 1) ++ writeAt l (depth + 1) v ++ writeItems l (depth + 1) vs
      ++ l.newline depth ++ [']']
  | .obj [] => ['\x7b', '\x7d']
  | .obj ((k, v) :: fs) =>
    '\x7b' :: l.newline (depth + 1) ++ writeString l.ascii k ++ l.colon
      ++ writeAt l (depth + 1) v ++ writeFields l (depth + 1) fs ++ l.newline depth ++ ['\x7d']

/-- the items after the first one -/
def writeItems (l : Layout) (depth : Nat) : List Json → Text
  | [] => []
  | v :: vs => l.comma ++ l.newline depth ++ writeAt l depth v ++ writeItems l depth vs

/-- the fields after the first one -/
def writeFields (l : Layout) (depth : Nat) : Fields → Text
  | [] => []
  | (k, v) :: fs =>
    l.comma ++ l.newline depth ++ writeString l.ascii k ++ l.colon ++ writeAt l depth v
      ++ writeFields l depth fs

end

def write (l : Layout) (v : Json) : Text := writeAt l 0 v

end Dictation.Json
