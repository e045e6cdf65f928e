import Dictation.Json.Basic
import Dictation.Text.Quoted

/-!
# JSON values in messages

A message shows a value with quoted strings, `True`, `False` and `None`, and a space after every
comma and colon, and it names the kind of a value.
-/

namespace Dictation.Json

def Kind.name : Kind → Text
  | .null => "NoneType".toList
  | .bool => "bool".toList
  | .int => "int".toList
  | .float => "float".toList
  | .str => "str".toList
  | .arr => "list".toList
  | .obj => "dict".toList

def quotedUnits (s : Units) : Text := Quoted.ofSymbols (Units.symbols s)

mutual

def shown : Json → Text
  | .null => "None".toList
  | .bool true => "True".toList
  | .bool false => "False".toList
  | .int i => Decimal.ofInt i
  | .float x => x.text "inf".toList "nan".toList
  | .str s => quotedUnits s
  | .arr [] => ['[', ']']
  | .arr (v :: vs) => '[' :: shown v ++ shownItems vs ++ [']']
  | .obj [] => ['\x7b', '\x7d']
  | .obj ((k, v) :: fs) =>
    '\x7b' :: quotedUnits k ++ ": ".toList ++ shown v ++ shownFields fs ++ ['\x7d']

def shownItems : List Json → Text
  | [] => []
  | v :: vs => ", ".toList ++ shown v ++ shownItems vs

def shownFields : Fields → Text
  | [] => []
  | (k, v) :: fs =>
    ", ".toList ++ quotedUnits k ++ ": ".toList ++ shown v ++ shownFields fs

end

/-- a string without its quotes, any other value as it is shown -/
def plainText (v : Json) : Text := (v.text?).getD v.shown

/-! ## long values -/

/-- the first characters, no more than `bytes` bytes of them -/
def firstBytes : (bytes : Nat) → Text → Text
  | _, [] => []
  | bytes, c :: r =>
    if c.utf8Size ≤ bytes then c :: firstBytes (bytes - c.utf8Size) r else []

def lastBytes (bytes : Nat) (t : Text) : Text := (firstBytes bytes t.reverse).reverse

def byteLength (t : Text) : Nat := t.foldl (fun n c => n + c.utf8Size) 0

/-- a long text without its middle: 25 bytes of the start and 24 of the end remain -/
def shortened (t : Text) : Text :=
  if 50 < byteLength t then firstBytes 25 t ++ "...".toList ++ lastBytes 24 t else t

end Dictation.Json
