import Dictation.Number.Decimal
import Dictation.Text.Quoted

/-!
# Bytes as text

`Utf8.next` reads one character in UTF-8 or finds the bytes that are none.  A strict reading stops
at the first fault; a lossless one keeps every faulty byte as the low surrogate U+DC00 + byte.

* `Utf8.Fault`        where the bytes are no UTF-8, how many of them, and why;
* `Utf8.decode`       the text, or the first fault;
* `Utf8.symbols`      the text with the faulty bytes kept.
-/

namespace Dictation.Utf8

inductive Reason where
  | start
  | continuation
  | truncated
deriving DecidableEq, Repr

structure Fault where
  position : Nat
  bytes : List UInt8
  reason : Reason
deriving DecidableEq, Repr

/-- what the bytes begin with: a character and its length less one, or a fault and the number of
its bytes less one -/
inductive Step where
  | char (c : Char) (more : Nat)
  | fault (more : Nat) (reason : Reason)

def isContinuation (b : UInt8) : Bool := 0x80 ≤ b.toNat && b.toNat < 0xc0

/-- how many bytes follow a first byte, and the lowest and highest second byte -/
def following (b : Nat) : Option (Nat × Nat × Nat) :=
  if b < 0x80 then some (0, 0, 0)
  else if b < 0xc2 then none
  else if b < 0xe0 then some (1, 0x80, 0xbf)
  else if b == 0xe0 then some (2, 0xa0, 0xbf)
  else if b == 0xed then some (2, 0x80, 0x9f)
  else if b < 0xf0 then some (2, 0x80, 0xbf)
  else if b == 0xf0 then some (3, 0x90, 0xbf)
  else if b < 0xf4 then some (3, 0x80, 0xbf)
  else if b == 0xf4 then some (3, 0x80, 0x8f)
  else none

/-- the payload of a first byte that `more` bytes follow -/
def payload (b more : Nat) : Nat :=
  match more with
  | 0 => b
  | 1 => b - 0xc0
  | 2 => b - 0xe0
  | _ => b - 0xf0

/-- read `more` continuation bytes; `used` have been read -/
def finish (value used : Nat) : (more : Nat) → List UInt8 → Step
  | 0, _ => .char (Char.ofNat value) used
  | _ + 1, [] => .fault used .truncated
  | more + 1, b :: r =>
    if isContinuation b then finish (value * 0x40 + (b.toNat - 0x80)) (used + 1) more r
    else .fault used .continuation

/-- a truncated sequence at the end takes all that is left -/
def next (b : UInt8) (r : List UInt8) : Step :=
  match following b.toNat with
  | none => .fault 0 .start
  | some (0, _, _) => .char (Char.ofNat b.toNat) 0
  | some (more + 1, lo, hi) =>
    match r with
    | [] => .fault 0 .truncated
    | c :: r' =>
      if lo ≤ c.toNat && c.toNat ≤ hi then
        finish (payload b.toNat (more + 1) * 0x40 + (c.toNat - 0x80)) 1 more r'
      else .fault 0 .continuation

def decodeFrom (position : Nat) : (skip : Nat) → List UInt8 → Except Fault Text
  | _, [] => .ok []
  | skip + 1, _ :: r => decodeFrom (position + 1) skip r
  | 0, b :: r =>
    match next b r with
    | .char c more => (decodeFrom (position + 1) more r).map (c :: ·)
    | .fault more reason => .error ⟨position, b :: r.take more, reason⟩

def decode (bytes : List UInt8) : Except Fault Text := decodeFrom 0 0 bytes

def faultyByte (b : UInt8) : Symbol := .lone (0xdc00 + b.toUInt16)

def symbolsAfter : (skip : Nat) → List UInt8 → List Symbol
  | _, [] => []
  | skip + 1, _ :: r => symbolsAfter skip r
  | 0, b :: r =>
    match next b r with
    | .char c more => .char c :: symbolsAfter more r
    | .fault more _ => (b :: r.take more).map faultyByte ++ symbolsAfter more r

def symbols (bytes : List UInt8) : List Symbol := symbolsAfter 0 bytes

/-! ## wording -/

def Reason.text : Reason → Text
  | .start => "invalid start byte".toList
  | .continuation => "invalid continuation byte".toList
  | .truncated => "unexpected end of data".toList

def Fault.place (f : Fault) : Text :=
  match f.bytes with
  | [b] => "byte 0x".toList ++ hexDigits 2 b.toNat ++ " in position ".toList
      ++ Decimal.digits f.position
  | bs => "bytes in position ".toList ++ Decimal.digits f.position
      ++ '-' :: Decimal.digits (f.position + bs.length - 1)

def Fault.message (f : Fault) : Text :=
  "'utf-8' codec can't decode ".toList ++ f.place ++ ": ".toList ++ f.reason.text

end Dictation.Utf8
