import Dictation.Number.Decimal

/-!
# Binary floating point with 53 bits

A finite number is a sign, a mantissa below 2^53 and an exponent of two from -1074 on, the mantissa
at least 2^52 unless the exponent is the least one.

* `Binary64.ofRatio`     the number nearest to a quotient, a tie goes to the even mantissa;
* `Binary64.ofDecimal`   the number nearest to digits and a power of ten;
* `Binary64.shortest`    the fewest decimal digits that read back as the number;
* `Binary64.text`        positional from 0.0001 on and below 10^16, else with an exponent.
-/

namespace Dictation

inductive Binary64 where
  | finite (negative : Bool) (mantissa : Nat) (exponent : Int)
  | infinity (negative : Bool)
  | nan
deriving DecidableEq, Repr

namespace Binary64

/-! ## powers -/

def twoTo (n : Nat) : Nat := Nat.pow 2 n
def tenTo (n : Nat) : Nat := Nat.pow 10 n

/-! ## the nearest number -/

/-- the nearest whole number to `n / d`, a tie goes to the even one -/
def divRound (n d : Nat) : Nat :=
  let k := n / d
  let r := n % d
  if 2 * r < d then k else if d < 2 * r then k + 1 else k + k % 2

/-- the nearest whole number to `n / d / 2^q` -/
def scaleRound (n d : Nat) (q : Int) : Nat :=
  if 0 ≤ q then divRound n (d * twoTo q.toNat) else divRound (n * twoTo (-q).toNat) d

/-- the mantissa `m` at exponent `q`, carried on if it has become 2^53 -/
def carried (negative : Bool) (m : Nat) (q : Int) : Binary64 :=
  let (m, q) := if m < twoTo 53 then (m, q) else (m / 2, q + 1)
  if 971 < q then .infinity negative else .finite negative m q

def ofRatio (negative : Bool) (n d : Nat) : Binary64 :=
  if n == 0 then .finite negative 0 (-1074)
  else
    let q := max ((Nat.log2 n : Int) - Nat.log2 d - 53) (-1074)
    let m := scaleRound n d q
    if m < twoTo 53 then carried negative m q
    else carried negative (scaleRound n d (q + 1)) (q + 1)

/-- `n` times ten to the power `e`; far out of range it is not worked out -/
def ofDecimal (negative : Bool) (n : Nat) (e : Int) : Binary64 :=
  let size : Int := (Decimal.digits n).length + e
  if n == 0 || size < -330 then .finite negative 0 (-1074)
  else if 320 < size then .infinity negative
  else if 0 ≤ e then ofRatio negative (n * tenTo e.toNat) 1
  else ofRatio negative n (tenTo (-e).toNat)

/-! ## the shortest digits -/

/-- compares `a * 2^q` with `b * 10^p` in whole numbers -/
def compareScaled (a : Nat) (q : Int) (b : Nat) (p : Int) : Ordering :=
  compare (a * twoTo q.toNat * tenTo (-p).toNat) (b * tenTo p.toNat * twoTo (-q).toNat)

/-- `a * 2^q / 10^p` without its fraction -/
def wholePart (a : Nat) (q p : Int) : Nat :=
  (a * twoTo q.toNat * tenTo (-p).toNat) / (tenTo p.toNat * twoTo (-q).toNat)

/-- `c * 10^p` reads back as `m * 2^q`: in units of `2^(q-2)` the interval reaches half way to both
neighbours, and its ends belong to it if the mantissa is even -/
def readsBack (m : Nat) (q : Int) (c : Nat) (p : Int) : Bool :=
  let low := if m == twoTo 52 && -1074 < q then 4 * m - 1 else 4 * m - 2
  match compareScaled low (q - 2) c p, compareScaled (4 * m + 2) (q - 2) c p with
  | .lt, .gt => true
  | .eq, _ => m % 2 == 0
  | _, .eq => m % 2 == 0
  | _, _ => false

/-- how many digits `m * 2^q` has before the point; less than one for numbers below one tenth -/
def pointPosition (m : Nat) (q : Int) : Int :=
  (Decimal.digits (wholePart m q (-330))).length - 330

/-- the one of the two neighbours on the grid `10^p` that reads back; the nearer one of both -/
def onGrid? (m : Nat) (q p : Int) : Option Nat :=
  let f := wholePart m q p
  match readsBack m q f p, readsBack m q (f + 1) p with
  | true, true =>
    match compareScaled (2 * m) q (2 * f + 1) p with
    | .lt => some f
    | .gt => some (f + 1)
    | .eq => some (f + f % 2)
  | true, false => some f
  | false, true => some (f + 1)
  | false, false => none

/-- the digits of the shortest decimal that reads back, and the position of its point -/
def shortest (m : Nat) (q : Int) : Text × Int :=
  let k := pointPosition m q
  match (List.range 17).findSome? fun (n : Nat) =>
      (onGrid? m q (k - (n + 1))).map fun c => (c, k - (n + 1)) with
  | some (c, p) =>
    let ds := Decimal.digits c
    (ds.dropEndWhile (· == '0'), ds.length + p)
  | none => ([], k)

/-! ## text -/

def zeros (n : Nat) : Text := List.replicate n '0'

/-- at least two digits -/
def exponentText (e : Int) : Text :=
  let ds := Decimal.digits e.natAbs
  (if e < 0 then '-' else '+') :: zeros (2 - ds.length) ++ ds

/-- digits `ds` with the point after `k` of them -/
def placed (ds : Text) (k : Int) : Text :=
  if k ≤ -4 || 16 < k then
    ds.take 1 ++ (if ds.length ≤ 1 then [] else '.' :: ds.drop 1) ++ 'e' :: exponentText (k - 1)
  else if k ≤ 0 then "0.".toList ++ zeros (-k).toNat ++ ds
  else if ds.length ≤ k.toNat then ds ++ zeros (k.toNat - ds.length) ++ ".0".toList
  else ds.take k.toNat ++ '.' :: ds.drop k.toNat

def magnitudeText (m : Nat) (q : Int) : Text :=
  if m == 0 then "0.0".toList else (fun d => placed d.1 d.2) (shortest m q)

/-- the spellings of an infinite number and of no number are given by the format -/
def text (infinite notANumber : Text) : Binary64 → Text
  | .finite negative m q => (if negative then ['-'] else []) ++ magnitudeText m q
  | .infinity negative => (if negative then ['-'] else []) ++ infinite
  | .nan => notANumber

/-! ## whole numbers -/

/-- the whole number that a finite number is -/
def toInt? : Binary64 → Option Int
  | .finite negative m q =>
    let whole : Option Nat :=
      if 0 ≤ q then some (m * twoTo q.toNat)
      else if m % twoTo (-q).toNat == 0 then some (m / twoTo (-q).toNat) else none
    whole.map fun (n : Nat) => if negative then -(n : Int) else n
  | _ => none

end Binary64
end Dictation
