import Dictation.Text.Basic

/-!
# Sixteen-bit units

A text as its UTF-16 units.  A list of units may hold a surrogate without its partner; read as
symbols, such a unit stands for itself.  Main statement: `decode?_encode`.
-/

namespace Dictation

abbrev Units := List UInt16

/-- a character, or a surrogate without its partner -/
inductive Symbol where
  | char (c : Char)
  | lone (unit : UInt16)
deriving DecidableEq, Repr

namespace Units

def isHigh (u : UInt16) : Bool := 0xd800 ≤ u.toNat && u.toNat < 0xdc00
def isLow (u : UInt16) : Bool := 0xdc00 ≤ u.toNat && u.toNat < 0xe000

/-! ## from text to units -/

def ofChar (c : Char) : Units :=
  let n := c.toNat
  if n < 0x10000 then [n.toUInt16]
  else [((n - 0x10000) / 0x400 + 0xd800).toUInt16, ((n - 0x10000) % 0x400 + 0xdc00).toUInt16]

def encode (t : Text) : Units := t.flatMap ofChar

theorem encode_nil : encode [] = [] := rfl
theorem encode_cons (c : Char) (t : Text) : encode (c :: t) = ofChar c ++ encode t := rfl

/-! ## from units to symbols -/

def pairChar (high low : UInt16) : Char :=
  Char.ofNat (0x10000 + (high.toNat - 0xd800) * 0x400 + (low.toNat - 0xdc00))

def single (u : UInt16) : Symbol :=
  if isHigh u || isLow u then .lone u else .char (Char.ofNat u.toNat)

def symbols : Units → List Symbol
  | [] => []
  | [u] => [single u]
  | u :: v :: r =>
    if isHigh u && isLow v then .char (pairChar u v) :: symbols r
    else single u :: symbols (v :: r)

/-- the text of the units; none if a surrogate stands alone -/
def decode? (us : Units) : Option Text :=
  (symbols us).mapM fun
    | .char c => some c
    | .lone _ => none

/-! ## there and back -/

theorem isHigh_iff (u : UInt16) : isHigh u = true ↔ 0xd800 ≤ u.toNat ∧ u.toNat < 0xdc00 := by
  simp [isHigh]
theorem isLow_iff (u : UInt16) : isLow u = true ↔ 0xdc00 ≤ u.toNat ∧ u.toNat < 0xe000 := by
  simp [isLow]

theorem symbols_cons_single {u : UInt16} (h : isHigh u = false) (us : Units) :
    symbols (u :: us) = single u :: symbols us := by
  cases us <;> simp [symbols, h]

theorem symbols_cons_pair {u v : UInt16} (h : isHigh u = true) (l : isLow v = true) (us : Units) :
    symbols (u :: v :: us) = .char (pairChar u v) :: symbols us := by
  simp [symbols, h, l]

theorem toNat_toUInt16 {n : Nat} (h : n < 0x10000) : n.toUInt16.toNat = n := by
  rw [Nat.toUInt16_eq, UInt16.toNat_ofNat_of_lt' h]

theorem symbols_ofChar (c : Char) (us : Units) : symbols (ofChar c ++ us) = .char c :: symbols us := by
  have hv : c.toNat < 0xd800 ∨ (0xdfff < c.toNat ∧ c.toNat < 0x110000) := c.valid
  by_cases h : c.toNat < 0x10000
  · have hu := toNat_toUInt16 h
    have h1 : isHigh c.toNat.toUInt16 = false := by
      rw [Bool.eq_false_iff, Ne, isHigh_iff, hu]
      omega
    have h2 : isLow c.toNat.toUInt16 = false := by
      rw [Bool.eq_false_iff, Ne, isLow_iff, hu]
      omega
    rw [ofChar, if_pos h]
    show symbols (c.toNat.toUInt16 :: us) = _
    rw [symbols_cons_single h1, single, h1, h2, hu, Char.ofNat_toNat]
    rfl
  · have hh : ((c.toNat - 0x10000) / 0x400 + 0xd800).toUInt16.toNat
        = (c.toNat - 0x10000) / 0x400 + 0xd800 := toNat_toUInt16 (by omega)
    have hl : ((c.toNat - 0x10000) % 0x400 + 0xdc00).toUInt16.toNat
        = (c.toNat - 0x10000) % 0x400 + 0xdc00 := toNat_toUInt16 (by omega)
    rw [ofChar, if_neg h]
    show symbols (_ :: _ :: us) = _
    rw [symbols_cons_pair ((isHigh_iff _).2 (by rw [hh]; omega)) ((isLow_iff _).2 (by rw [hl]; omega)),
      pairChar, hh, hl]
    have e : 0x10000 + ((c.toNat - 0x10000) / 0x400 + 0xd800 - 0xd800) * 0x400
        + ((c.toNat - 0x10000) % 0x400 + 0xdc00 - 0xdc00) = c.toNat := by omega
    rw [e, Char.ofNat_toNat]

theorem symbols_encode (t : Text) : symbols (encode t) = t.map .char := by
  induction t with
  | nil => rfl
  | cons c t ih => rw [encode_cons, symbols_ofChar, ih, List.map_cons]

/-- the units of a text read back as the text -/
theorem decode?_encode (t : Text) : decode? (encode t) = some t := by
  rw [decode?, symbols_encode]
  induction t with
  | nil => rfl
  | cons c t ih => simp_all [List.mapM_cons]

end Units
end Dictation
