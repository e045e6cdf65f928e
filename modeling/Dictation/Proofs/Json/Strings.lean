import Dictation.Json.Reader
import Dictation.Json.Writer

/-!
# Strings read as they were written

Whether its characters stand for themselves or are escapes, a written string is read as the units
it was written from, surrogates without a partner among them.

* `Units.flatMap_units_symbols`   units as symbols and back;
* `Json.text?_eq_some_iff`        the strings that have a text;
* `Json.readString_writeSymbol`   one symbol, plain or escaped;
* `Json.readString_writeString`   a whole string.
-/

namespace Dictation

/-! ## symbols as units -/

def Symbol.units : Symbol → Units
  | char c => Units.ofChar c
  | lone u => [u]

namespace Units

theorem toNat_ofNat_of_isValidChar {n : Nat} (h : n.isValidChar) : (Char.ofNat n).toNat = n := by
  rw [Char.ofNat, dif_pos h]
  rfl

theorem toUInt16_toNat (u : UInt16) : u.toNat.toUInt16 = u := by
  rw [Nat.toUInt16_eq, UInt16.ofNat_toNat]

theorem units_single (u : UInt16) : (single u).units = [u] := by
  unfold single
  split
  · rfl
  next h =>
    rw [Bool.or_eq_true, isHigh_iff, isLow_iff] at h
    have hu : u.toNat < 0x10000 := u.toNat_lt
    have hn : (Char.ofNat u.toNat).toNat = u.toNat :=
      toNat_ofNat_of_isValidChar (by unfold Nat.isValidChar; omega)
    rw [Symbol.units, ofChar, hn, if_pos hu, toUInt16_toNat]

theorem ofChar_pairChar {u v : UInt16} (hu : isHigh u = true) (hv : isLow v = true) :
    ofChar (pairChar u v) = [u, v] := by
  rw [isHigh_iff] at hu
  rw [isLow_iff] at hv
  have hn : (pairChar u v).toNat = 0x10000 + (u.toNat - 0xd800) * 0x400 + (v.toNat - 0xdc00) :=
    toNat_ofNat_of_isValidChar (by unfold Nat.isValidChar; omega)
  rw [ofChar, hn, if_neg (by omega)]
  have hhigh : (0x10000 + (u.toNat - 0xd800) * 0x400 + (v.toNat - 0xdc00) - 0x10000) / 0x400
      + 0xd800 = u.toNat := by omega
  have hlow : (0x10000 + (u.toNat - 0xd800) * 0x400 + (v.toNat - 0xdc00) - 0x10000) % 0x400
      + 0xdc00 = v.toNat := by omega
  rw [hhigh, hlow, toUInt16_toNat, toUInt16_toNat]

/-- no unit is lost between the symbols -/
theorem flatMap_units_symbols (us : Units) : (symbols us).flatMap Symbol.units = us := by
  induction us using symbols.induct with
  | case1 => rfl
  | case2 u => rw [symbols, List.flatMap_cons, units_single, List.flatMap_nil, List.append_nil]
  | case3 u v r h ih =>
    rw [Bool.and_eq_true] at h
    rw [symbols_cons_pair h.1 h.2, List.flatMap_cons, ih, Symbol.units, ofChar_pairChar h.1 h.2]
    rfl
  | case4 u v r h ih =>
    rw [symbols, if_neg h, List.flatMap_cons, ih, units_single]
    rfl

/-- units that have a text are the units of it -/
theorem encode_of_decode? {us : Units} {t : Text} (h : decode? us = some t) : encode t = us := by
  have hsymbols (ss : List Symbol) (t : Text)
      (h : (ss.mapM fun | .char c => some c | .lone _ => none) = some t) :
      ss.flatMap Symbol.units = encode t := by
    induction ss generalizing t with
    | nil =>
      cases h
      rfl
    | cons s ss ih =>
      rw [List.mapM_cons] at h
      cases s with
      | lone u => cases h
      | char c =>
        change Option.bind (ss.mapM _) (fun r => some (c :: r)) = some t at h
        obtain ⟨r, hr, hcons⟩ := Option.bind_eq_some_iff.1 h
        cases hcons
        rw [List.flatMap_cons, ih r hr, encode_cons, Symbol.units]
  rw [← hsymbols _ t h, flatMap_units_symbols]

end Units

theorem Json.text?_eq_some_iff {v : Json} {t : Text} : v.text? = some t ↔ v = .ofText t := by
  refine ⟨fun h => ?_, fun h => h ▸ text?_ofText t⟩
  cases v with
  | str us => rw [ofText, Units.encode_of_decode? h]
  | _ => cases h

/-! ## strings -/

namespace Json

theorem hexValue?_hexDigit : ∀ n < 16, hexValue? (hexDigit n) = some n := by decide

/-- what was read stands behind some units -/
def behind (us : Units) : Units × Text → Units × Text
  | (vs, rest) => (us ++ vs, rest)

theorem behind_append (us vs : Units) (p : Option (Units × Text)) :
    (p.map (behind vs)).map (behind us) = p.map (behind (us ++ vs)) := by
  cases p with
  | none => rfl
  | some p => simp only [Option.map_some, behind, List.append_assoc]

theorem readString_escapeUnit (u : UInt16) (r : Text) :
    readString (escapeUnit u ++ r) = (readString r).map (behind [u]) := by
  have hu : u.toNat < 0x10000 := u.toNat_lt
  have hunit : unit? (hexDigit (u.toNat / 16 / 16 / 16 % 16)) (hexDigit (u.toNat / 16 / 16 % 16))
      (hexDigit (u.toNat / 16 % 16)) (hexDigit (u.toNat % 16)) = some u := by
    unfold unit?
    simp only [hexValue?_hexDigit _ (Nat.mod_lt _ (by decide : 0 < 16))]
    have hn : (((u.toNat / 16 / 16 / 16 % 16) * 16 + u.toNat / 16 / 16 % 16) * 16
        + u.toNat / 16 % 16) * 16 + u.toNat % 16 = u.toNat := by omega
    rw [hn, Units.toUInt16_toNat]
  show readString ('\\' :: 'u' :: _ :: _ :: _ :: _ :: r) = _
  rw [readString, hunit]
  cases readString r <;> rfl

theorem readString_escapeUnits (us : Units) (r : Text) :
    readString (us.flatMap escapeUnit ++ r) = (readString r).map (behind us) := by
  induction us with
  | nil =>
    show readString r = _
    cases readString r <;> rfl
  | cons u us ih =>
    rw [List.flatMap_cons, List.append_assoc, readString_escapeUnit, ih, behind_append]
    rfl

theorem escaped?_of_shortEscape? {c e : Char} (h : shortEscape? c = some e) :
    e ≠ 'u' ∧ escaped? e = some c := by
  unfold shortEscape? at h
  grind [escaped?]

theorem ne_of_shortEscape?_eq_none {c : Char} (h : shortEscape? c = none) :
    c ≠ '"' ∧ c ≠ '\\' := by
  constructor <;> rintro rfl <;> exact absurd h (by decide)

theorem readString_shortEscape {c e : Char} (h : shortEscape? c = some e) (r : Text) :
    readString ('\\' :: e :: r) = (readString r).map (behind (Units.ofChar c)) := by
  obtain ⟨hu, he⟩ := escaped?_of_shortEscape? h
  rw [readString, he]
  · cases readString r <;> rfl
  · intro a b c d r' h
    exact absurd h hu

theorem readString_plain {c : Char} (hquote : c ≠ '"') (hslash : c ≠ '\\') (hc : 0x20 ≤ c.toNat)
    (r : Text) : readString (c :: r) = (readString r).map (behind (Units.ofChar c)) := by
  rw [readString, if_neg]
  · rfl
  · simp [hslash, Nat.not_lt.2 hc]
  · exact hquote
  · intro a b c' d r' h
    exact absurd h hslash
  · intro e r' h
    exact absurd h hslash

theorem readString_writeSymbol (ascii : Bool) (s : Symbol) (r : Text) :
    readString (writeSymbol ascii s ++ r) = (readString r).map (behind s.units) := by
  cases s with
  | lone u => exact readString_escapeUnit u r
  | char c =>
    rw [writeSymbol, writeChar]
    cases h : shortEscape? c with
    | some e => exact readString_shortEscape h r
    | none =>
      obtain ⟨hquote, hslash⟩ := ne_of_shortEscape?_eq_none h
      dsimp only
      split
      · next hplain =>
        rw [isPlain, Bool.and_eq_true, decide_eq_true_iff] at hplain
        exact readString_plain hquote hslash hplain.1 r
      · exact readString_escapeUnits _ r

theorem readString_writeSymbols (ascii : Bool) (ss : List Symbol) (r : Text) :
    readString (ss.flatMap (writeSymbol ascii) ++ '"' :: r)
      = some (ss.flatMap Symbol.units, r) := by
  induction ss with
  | nil => rfl
  | cons s ss ih =>
    rw [List.flatMap_cons, List.append_assoc, readString_writeSymbol, ih]
    rfl

theorem readString_writeString (ascii : Bool) (s : Units) (r : Text) :
    ∃ t, writeString ascii s ++ r = '"' :: t ∧ readString t = some (s, r) := by
  refine ⟨(Units.symbols s).flatMap (writeSymbol ascii) ++ '"' :: r, ?_, ?_⟩
  · rw [writeString, List.cons_append, List.cons_append, List.append_assoc, List.singleton_append]
  · rw [readString_writeSymbols, Units.flatMap_units_symbols]

end Json
end Dictation
