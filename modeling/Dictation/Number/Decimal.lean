import Dictation.Text.Basic

/-!
# Decimal numbers as text

The decimal digits of a number, most significant first and without leading zeros, and reading them
back.  Main statements: `ofDigits_digits`, `ofDigits_fixed`.
-/

namespace Dictation.Decimal

def digitChar (n : Nat) : Char := Char.ofNat (0x30 + n)
def digitValue (c : Char) : Nat := c.toNat - 0x30

def isDigit (c : Char) : Bool := 0x30 ≤ c.toNat && c.toNat ≤ 0x39

def digits (n : Nat) : Text :=
  if n < 10 then [digitChar n] else digits (n / 10) ++ [digitChar (n % 10)]

/-- the last `width` digits -/
def fixed : (width : Nat) → (n : Nat) → Text
  | 0, _ => []
  | width + 1, n => fixed width (n / 10) ++ [digitChar (n % 10)]

/-- the number that a list of digits goes on to after `n` -/
def ofDigitsAfter (n : Nat) (t : Text) : Nat := t.foldl (fun n c => n * 10 + digitValue c) n

def ofDigits (t : Text) : Nat := ofDigitsAfter 0 t

def ofInt (i : Int) : Text := if i < 0 then '-' :: digits i.natAbs else digits i.natAbs

/-! ## reading back -/

theorem digitChar_spec : ∀ n < 10, isDigit (digitChar n) = true ∧ digitValue (digitChar n) = n := by
  decide

theorem ofDigitsAfter_append (n : Nat) (s t : Text) :
    ofDigitsAfter n (s ++ t) = ofDigitsAfter (ofDigitsAfter n s) t := List.foldl_append ..

theorem digits_ne_nil (n : Nat) : digits n ≠ [] := by
  rw [digits]
  split <;> simp

theorem isDigit_of_mem_digits {n : Nat} {c : Char} (h : c ∈ digits n) : isDigit c = true := by
  induction n using Nat.strongRecOn with
  | _ n ih =>
    rw [digits] at h
    split at h
    · rename_i hn
      rw [List.mem_singleton] at h
      exact h ▸ (digitChar_spec n hn).1
    · rcases List.mem_append.1 h with h | h
      · exact ih (n / 10) (by omega) h
      · rw [List.mem_singleton] at h
        exact h ▸ (digitChar_spec (n % 10) (by omega)).1

theorem ofDigits_digits (n : Nat) : ofDigits (digits n) = n := by
  induction n using Nat.strongRecOn with
  | _ n ih =>
    rw [digits]
    split
    · rename_i hn
      simp [ofDigits, ofDigitsAfter, (digitChar_spec n hn).2]
    · rw [ofDigits, ofDigitsAfter_append, ← ofDigits, ih (n / 10) (by omega)]
      simp only [ofDigitsAfter, List.foldl_cons, List.foldl_nil,
        (digitChar_spec (n % 10) (by omega)).2]
      omega

theorem length_fixed (width n : Nat) : (fixed width n).length = width := by
  induction width generalizing n with
  | zero => rfl
  | succ w ih => rw [fixed, List.length_append, ih, List.length_singleton]

theorem ofDigits_fixed (width n : Nat) : ofDigits (fixed width n) = n % Nat.pow 10 width := by
  induction width generalizing n with
  | zero => exact (Nat.mod_one n).symm
  | succ w ih =>
    have hpow : Nat.pow 10 (w + 1) = 10 * Nat.pow 10 w := Nat.mul_comm _ 10
    rw [fixed, ofDigits, ofDigitsAfter_append, ← ofDigits, ih, hpow, Nat.mod_mul]
    simp only [ofDigitsAfter, List.foldl_cons, List.foldl_nil,
      (digitChar_spec (n % 10) (by omega)).2]
    omega

/-- numbers below the power have digits of their own -/
theorem fixed_inj {width a b : Nat} (ha : a < Nat.pow 10 width) (hb : b < Nat.pow 10 width) :
    fixed width a = fixed width b ↔ a = b := by
  refine ⟨fun h => ?_, fun h => by rw [h]⟩
  rw [← Nat.mod_eq_of_lt ha, ← Nat.mod_eq_of_lt hb, ← ofDigits_fixed, h, ofDigits_fixed]

theorem fixed_append_inj {width a b : Nat} (ha : a < Nat.pow 10 width) (hb : b < Nat.pow 10 width)
    {s t : Text} : fixed width a ++ s = fixed width b ++ t ↔ a = b ∧ s = t := by
  rw [← fixed_inj ha hb]
  refine ⟨fun h => List.append_inj h ?_, fun ⟨hdigits, hst⟩ => by rw [hdigits, hst]⟩
  rw [length_fixed, length_fixed]

end Dictation.Decimal
