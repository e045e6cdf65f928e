import Dictation.Text.Lower

/-!
# Letters alike but for their case

Two characters are alike when their case keys are equal.  The key is the one-to-one lower case,
and one key for each group of small letters that share a capital: the dotless i with i, the long s
with s, the micro sign with mu, the final sigma with sigma, and so on.
-/

namespace Dictation

/-- small letters that share a capital with another one, and that one -/
def sharedCapitals : List (Nat × Nat) :=
  [(0xb5, 0x3bc), (0x131, 0x69), (0x17f, 0x73), (0x345, 0x3b9), (0x3c2, 0x3c3), (0x3d0, 0x3b2),
   (0x3d1, 0x3b8), (0x3d5, 0x3c6), (0x3d6, 0x3c0), (0x3f0, 0x3ba), (0x3f1, 0x3c1), (0x3f5, 0x3b5),
   (0x1c80, 0x432), (0x1c81, 0x434), (0x1c82, 0x43e), (0x1c83, 0x441), (0x1c84, 0x442),
   (0x1c85, 0x442), (0x1c86, 0x44a), (0x1c87, 0x463), (0x1c88, 0xa64b), (0x1e9b, 0x1e61),
   (0x1fbe, 0x3b9), (0x1fd3, 0x390), (0x1fe3, 0x3b0), (0xfb06, 0xfb05)]

def caseKey (c : Char) : Nat :=
  let n := (lowered c).toNat
  ((sharedCapitals.find? (·.1 == n)).map (·.2)).getD n

def alike (a b : Char) : Bool := caseKey a == caseKey b

theorem alike_refl (a : Char) : alike a a = true := beq_self_eq_true _
theorem alike_comm (a b : Char) : alike a b = alike b a :=
  Bool.beq_comm

example : alike 'K' (Char.ofNat 0x212a) = true := by decide
example : alike 'i' (Char.ofNat 0x131) = true := by decide
example : alike 'a' (Char.ofNat 0xe4) = false := by decide

/-- a text begins with another one up to case -/
def Text.beginsAlike : (start t : Text) → Bool
  | [], _ => true
  | _ :: _, [] => false
  | s :: ss, c :: cs => alike s c && beginsAlike ss cs

theorem Text.beginsAlike_nil (t : Text) : Text.beginsAlike [] t = true := rfl

theorem Text.length_le_of_beginsAlike {s t : Text} (h : s.beginsAlike t = true) :
    s.length ≤ t.length := by
  induction s generalizing t with
  | nil => simp
  | cons a s ih =>
    cases t with
    | nil => simp [Text.beginsAlike] at h
    | cons c t =>
      have := ih (t := t) (by simp_all [Text.beginsAlike])
      simpa using this

end Dictation
