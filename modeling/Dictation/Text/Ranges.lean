/-!
# Sets of code points given by ranges

A character class of the Unicode standard is a list of inclusive ranges of code points.
-/

namespace Dictation

abbrev Ranges := List (Nat × Nat)

namespace Ranges

def contains (rs : Ranges) (n : Nat) : Bool := rs.any fun r => r.1 ≤ n && n ≤ r.2

theorem contains_nil (n : Nat) : contains [] n = false := rfl
theorem contains_cons (lo hi : Nat) (rs : Ranges) (n : Nat) :
    contains ((lo, hi) :: rs) n = ((decide (lo ≤ n) && decide (n ≤ hi)) || contains rs n) := rfl

theorem contains_iff (rs : Ranges) (n : Nat) :
    rs.contains n = true ↔ ∃ r ∈ rs, r.1 ≤ n ∧ n ≤ r.2 := by
  simp [contains]

/-- no range of one set meets a range of the other -/
def apart (rs ss : Ranges) : Bool := rs.all fun r => ss.all fun s => r.2 < s.1 || s.2 < r.1

/-- sets whose ranges do not meet have no code point in common -/
theorem not_contains_of_apart {rs ss : Ranges} (h : apart rs ss = true) {n : Nat}
    (hn : rs.contains n = true) : ss.contains n = false := by
  obtain ⟨r, hr, h1, h2⟩ := (contains_iff rs n).1 hn
  rw [Bool.eq_false_iff]
  intro hs
  obtain ⟨s, hs, h3, h4⟩ := (contains_iff ss n).1 hs
  simp only [apart, List.all_eq_true, Bool.or_eq_true, decide_eq_true_eq] at h
  rcases h r hr s hs with h | h <;> omega

end Ranges
end Dictation
