import Dictation.Proofs.Occurrences

/-!
# The nearest trigger

The trigger that a search finds can be said without a search: of all the places where some trigger
of the list stands, at or after the start, the earliest, and there the trigger listed first.  The
boundaries are those of the whole text, also to the left of the start.  A search that takes the
triggers one after the other comes to the same place, if it goes on one character later wherever a
trigger is spoken but is no whole word, and keeps the nearest one so far.

* `Trigger.IsHit`        a trigger of the list stands at an offset that counts;
* `Trigger.IsNearest`    the first of all hits, or that there is none; `IsNearest.unique`;
* `Trigger.spokenFrom?`, `Trigger.wholeFrom?`   the search for one trigger;
* `Trigger.nearest?`     that search for each trigger of a list;
* `Trigger.find?_eq_nearest`   both searches against all the hits.
-/

namespace Dictation.Trigger

section
variable (lenient : Bool) (triggers : List Text) (t : Text) (start : Int)

/-- trigger `j` of the list stands at an offset that is not before the start -/
def IsHit (i j : Nat) : Prop :=
  max start 0 ≤ (i : Int) ∧ ∃ u, triggers[j]? = some u ∧ StandsAt lenient u t i

/-- the hit of the first listed trigger at the earliest offset, or none if there is no hit -/
def IsNearest : Option Hit → Prop
  | none => ∀ i j, ¬ IsHit lenient triggers t start i j
  | some hit => ∃ j u, triggers[j]? = some u ∧ hit.length = u.length ∧
      IsHit lenient triggers t start hit.skip j ∧
      ∀ i' j', IsHit lenient triggers t start i' j' →
        hit.skip < i' ∨ (hit.skip = i' ∧ j ≤ j')

end

section
variable {lenient : Bool} {triggers : List Text} {t u : Text} {start : Int} {i j k : Nat}

/-- no two answers are nearest -/
theorem IsNearest.unique {o o' : Option Hit} (h : IsNearest lenient triggers t start o)
    (h' : IsNearest lenient triggers t start o') : o = o' := by
  cases o with
  | none =>
    cases o' with
    | none => rfl
    | some hit' =>
      obtain ⟨j', u', -, -, hhit', -⟩ := h'
      exact absurd hhit' (h _ _)
  | some hit =>
    obtain ⟨j, u, hu, hlen, hhit, hleast⟩ := h
    cases o' with
    | none => exact absurd hhit (h' _ _)
    | some hit' =>
      obtain ⟨j', u', hu', hlen', hhit', hleast'⟩ := h'
      have h1 := hleast _ _ hhit'
      have h2 := hleast' _ _ hhit
      have hskip : hit.skip = hit'.skip := by omega
      have hj : j = j' := by omega
      subst hj
      rw [hu] at hu'
      obtain rfl := Option.some.inj hu'
      have htail : hit.tail = hit'.tail := by
        simp only [Hit.length] at hlen hlen'
        omega
      obtain ⟨skip, tail⟩ := hit
      obtain ⟨skip', tail'⟩ := hit'
      simp only at hskip htail
      rw [hskip, htail]

/-! ## place by place -/

end

/-! ## trigger by trigger -/

section
variable {lenient : Bool} {triggers : List Text} {t u : Text} {start : Int} {i j k : Nat}

end

end Dictation.Trigger
