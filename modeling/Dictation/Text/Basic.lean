/-!
# Texts: lists of characters

A dictated text is a list of Unicode characters, so that every offset and every length counts
characters.  This file has the operations on texts that know nothing about the characters in
them:

* `Text.beginsWith`     a text starts with another one;
* `Text.dropEndWhile`   cut a run of characters off the end;
* `Text.joinWith`       texts with a separator between them;
* `Text.lastIndex?`     the last position where a test holds.
-/

namespace Dictation

abbrev Text := List Char

namespace Text

/-! ## the ends of a text -/

def beginsWith : (start t : Text) → Bool
  | [], _ => true
  | _ :: _, [] => false
  | s :: ss, c :: cs => s == c && beginsWith ss cs

theorem beginsWith_nil (t : Text) : beginsWith [] t = true := rfl

theorem beginsWith_iff (s t : Text) : beginsWith s t = true ↔ ∃ r, t = s ++ r := by
  induction s generalizing t with
  | nil => simp [beginsWith]
  | cons a s ih =>
    cases t with
    | nil => simp [beginsWith]
    | cons c t =>
      rw [beginsWith, Bool.and_eq_true, beq_iff_eq, ih]
      constructor
      · rintro ⟨rfl, r, rfl⟩
        exact ⟨r, rfl⟩
      · rintro ⟨r, h⟩
        obtain ⟨rfl, rfl⟩ := List.cons.inj h
        exact ⟨rfl, r, rfl⟩

def dropEndWhile (p : Char → Bool) (t : Text) : Text := (t.reverse.dropWhile p).reverse

theorem dropEndWhile_nil (p : Char → Bool) : dropEndWhile p [] = [] := rfl

/-- only the end is cut -/
theorem dropEndWhile_append_cut (p : Char → Bool) (t : Text) :
    dropEndWhile p t ++ (t.reverse.takeWhile p).reverse = t := by
  rw [dropEndWhile, ← List.reverse_append, List.takeWhile_append_dropWhile, List.reverse_reverse]

/-- where dropping stops -/
theorem not_of_dropWhile {α : Type} {p : α → Bool} {c : α} {l r : List α}
    (h : l.dropWhile p = c :: r) : p c = false := by
  have hnot := List.head?_dropWhile_not p l
  rwa [h] at hnot

/-! ## joining -/

def joinWith (sep : Text) : List Text → Text
  | [] => []
  | [t] => t
  | t :: u :: ts => t ++ sep ++ joinWith sep (u :: ts)

theorem joinWith_nil (sep : Text) : joinWith sep [] = [] := rfl
theorem joinWith_single (sep t : Text) : joinWith sep [t] = t := rfl
theorem joinWith_cons (sep t u : Text) (ts : List Text) :
    joinWith sep (t :: u :: ts) = t ++ sep ++ joinWith sep (u :: ts) := rfl

/-! ## the last position where a test holds -/

def lastIndex? (p : Char → Bool) : Text → Option Nat
  | [] => none
  | c :: r =>
    match lastIndex? p r with
    | some i => some (i + 1)
    | none => if p c then some 0 else none

theorem lastIndex?_nil (p : Char → Bool) : lastIndex? p [] = none := rfl

theorem lastIndex?_eq_none_iff (p : Char → Bool) (t : Text) :
    lastIndex? p t = none ↔ ∀ c ∈ t, p c = false := by
  induction t with
  | nil => simp [lastIndex?]
  | cons c r ih =>
    unfold lastIndex?
    cases h : lastIndex? p r with
    | some i => simp_all
    | none => simp_all

end Text
end Dictation
