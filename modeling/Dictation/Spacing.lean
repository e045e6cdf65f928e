import Dictation.Text.Punctuation

/-!
# The space between two pieces of dictation

A piece gets one space before it, unless nothing stands before it, a line begins with it, or it
is empty or begins with a mark that attaches to the word before.
-/

namespace Dictation.Spacing

/-- a piece that wants a space before it -/
def wantsSpace : Text → Bool
  | [] => false
  | c :: _ => !isAttaching c

theorem wantsSpace_nil : wantsSpace [] = false := rfl
theorem wantsSpace_cons (c : Char) (t : Text) : wantsSpace (c :: t) = !isAttaching c := rfl

def endsLine (t : Text) : Bool := t.getLast? == some '\n'

/-- what goes between the text before and the next piece: nothing or one space -/
def separator (before next : Text) : Text :=
  if before.isEmpty || endsLine before || !wantsSpace next then [] else [' ']

theorem separator_nil_left (next : Text) : separator [] next = [] := rfl

theorem separator_eq_nil_or (before next : Text) :
    separator before next = [] ∨ separator before next = [' '] := by
  unfold separator
  split <;> simp

end Dictation.Spacing
