import Dictation.Text.Blank

/-!
# Punctuation

Four sets of marks, and what is cut off at the ends of a text:

* `isTerminator`       `. ! ?`, a sentence ends here;
* `isAttaching`        `, . ! ? ; :`, no space before it;
* `isMark`             the attaching ones and the dash;
* `isFiller`           what a recognizer puts after a trigger, `, ; : . -`.

`stripLeading` cuts attaching marks and blanks off the start; `stripTrailing` cuts the last run of
attaching marks off the end, with the blanks after it, and leaves blanks alone when no mark
stands before them.
-/

namespace Dictation

def terminators : Text := ['.', '!', '?']
def attachingMarks : Text := [',', '.', '!', '?', ';', ':']
def wordMarks : Text := [',', ';', ':', '.', '!', '?', '-']
def fillerMarks : Text := [',', ';', ':', '.', '-']

def isTerminator (c : Char) : Bool := terminators.contains c
def isAttaching (c : Char) : Bool := attachingMarks.contains c
def isMark (c : Char) : Bool := wordMarks.contains c
def isFiller (c : Char) : Bool := fillerMarks.contains c

theorem isAttaching_of_isTerminator {c : Char} (h : isTerminator c = true) :
    isAttaching c = true := by
  simp [isTerminator, terminators] at h
  rcases h with rfl | rfl | rfl <;> decide

theorem isMark_iff (c : Char) : isMark c = true ↔ isAttaching c = true ∨ c = '-' := by
  have h : wordMarks.Perm (attachingMarks ++ ['-']) := by decide
  rw [isMark, isAttaching, List.contains_iff_mem, List.contains_iff_mem, h.mem_iff,
    List.mem_append, List.mem_singleton]

namespace Text

def stripLeading (t : Text) : Text := t.dropWhile fun c => isBlank c || isAttaching c

def stripTrailing (t : Text) : Text :=
  let trimmed := trimRight t
  let cut := trimmed.dropEndWhile isAttaching
  if cut.length < trimmed.length then cut else t

theorem stripLeading_nil : stripLeading [] = [] := rfl
theorem stripTrailing_nil : stripTrailing [] = [] := rfl

example : stripTrailing "Hello. ".toList = "Hello".toList := by decide
example : stripTrailing "Hello ".toList = "Hello ".toList := by decide

/-- one terminator and nothing else -/
def isLoneTerminator : Text → Bool
  | [c] => isTerminator c
  | _ => false

end Text
end Dictation
