import Dictation.Text.Basic

/-!
# Line ends

A line of a file may end with a line feed, a carriage return, or both.  `Text.unifyLineEnds` writes
every one of them as a line feed.
-/

namespace Dictation.Text

/-- the text after a carriage return, if `afterReturn`, whose own line feed has been written -/
def lineFeeds (afterReturn : Bool) : Text → Text
  | [] => []
  | c :: r =>
    if c == '\r' then '\n' :: lineFeeds true r
    else if c == '\n' && afterReturn then lineFeeds false r
    else c :: lineFeeds false r

def unifyLineEnds (t : Text) : Text := lineFeeds false t

theorem unifyLineEnds_nil : unifyLineEnds [] = [] := rfl

theorem not_mem_lineFeeds (b : Bool) (t : Text) : '\r' ∉ lineFeeds b t := by
  induction t generalizing b with
  | nil => simp [lineFeeds]
  | cons c r ih =>
    rw [lineFeeds]
    split
    · simp [ih]
    · split
      · exact ih false
      · rename_i h _
        have : '\r' ≠ c := by
          rintro rfl
          simp at h
        simp [ih, this]

/-- a text without carriage returns stays as it is -/
theorem unifyLineEnds_eq_self (t : Text) (h : '\r' ∉ t) : unifyLineEnds t = t := by
  induction t with
  | nil => rfl
  | cons c r ih =>
    have hc : c ≠ '\r' := fun e => h (by simp [e])
    have hr : '\r' ∉ r := fun e => h (by simp [e])
    rw [unifyLineEnds] at ih ⊢
    simp [lineFeeds, hc, ih hr]

example : unifyLineEnds "a\r\nb\rc\n\nd".toList = "a\nb\nc\n\nd".toList := by decide

end Dictation.Text
