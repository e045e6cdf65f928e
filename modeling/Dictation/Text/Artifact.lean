import Dictation.Text.WordChar

/-!
# Recognizer artifacts

A recognizer writes `[BLANK_AUDIO]` or `[ Silence ]` for what is no speech: an opening bracket,
blanks, one or more word characters, blanks, a closing bracket.  `removeArtifacts` takes them out
in one pass from left to right; what is joined by a removal is not looked at again.
-/

namespace Dictation.Text

/-- length of the artifact at the start of the text, 0 if there is none -/
def artifactLength : Text → Nat
  | '[' :: r =>
    let gap := r.takeWhile isBlank
    let rest := r.dropWhile isBlank
    let name := rest.takeWhile isWordChar
    let after := rest.dropWhile isWordChar
    let gap' := after.takeWhile isBlank
    match after.dropWhile isBlank with
    | ']' :: _ => if name.isEmpty then 0 else gap.length + name.length + gap'.length + 2
    | _ => 0
  | _ => 0

/-- leave out the next `skip` characters, then every artifact -/
def removeArtifactsAfter : (skip : Nat) → Text → Text
  | _, [] => []
  | skip + 1, _ :: r => removeArtifactsAfter skip r
  | 0, c :: r =>
    match artifactLength (c :: r) with
    | 0 => c :: removeArtifactsAfter 0 r
    | n + 1 => removeArtifactsAfter n r

def removeArtifacts (t : Text) : Text := removeArtifactsAfter 0 t

/-- the text without its artifacts and without blanks at the ends -/
def stripArtifacts (t : Text) : Text := trim (removeArtifacts t)

theorem removeArtifacts_nil : removeArtifacts [] = [] := rfl

theorem artifactLength_cons_of_ne {c : Char} (h : c ≠ '[') (r : Text) :
    artifactLength (c :: r) = 0 := by
  unfold artifactLength
  split
  · next heq => exact absurd (List.cons.inj heq).1 h
  · rfl

example : stripArtifacts "[BLANK_AUDIO] hi [ Silence ]".toList = "hi".toList := by decide +kernel
example : stripArtifacts "[two words]".toList = "[two words]".toList := by decide +kernel

end Dictation.Text
