import Dictation.Text.Basic
import Dictation.Text.Ranges

/-!
# Blank characters and the words between them

The blanks are the white-space characters of Unicode 14 together with the four separators
U+001C to U+001F.  A word is a maximal run of characters that are not blank.

* `Text.trim`     no blank at either end;
* `Text.words`    the words in order;
* `Text.squeeze`  the words with single spaces between them.
-/

namespace Dictation

def blankRanges : Ranges :=
  [(0x9, 0xd), (0x1c, 0x20), (0x85, 0x85), (0xa0, 0xa0), (0x1680, 0x1680), (0x2000, 0x200a),
   (0x2028, 0x2029), (0x202f, 0x202f), (0x205f, 0x205f), (0x3000, 0x3000)]

def isBlank (c : Char) : Bool := blankRanges.contains c.toNat

example : isBlank ' ' = true := by decide
example : isBlank '\n' = true := by decide
example : isBlank 'a' = false := by decide
example : isBlank (Char.ofNat 0x200b) = false := by decide

namespace Text

/-! ## trimming -/

def trimLeft (t : Text) : Text := t.dropWhile isBlank
def trimRight (t : Text) : Text := t.dropEndWhile isBlank
def trim (t : Text) : Text := trimRight (trimLeft t)

/-- nothing but blanks -/
def allBlank (t : Text) : Bool := t.all isBlank

theorem allBlank_nil : allBlank [] = true := rfl
theorem allBlank_cons (c : Char) (t : Text) : allBlank (c :: t) = (isBlank c && allBlank t) := rfl
theorem allBlank_append (s t : Text) : allBlank (s ++ t) = (allBlank s && allBlank t) :=
  List.all_append

theorem trimLeft_eq_nil_iff (t : Text) : trimLeft t = [] ↔ allBlank t = true := by
  induction t with
  | nil => simp [trimLeft, allBlank]
  | cons c r ih => cases h : isBlank c <;> simp_all [trimLeft, allBlank_cons]

/-! ## words -/

/-- the characters up to the first blank, and the words after that blank -/
def firstWord : Text → Text × List Text
  | [] => ([], [])
  | c :: r =>
    let (w, ws) := firstWord r
    if isBlank c then ([], if w.isEmpty then ws else w :: ws) else (c :: w, ws)

def words (t : Text) : List Text :=
  let (w, ws) := firstWord t
  if w.isEmpty then ws else w :: ws

theorem words_nil : words [] = [] := rfl

theorem words_cons_blank {c : Char} (h : isBlank c = true) (t : Text) :
    words (c :: t) = words t := by
  simp [words, firstWord, h]

def squeeze (t : Text) : Text := joinWith [' '] (words t)

theorem squeeze_cons_blank {c : Char} (h : isBlank c = true) (t : Text) :
    squeeze (c :: t) = squeeze t := by
  rw [squeeze, words_cons_blank h, squeeze]

end Text
end Dictation
