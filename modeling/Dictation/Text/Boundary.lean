import Dictation.Text.Punctuation

/-!
# Word boundaries

A whole word stands between the ends of the text and blanks, and in lenient mode also beside the
marks that a recognizer glues to words.
-/

namespace Dictation

/-- a word may have this neighbour (`none` is an end of the text) -/
def isBoundary (lenient : Bool) : Option Char → Bool
  | none => true
  | some c => isBlank c || (lenient && isMark c)

theorem isBoundary_none (lenient : Bool) : isBoundary lenient none = true := rfl
theorem isBoundary_some (lenient : Bool) (c : Char) :
    isBoundary lenient (some c) = (isBlank c || (lenient && isMark c)) := rfl

/-- a strict boundary is a lenient one -/
theorem isBoundary_mono {o : Option Char} (h : isBoundary false o = true) :
    isBoundary true o = true := by
  cases o with
  | none => rfl
  | some c => simp_all [isBoundary]

namespace Text

/-- a piece is a run within a text -/
def hasPiece (piece : Text) : Text → Bool
  | [] => piece.isEmpty
  | c :: r => piece.beginsWith (c :: r) || hasPiece piece r

/-- the boundary test for a piece of any length: blanks only, or leniently a run within the list
of marks -/
def separates (lenient : Bool) (piece : Text) : Bool :=
  (!piece.isEmpty && piece.allBlank) || (lenient && piece.hasPiece wordMarks)

theorem separates_single (lenient : Bool) (c : Char) :
    separates lenient [c] = isBoundary lenient (some c) := by
  simp [separates, isBoundary, allBlank, isMark, hasPiece, wordMarks, beginsWith,
    Bool.beq_eq_decide_eq]

/-! ## positions -/

/-- the character at an offset; none before the start and at the end -/
def charAt (t : Text) (i : Int) : Option Char := if i < 0 then none else t[i.toNat]?

/-- how many blanks the text starts with -/
def blanksAtStart (t : Text) : Nat := (t.takeWhile isBlank).length

/-- how many blanks and fillers the text starts with -/
def fillersAtStart (t : Text) : Nat := (t.takeWhile fun c => isBlank c || isFiller c).length

def skipBlanks (t : Text) (pos : Nat) : Nat := pos + blanksAtStart (t.drop pos)
def skipFillers (t : Text) (pos : Nat) : Nat := pos + fillersAtStart (t.drop pos)

theorem blanksAtStart_le (t : Text) : blanksAtStart t ≤ t.length :=
  (List.takeWhile_sublist _).length_le
theorem fillersAtStart_le (t : Text) : fillersAtStart t ≤ t.length :=
  (List.takeWhile_sublist _).length_le

end Text
end Dictation
