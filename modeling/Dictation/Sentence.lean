import Dictation.Text.Punctuation

/-!
# Where the last sentence starts

A sentence ends at a terminator; every terminator counts.  The last sentence before a cursor is the
one that the last terminator before it closes, without the gap (spaces, tabs and line ends) after
the terminator before.  A block without terminators is one sentence.
-/

namespace Dictation.Sentence

/-- what separates two sentences of a block -/
def isGap (c : Char) : Bool := c == ' ' || c == '\t' || c == '\n'

def gapLength (t : Text) : Nat := (t.takeWhile isGap).length

theorem gapLength_le (t : Text) : gapLength t ≤ t.length :=
  (List.takeWhile_sublist _).length_le

/-- the cursor, kept within the block -/
def clamp (block : Text) (cursor : Int) : Nat := min cursor.toNat block.length

theorem clamp_le (block : Text) (cursor : Int) : clamp block cursor ≤ block.length :=
  Nat.min_le_right ..

/-- offset after the last terminator, 0 if there is none -/
def afterLastTerminator (t : Text) : Nat :=
  match t.lastIndex? isTerminator with
  | some i => i + 1
  | none => 0

/-- start of the last sentence of a block whose end is the cursor -/
def lastStart (t : Text) : Nat :=
  match t.lastIndex? isTerminator with
  | none => 0
  | some i =>
    let s := afterLastTerminator (t.take i)
    s + gapLength (t.drop s)

theorem lastStart_nil : lastStart [] = 0 := rfl

def start (block : Text) (cursor : Int) : Nat := lastStart (block.take (clamp block cursor))

example : start "First. Second. Third.".toList 21 = 15 := by decide
example : start "Single sentence.".toList 16 = 0 := by decide

/-- the text that deleting the last sentence removes -/
def lastSentence (block : Text) (cursor : Int) : Text :=
  (block.take (clamp block cursor)).drop (start block cursor)

end Dictation.Sentence
