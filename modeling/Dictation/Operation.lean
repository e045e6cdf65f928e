import Dictation.Text.Basic

/-!
# Editor operations

What a compiled dictation asks an editor to do.
-/

namespace Dictation

inductive Style where
  | bold
  | italic
  | underline
deriving DecidableEq, Repr

inductive Action where
  | make
  | unmake
  | toggle
deriving DecidableEq, Repr

inductive Operation where
  | format (style : Style) (action : Action)
  | insertText (text : Text)
  | insertNewLine
  | insertNewParagraph
  | deleteLastWord
  | deleteLastSentence
  | undo
  | redo
deriving DecidableEq, Repr

namespace Style

def all : List Style := [bold, italic, underline]

def name : Style → Text
  | bold => "bold".toList
  | italic => "italic".toList
  | underline => "underline".toList

theorem mem_all (s : Style) : s ∈ all := by cases s <;> decide

end Style

namespace Action

def all : List Action := [make, unmake, toggle]

def name : Action → Text
  | make => "make".toList
  | unmake => "unmake".toList
  | toggle => "toggle".toList

theorem mem_all (a : Action) : a ∈ all := by cases a <;> decide

end Action

namespace Operation

/-- the name of an operation's kind -/
def tag : Operation → Text
  | format _ _ => "format".toList
  | insertText _ => "insertText".toList
  | insertNewLine => "insertNewLine".toList
  | insertNewParagraph => "insertNewParagraph".toList
  | deleteLastWord => "deleteLastWord".toList
  | deleteLastSentence => "deleteLastSentence".toList
  | undo => "undo".toList
  | redo => "redo".toList

def isFormat : Operation → Bool
  | format _ _ => true
  | _ => false

/-- puts the text that follows at the start of a line -/
def breaksLine : Operation → Bool
  | insertNewLine => true
  | insertNewParagraph => true
  | _ => false

/-- writes text of its own -/
def insertedText? : Operation → Option Text
  | insertText t => some t
  | _ => none

end Operation
end Dictation
