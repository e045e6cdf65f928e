import Dictation.Event
import Dictation.Operation
import Dictation.Sentence

/-!
# A document with the cursor at its end

Operations are replayed on a plain text and on the set of marks that the next inserted text would
have.  Undo and redo belong to an editor with a history and do nothing here.

* `Marks.apply`        one formatting step;
* `Text.dropLastWord`  cut from the start of the last word;
* `Text.dropLastSentence`  within the last paragraph;
* `Document.apply`     one operation; `Document.applyAll` folds it over a list.
-/

namespace Dictation

/-! ## marks -/

structure Marks where
  bold : Bool := false
  italic : Bool := false
  underline : Bool := false
deriving DecidableEq, Repr

namespace Marks

def has (m : Marks) : Style → Bool
  | .bold => m.bold
  | .italic => m.italic
  | .underline => m.underline

def set (m : Marks) (s : Style) (on : Bool) : Marks :=
  match s with
  | .bold => { m with bold := on }
  | .italic => { m with italic := on }
  | .underline => { m with underline := on }

theorem has_set (m : Marks) (s s' : Style) (on : Bool) :
    (m.set s on).has s' = if s' = s then on else m.has s' := by
  cases s <;> cases s' <;> rfl

def apply (m : Marks) (s : Style) : Action → Marks
  | .make => m.set s true
  | .unmake => m.set s false
  | .toggle => m.set s (!m.has s)

/-- the active styles -/
def styles (m : Marks) : List Style := Style.all.filter m.has

end Marks

/-! ## cutting text off the end -/

namespace Text

/-- the text before the last word; a text without words stays as it is -/
def dropLastWord (t : Text) : Text :=
  if t.allBlank then t else (t.trimRight).dropEndWhile fun c => !isBlank c

/-- where the last empty line starts -/
def lastBreak? : Text → Option Nat
  | [] => none
  | c :: r =>
    match lastBreak? r with
    | some i => some (i + 1)
    | none => if c == '\n' && r.head? == some '\n' then some 0 else none

/-- where the last paragraph starts -/
def blockStart (t : Text) : Nat :=
  match lastBreak? t with
  | some i => i + 2
  | none => 0

def block (t : Text) : Text := t.drop (blockStart t)

def lastSentenceStart (t : Text) : Nat := Sentence.lastStart (block t)

def dropLastSentence (t : Text) : Text := t.take (blockStart t + lastSentenceStart t)

end Text

/-! ## the document -/

structure Document where
  text : Text := []
  marks : Marks := {}
deriving DecidableEq, Repr

namespace Document

def apply (d : Document) : Operation → Document
  | .format s a => { d with marks := d.marks.apply s a }
  | .insertText t => { d with text := d.text ++ t }
  | .insertNewLine => { d with text := d.text ++ ['\n'] }
  | .insertNewParagraph => { d with text := d.text ++ ['\n', '\n'] }
  | .deleteLastWord => { d with text := d.text.dropLastWord }
  | .deleteLastSentence => { d with text := d.text.dropLastSentence }
  | .undo => d
  | .redo => d

def applyAll (d : Document) (ops : List Operation) : Document := ops.foldl apply d

theorem applyAll_nil (d : Document) : d.applyAll [] = d := rfl
theorem applyAll_cons (d : Document) (op : Operation) (ops : List Operation) :
    d.applyAll (op :: ops) = (d.apply op).applyAll ops := rfl
theorem applyAll_append (d : Document) (xs ys : List Operation) :
    d.applyAll (xs ++ ys) = (d.applyAll xs).applyAll ys := List.foldl_append ..

/-- the text that the operations make of a text -/
def render (text : Text) (ops : List Operation) : Text := (applyAll { text } ops).text

/-- what is said of a thing that is no operation -/
def unsupported (shown : Text) : Text := "Unsupported editor operation: ".toList ++ shown

/-! ## events -/

def events (d : Document) : Operation → List Event
  | .deleteLastSentence => [.sentenceDeleted (d.text.block.drop d.text.lastSentenceStart)]
  | .undo => [.historyMissing Operation.undo.tag]
  | .redo => [.historyMissing Operation.redo.tag]
  | _ => []

def eventsAll (d : Document) : List Operation → List Event
  | [] => []
  | op :: ops => d.events op ++ eventsAll (d.apply op) ops

end Document
end Dictation
