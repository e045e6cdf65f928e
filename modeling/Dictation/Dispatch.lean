import Dictation.Command

/-!
# Sending one finished utterance to an editor

The utterance is read as one command.  Literal text is inserted with a space after it.  Nobody can
confirm a destructive command here, so its words are inserted in its place.
-/

namespace Dictation

inductive Dispatch where
  | insert (text : Text)
  | run (ops : List Operation)
  /-- a destructive command: the words as they were spoken, and the prompt not asked -/
  | refuse (text prompt : Text)
  /-- no editor to send anything to -/
  | none
deriving DecidableEq, Repr

namespace Dispatch

def ofReply (t : Text) : Reply → Dispatch
  | .insert u => .insert (u ++ [' '])
  | .run ops _ => .run ops
  | .confirm _ prompt => .refuse t prompt

def ofText (ctx : Context) (t : Text) : Dispatch := ofReply t (Command.interpret ctx t)

/-- what the editor is sent -/
def operations : Dispatch → List Operation
  | insert t => [.insertText t]
  | run ops => ops
  | refuse t _ => [.insertText t]
  | none => []

def kind : Dispatch → Text
  | insert _ => "insert".toList
  | run _ => "ops".toList
  | refuse _ _ => "confirm".toList
  | none => "no-dispatch".toList

def warning? : Dispatch → Option Text
  | refuse _ prompt => some (Event.refusal prompt)
  | _ => Option.none

/-- the events of the dispatch itself -/
def ownEvents : Dispatch → List Event
  | refuse _ prompt => [.confirmationRefused prompt]
  | none => [.editorMissing]
  | _ => []

def events (ctx : Context) (t : Text) : List Event :=
  Command.interpretEvents ctx t ++ (ofText ctx t).ownEvents

end Dispatch
end Dictation
