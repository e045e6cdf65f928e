import Dictation.Number.Decimal
import Dictation.Text.Quoted

/-!
# Events worth a line in the log

Every event has a level and one line of text.  The functions that decide something never write to
a log; beside each of them stands one that lists the events of the same decision.
-/

namespace Dictation

inductive Level where
  | debug
  | info
  | warning
  | error
deriving DecidableEq, Repr

inductive Event where
  /-- none of the trigger phrases asked for is usable -/
  | noTriggers (given : List Text)
  | artifactsRemoved (text : Text)
  /-- a mis-heard phrase was read as the phrase meant -/
  | phraseCorrected (phrase : Text)
  | triggerAlone (trigger : Text) (start : Nat)
  | commandUnknown (command : Text)
  | confirmationSkipped (phrase prompt : Text)
  | confirmationRequired (source prompt : Text)
  | confirmationJoined (source first : Text)
  | transcriptCut (pieces : Nat)
  | editorMissing
  | confirmationRefused (prompt : Text)
  | sentenceDeleted (sentence : Text)
  /-- an undo or redo reached a document without history -/
  | historyMissing (operation : Text)
  | toolFailed (tool message : Text)
  | settingsKept (backup : Text)
deriving DecidableEq, Repr

namespace Level

def name : Level → Text
  | debug => "debug".toList
  | info => "info".toList
  | warning => "warning".toList
  | error => "error".toList

/-- loud enough to be shown without asking for more -/
def isLoud : Level → Bool
  | warning => true
  | error => true
  | _ => false

end Level

namespace Event

def level : Event → Level
  | noTriggers _ => .warning
  | confirmationRefused _ => .warning
  | historyMissing _ => .warning
  | confirmationSkipped _ _ => .info
  | confirmationRequired _ _ => .info
  | confirmationJoined _ _ => .info
  | settingsKept _ => .info
  | toolFailed _ _ => .error
  | _ => .debug

/-- how much of a text an event shows -/
def shown (t : Text) : Text := t.take 50

def refusal (prompt : Text) : Text :=
  "Confirm case skipped for safety: \"".toList ++ prompt ++ "\". Raw text inserted instead.".toList

def text : Event → Text
  | noTriggers given =>
    "No usable trigger prefixes in ".toList ++ Quoted.ofList given
      ++ "; falling back to defaults".toList
  | artifactsRemoved t => "Stripped recognizer artifacts from '".toList ++ shown t ++ "'".toList
  | phraseCorrected p => "Corrected mis-heard command to '".toList ++ p ++ "'".toList
  | triggerAlone t i =>
    "Trigger '".toList ++ t ++ "' at ".toList ++ Decimal.digits i
      ++ " has no supported command".toList
  | commandUnknown c => "Unrecognized command '".toList ++ c ++ "' dropped".toList
  | confirmationSkipped p q =>
    "Confirmation skipped for '".toList ++ p ++ "' (".toList ++ q ++ "); inserting as text".toList
  | confirmationRequired s q =>
    "Confirmation required for '".toList ++ s ++ "': ".toList ++ q
  | confirmationJoined s f =>
    "'".toList ++ s ++ "' joins the pending confirmation for '".toList ++ f ++ "'".toList
  | transcriptCut n =>
    "Transcript split into ".toList ++ Decimal.digits n ++ " chunks".toList
  | editorMissing => "Editor not ready; nothing dispatched".toList
  | confirmationRefused q => refusal q
  | sentenceDeleted s => "Deleting last sentence: '".toList ++ shown s ++ "'".toList
  | historyMissing o =>
    "Skipping ".toList ++ o ++ ": TextDocument keeps no edit history".toList
  | toolFailed t m => t ++ " failed: ".toList ++ m
  | settingsKept b => "Backed up existing config to ".toList ++ b

end Event
end Dictation
