import Dictation.Context
import Dictation.Operation
import Dictation.Text.WordChar

/-!
# Spoken commands

A command is a trigger followed by a phrase of a fixed table.

* `Command.phrases`    the phrases in the order in which they are looked for;
* `Command.parse`      the reply to a phrase;
* `Command.interpret`  the reply to a whole utterance, read as one command: literal text if it
                       does not start with a trigger.
-/

namespace Dictation

inductive Confidence where
  | high
  | medium
deriving DecidableEq, Repr

/-- what an utterance means -/
inductive Reply where
  /-- no trigger: the text itself -/
  | insert (text : Text)
  /-- no operations at medium confidence: the phrase is not in the table -/
  | run (ops : List Operation) (confidence : Confidence)
  /-- destructive: nothing runs before the prompt is approved -/
  | confirm (ops : List Operation) (prompt : Text)
deriving DecidableEq, Repr

namespace Confidence

def all : List Confidence := [high, medium]

def name : Confidence → Text
  | high => "high".toList
  | medium => "medium".toList

end Confidence

namespace Command

/-! ## the table -/

def punctuation : List (Text × Text) :=
  [("comma".toList, ",".toList), ("full stop".toList, ".".toList),
   ("question mark".toList, "?".toList), ("exclamation mark".toList, "!".toList),
   ("colon".toList, ":".toList), ("semicolon".toList, ";".toList), ("dash".toList, "-".toList)]

def layout : List (Text × Operation) :=
  [("new line".toList, .insertNewLine), ("new paragraph".toList, .insertNewParagraph)]

/-- looked for in every locale, a full stop in some -/
def period : Text := "period".toList
def fullStop : Text := "full stop".toList

def deleteLastWord : Text := "delete last word".toList
def deleteLastSentence : Text := "delete last sentence".toList
def deleteLastSentencePrompt : Text := "Delete the last sentence?".toList

/-- what a style is called, first its own name -/
def styleNames : List (Text × Style) :=
  [("bold".toList, .bold), ("italic".toList, .italic), ("italics".toList, .italic),
   ("underline".toList, .underline), ("underlined".toList, .underline)]

def formats : List (Text × Operation) :=
  Action.all.flatMap fun a => styleNames.map fun s => (a.name ++ ' ' :: s.1, .format s.2 a)

def phrases : List Text :=
  punctuation.map (·.1) ++ [period] ++ layout.map (·.1) ++ [deleteLastWord, deleteLastSentence]
    ++ formats.map (·.1)

/-- what recognizers commonly hear in place of a phrase -/
def misheard : List (Text × Text) :=
  [("escalimation mark".toList, "exclamation mark".toList),
   ("esclamation mark".toList, "exclamation mark".toList),
   ("esklimation mark".toList, "exclamation mark".toList),
   ("esklamation mark".toList, "exclamation mark".toList),
   ("excalmation mark".toList, "exclamation mark".toList),
   ("exclaimation mark".toList, "exclamation mark".toList),
   ("explanation mark".toList, "exclamation mark".toList),
   ("exclimation mark".toList, "exclamation mark".toList),
   ("exclemation mark".toList, "exclamation mark".toList),
   ("questioning mark".toList, "question mark".toList),
   ("fullstop".toList, "full stop".toList),
   ("full-stop".toList, "full stop".toList),
   ("new paragraf".toList, "new paragraph".toList),
   ("new paragragh".toList, "new paragraph".toList),
   ("coma".toList, "comma".toList)]

/-! ## one phrase -/

def replies : List (Text × Reply) :=
  [(deleteLastWord, .run [.deleteLastWord] .high),
   (deleteLastSentence, .confirm [.deleteLastSentence] deleteLastSentencePrompt)]
    ++ punctuation.map (fun p => (p.1, .run [.insertText p.2] .high))
    ++ layout.map (fun l => (l.1, .run [l.2] .high))

def unknown : Reply := .run [] .medium

/-- a formatting phrase may end its line -/
def dropLineEnd (t : Text) : Text := if t.getLast? == some '\n' then t.dropLast else t

def parse (phrase : Text) : Reply :=
  match formats.lookup (dropLineEnd phrase) with
  | some op => .run [op] .high
  | none => (replies.lookup phrase).getD unknown

def parseEvents (phrase : Text) : List Event :=
  if parse phrase = unknown then [.commandUnknown phrase] else []

theorem parse_nil : parse [] = unknown := by decide

/-! ## whole utterances -/

/-- replaces a whole word; `inWord` tells whether a word character stands before, and `skip`
characters of a word just replaced are left out -/
def replaceWordAfter (word new : Text) : (inWord : Bool) → (skip : Nat) → Text → Text
  | _, _, [] => []
  | _, skip + 1, c :: r => replaceWordAfter word new (isWordChar c) skip r
  | inWord, 0, c :: r =>
    if !inWord && word.beginsWith (c :: r)
        && !(((c :: r).drop word.length).head?.any isWordChar) then
      new ++ replaceWordAfter word new (isWordChar c) (word.length - 1) r
    else c :: replaceWordAfter word new (isWordChar c) 0 r

def replaceWord (word new t : Text) : Text := replaceWordAfter word new false 0 t

/-- lower case with single spaces -/
def normalize (t : Text) : Text := t.lower.squeeze

/-- the normalized utterance, "period" read as a full stop where the locale says so -/
def normalizeIn (ctx : Context) (t : Text) : Text :=
  if ctx.readsPeriod then replaceWord period fullStop (normalize t) else normalize t

/-- what follows the first trigger that the utterance is or starts with -/
def afterTrigger? (utterance : Text) : List Text → Option Text
  | [] => none
  | t :: ts =>
    let trigger := normalize t
    if utterance = trigger then some []
    else if (trigger ++ [' ']).beginsWith utterance then some (utterance.drop (trigger.length + 1))
    else afterTrigger? utterance ts

def interpret (ctx : Context) (t : Text) : Reply :=
  match afterTrigger? (normalizeIn ctx t) ctx.triggers with
  | none => .insert t
  | some [] => .run [] .high
  | some (c :: r) => parse (c :: r)

def interpretEvents (ctx : Context) (t : Text) : List Event :=
  match afterTrigger? (normalizeIn ctx t) ctx.triggers with
  | some (c :: r) => parseEvents (c :: r)
  | _ => []

end Command
end Dictation
