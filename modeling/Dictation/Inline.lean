import Dictation.Segment
import Dictation.Spacing
import Dictation.Text.Artifact

/-!
# Compiling an utterance in place

Text and commands become operations in the order spoken.  Nothing is gated: the phrase of a
destructive command is typed out, and so is a trigger without a phrase.

* `Inline.appendText`  text after the operations so far, with the space that belongs between;
                       `Inline.placed` is what is added;
* `Inline.step`        one segment;
* `Inline.compile`     the fold over the segments.
-/

namespace Dictation.Inline

/-- the text as the clean-up of a context leaves it -/
def cleaned (ctx : Context) (t : Text) : Text := if ctx.cleanup then t.stripArtifacts else t

def artifactEvents (t : Text) : List Event :=
  if t.stripArtifacts == t.trim then [] else [.artifactsRemoved t]

def cleanedEvents (ctx : Context) (t : Text) : List Event :=
  if ctx.cleanup then artifactEvents t else []

/-- the space between the last operation and the text after it -/
def separatorAfter : Operation → Text → Text
  | .insertNewLine, _ => []
  | .insertNewParagraph, _ => []
  | .insertText p, t => if p.getLast?.all isBlank then [] else Spacing.separator p t
  | _, t => if Spacing.wantsSpace t then [' '] else []

def appendText (ops : List Operation) (t : Text) : List Operation :=
  match ops.getLast? with
  | none => if t.allBlank then ops else ops ++ [.insertText t]
  | some last =>
    let u := t.trimLeft
    if u.isEmpty then ops else ops ++ [.insertText (separatorAfter last u ++ u)]

/-- words as they are added: unchanged if they come first, else with what belongs before them -/
def placed (ops : List Operation) (t : Text) : Text :=
  match ops.getLast? with
  | none => t
  | some last => separatorAfter last t.trimLeft ++ t.trimLeft

/-- blank words are left out -/
theorem appendText_eq (ops : List Operation) (t : Text) :
    appendText ops t = if t.allBlank then ops else ops ++ [.insertText (placed ops t)] := by
  unfold appendText placed
  cases ops.getLast? with
  | none => rfl
  | some last =>
    have hblank : t.trimLeft.isEmpty = t.allBlank := by
      rw [Bool.eq_iff_iff, List.isEmpty_iff, Text.trimLeft_eq_nil_iff]
    dsimp only
    rw [hblank]

/-- a command as it was spoken, with the phrase that was meant -/
def spoken (trigger phrase : Text) : Text := trigger ++ ' ' :: phrase

def dictated (ctx : Context) (t : Text) : Text :=
  if ctx.cleanup then t.trimRight.stripLeading else t.trimRight

def step (ctx : Context) (ops : List Operation) (s : Segment) : List Operation :=
  match s.kind with
  | .text => appendText ops (dictated ctx s.source)
  | .command trigger phrase _ =>
    match Command.interpret ctx (spoken trigger phrase) with
    | .confirm _ _ => appendText ops phrase
    | .insert t => appendText ops t
    | .run new _ => ops ++ new
  | .trigger => appendText ops (s.source ++ [' '])

def ofSegments (ctx : Context) (ss : List Segment) : List Operation := ss.foldl (step ctx) []

theorem ofSegments_nil (ctx : Context) : ofSegments ctx [] = [] := rfl

def compile (ctx : Context) (t : Text) : List Operation :=
  ofSegments ctx (Segment.ofText ctx (cleaned ctx t))

/-! ## events -/

def stepEvents (ctx : Context) (s : Segment) : List Event :=
  match s.kind with
  | .command trigger phrase _ =>
    Command.interpretEvents ctx (spoken trigger phrase) ++
      match Command.interpret ctx (spoken trigger phrase) with
      | .confirm _ prompt => [.confirmationSkipped phrase prompt]
      | _ => []
  | _ => []

def events (ctx : Context) (t : Text) : List Event :=
  let ss := Segment.ofText ctx (cleaned ctx t)
  cleanedEvents ctx t ++ ss.flatMap Segment.events ++ ss.flatMap (stepEvents ctx)

end Dictation.Inline
