import Dictation.Command
import Dictation.Phrase
import Dictation.Trigger

/-!
# Segments of an utterance

An utterance is cut from left to right into dictated text, commands (a trigger and a phrase) and
triggers that no phrase follows.  The sources of the segments, one after the other, are the
utterance.

* `Segment.cut`      recursion on the length of what is left;
* `Segment.ofText`   with the triggers and phrases of a context.
-/

namespace Dictation

namespace Segment

inductive Kind where
  | text
  | command (trigger phrase : Text) (corrected : Bool)
  | trigger
deriving DecidableEq, Repr

end Segment

structure Segment where
  start : Nat
  source : Text
  kind : Segment.Kind
deriving DecidableEq, Repr

namespace Segment

def stop (s : Segment) : Nat := s.start + s.source.length

/-- the trigger as it was spoken -/
def trigger (s : Segment) : Text :=
  match s.kind with
  | .text => []
  | .command t _ _ => t
  | .trigger => s.source

def phrase (s : Segment) : Text :=
  match s.kind with
  | .command _ p _ => p
  | _ => []

/-! ## cutting -/

/-- the text before a hit, if any -/
def leading (offset skip : Nat) (t : Text) : List Segment :=
  if skip = 0 then [] else [⟨offset, t.take skip, .text⟩]

/-- the segment of a trigger `tail + 1` characters long at the start of the text -/
def atTrigger (lx : Lexicon) (offset tail : Nat) (t : Text) : Segment :=
  match Phrase.match? lx (t.drop (tail + 1)) with
  | some m =>
    ⟨offset, t.take (tail + 1 + m.stop), .command (t.take (tail + 1)) m.phrase m.corrected⟩
  | none => ⟨offset, t.take (tail + 1), .trigger⟩

theorem atTrigger_source_length_pos (lx : Lexicon) (offset tail : Nat) {t : Text}
    (h : 0 < t.length) : 0 < (atTrigger lx offset tail t).source.length := by
  unfold atTrigger
  split <;> simp only [List.length_take] <;> omega

def cut (lx : Lexicon) (offset : Nat) (before : Option Char) (t : Text) : List Segment :=
  match _hn : Trigger.next? lx.lenient lx.triggers before t with
  | none => leading offset t.length t
  | some hit =>
    let rest := t.drop hit.skip
    let s := atTrigger lx (offset + hit.skip) hit.tail rest
    leading offset hit.skip t ++ s :: cut lx s.stop s.source.getLast? (rest.drop s.source.length)
termination_by t.length
decreasing_by
  have h := Trigger.skip_lt_of_next? _hn
  have := atTrigger_source_length_pos lx (offset + hit.skip) hit.tail
    (t := t.drop hit.skip) (by rw [List.length_drop]; omega)
  simp only [List.length_drop]
  omega

theorem cut_nil (lx : Lexicon) (offset : Nat) (before : Option Char) :
    cut lx offset before [] = [] := by
  rw [cut]
  rfl

def segments (lx : Lexicon) (t : Text) : List Segment := cut lx 0 none t

/-- the phrases and triggers of a context -/
def lexicon (ctx : Context) : Lexicon where
  triggers := ctx.triggers
  phrases := Command.phrases
  aliases := if ctx.cleanup then Command.misheard else []
  lenient := ctx.cleanup

def ofText (ctx : Context) (t : Text) : List Segment := segments (lexicon ctx) t

/-! ## events -/

def events (s : Segment) : List Event :=
  match s.kind with
  | .text => []
  | .command _ phrase corrected => if corrected then [.phraseCorrected phrase] else []
  | .trigger => [.triggerAlone s.source s.start]

end Segment
end Dictation
