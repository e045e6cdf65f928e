import Dictation.Event
import Dictation.Text.Boundary
import Dictation.Text.Lower

/-!
# Matching the phrase after a trigger

After blanks (and fillers in lenient mode) the longest spelling that fits wins, of equally long
ones the one listed first.  Mis-heard spellings count only where no phrase fits.

* `Lexicon`        triggers, phrases and mis-heard spellings of one scan;
* `Phrase.fits`    a spelling stands at the start of a text, up to case, and ends at a boundary;
* `Phrase.match?`  the phrase after a trigger;
* `Phrase.find?`   the same in a whole text, from an offset on.
-/

namespace Dictation

structure Lexicon where
  triggers : List Text
  phrases : List Text
  /-- spellings, and the phrases that they stand for -/
  aliases : List (Text × Text) := []
  lenient : Bool := false

namespace Phrase

/-- a phrase found, with the offset of its end -/
structure Match where
  phrase : Text
  stop : Nat
  corrected : Bool
deriving DecidableEq, Repr

def fits (lenient : Bool) (t spelling : Text) : Bool :=
  spelling.length ≤ t.length && Text.lower (t.take spelling.length) == Text.lower spelling
    && isBoundary lenient (t.drop spelling.length).head?

/-- the longer of the best entry so far and an entry that fits; the earlier of equally long ones -/
def better (lenient : Bool) (t : Text) (best : Option (Text × Text)) (entry : Text × Text) :
    Option (Text × Text) :=
  if fits lenient t entry.1 && best.all (fun b => b.1.length < entry.1.length) then some entry
  else best

def longest? (lenient : Bool) (t : Text) (table : List (Text × Text)) : Option (Text × Text) :=
  table.foldl (better lenient t) none

def gap (lenient : Bool) (t : Text) : Nat :=
  if lenient then t.fillersAtStart else t.blanksAtStart

theorem gap_le (lenient : Bool) (t : Text) : gap lenient t ≤ t.length := by
  cases lenient
  · exact t.blanksAtStart_le
  · exact t.fillersAtStart_le

def match? (lx : Lexicon) (t : Text) : Option Match :=
  let skip := gap lx.lenient t
  let rest := t.drop skip
  if rest.isEmpty then none
  else
    match longest? lx.lenient rest (lx.phrases.map fun p => (p, p)) with
    | some (spelling, phrase) => some ⟨phrase, skip + spelling.length, false⟩
    | none =>
      (longest? lx.lenient rest lx.aliases).map fun (spelling, phrase) =>
        ⟨phrase, skip + spelling.length, true⟩

/-- the phrase at or after an offset, with the offset of its end in the whole text -/
def find? (lx : Lexicon) (t : Text) (start : Nat) : Option Match :=
  (match? lx (t.drop start)).map fun m => { m with stop := start + m.stop }

def Match.events (m : Match) : List Event :=
  if m.corrected then [.phraseCorrected m.phrase] else []

end Phrase
end Dictation
