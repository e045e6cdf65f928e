import Dictation.Text.Boundary
import Dictation.Text.CaseKey

/-!
# Finding trigger phrases

A trigger is spoken where it occurs as a whole word, up to case.  Of several occurrences the
earliest counts, and at one place the trigger listed first.

* `Trigger.tailAt?`  the trigger at the start of a text, with the character before it;
* `Trigger.next?`    the next trigger in a text, by recursion on the text.
-/

namespace Dictation.Trigger

/-- a trigger found: how many characters stand before it, and its length less one -/
structure Hit where
  skip : Nat
  tail : Nat
deriving DecidableEq, Repr

def Hit.length (h : Hit) : Nat := h.tail + 1
def Hit.stop (h : Hit) : Nat := h.skip + h.length

/-- the trigger as it was heard -/
def Hit.heard (h : Hit) (t : Text) : Text := (t.drop h.skip).take h.length

/-- a trigger stands at the start of the text as a whole word; `before` is what stands before -/
def stands (lenient : Bool) (before : Option Char) (trigger t : Text) : Bool :=
  isBoundary lenient before && trigger.beginsAlike t
    && isBoundary lenient (t.drop trigger.length).head?

/-- length less one of the first listed trigger that stands at the start of the text -/
def tailAt? (lenient : Bool) (before : Option Char) (t : Text) : List Text → Option Nat
  | [] => none
  | [] :: ts => tailAt? lenient before t ts
  | (c :: cs) :: ts =>
    if stands lenient before (c :: cs) t then some cs.length else tailAt? lenient before t ts

def next? (lenient : Bool) (triggers : List Text) (before : Option Char) : Text → Option Hit
  | [] => none
  | c :: r =>
    match tailAt? lenient before (c :: r) triggers with
    | some tail => some ⟨0, tail⟩
    | none => (next? lenient triggers (some c) r).map fun h => { h with skip := h.skip + 1 }

theorem next?_nil (lenient : Bool) (triggers : List Text) (before : Option Char) :
    next? lenient triggers before [] = none := rfl

theorem skip_lt_of_next? {lenient : Bool} {triggers : List Text} {before : Option Char} {t : Text}
    {h : Hit} (hn : next? lenient triggers before t = some h) : h.skip < t.length := by
  induction t generalizing before h with
  | nil => simp [next?] at hn
  | cons c r ih =>
    unfold next? at hn
    split at hn
    · cases hn
      simp
    · obtain ⟨h', hr, rfl⟩ := Option.map_eq_some_iff.1 hn
      have := ih hr
      simpa using this

/-! ## in a whole text -/

/-- the character before an offset -/
def before? (t : Text) (i : Nat) : Option Char := if i = 0 then none else t[i - 1]?

/-- the first trigger at or after an offset, with offsets in the whole text; an offset before the
start counts as the start -/
def find? (lenient : Bool) (triggers : List Text) (t : Text) (start : Int) : Option Hit :=
  let i := start.toNat
  (next? lenient triggers (before? t i) (t.drop i)).map fun h => { h with skip := i + h.skip }

end Dictation.Trigger
