import Dictation.Event
import Dictation.Text.Blank
import Dictation.Text.Lower

/-!
# How dictation is read

A context has the locale, the trigger phrases in order of preference, and whether recognizer noise
is tolerated.

* `Context.keepNew`         one asked-for trigger: squeezed, and kept if it is not blank and new;
* `Context.usableTriggers`  the fold of it over the list asked for;
* `Context.triggersFrom`    those, or the default ones if there are none.
-/

namespace Dictation

structure Context where
  locale : Text
  triggers : List Text
  cleanup : Bool
deriving DecidableEq, Repr

namespace Context

def defaultLocale : Text := "en-GB".toList
def defaultTriggers : List Text := ["voicemark".toList, "voice mark".toList]

def default : Context := ⟨defaultLocale, defaultTriggers, false⟩

/-- the locales that read "period" as a full stop -/
def periodLocales : List Text := ["en-us".toList, "alt".toList]

def readsPeriod (ctx : Context) : Bool := periodLocales.contains ctx.locale.lower

/-! ## triggers asked for -/

def keepNew (kept : List Text) (asked : Text) : List Text :=
  let t := asked.squeeze
  if t.isEmpty || kept.any (fun k => k.lower == t.lower) then kept else kept ++ [t]

def usableTriggers (asked : List Text) : List Text := asked.foldl keepNew []

def triggersFrom (asked : List Text) : List Text :=
  let usable := usableTriggers asked
  if usable.isEmpty then defaultTriggers else usable

def triggerEvents (asked : List Text) : List Event :=
  if (usableTriggers asked).isEmpty then [.noTriggers asked] else []

theorem triggersFrom_nil : triggersFrom [] = defaultTriggers := rfl

/-- a context never lacks triggers -/
theorem triggersFrom_ne_nil (asked : List Text) : triggersFrom asked ≠ [] := by
  unfold triggersFrom
  dsimp only
  split
  · simp [defaultTriggers]
  · simp_all

end Context
end Dictation
