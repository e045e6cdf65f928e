import Dictation.CommandLine.Invocation
import Dictation.Proofs.Text.Words
import Dictation.Schema.Model

/-!
# The triggers of a context

Whatever triggers are asked for, a context has triggers that are words with single spaces, and no
two of them have the same lower case.

* `Context.Usable`      a trigger that can be listened for;
* `Context.Clean`       the invariant of the list, kept by `Context.keepNew`;
* `Context.ofOptions`   a context as its options make it; so is every one that is read from a
                        record (`Schema.exists_ofOptions`) or from a command line
                        (`CommandLine.Options.exists_ofOptions`).
-/

namespace Dictation
namespace Context

/-- words with single spaces between them, and not none -/
def Usable (t : Text) : Prop := t ≠ [] ∧ t.squeeze = t

theorem Usable.words_ne_nil {t : Text} (h : Usable t) : t.words ≠ [] := by
  intro hw
  apply h.1
  rw [← h.2, Text.squeeze, hw]
  rfl

/-- a trigger that can be listened for begins with no blank -/
theorem Usable.head_not_blank {c : Char} {u : Text} (h : Usable (c :: u)) :
    isBlank c = false := by
  rw [Bool.eq_false_iff]
  intro hc
  have hsqueeze := h.2
  have hwords := h.words_ne_nil
  rw [Text.squeeze, Text.words_cons_blank hc] at hsqueeze
  rw [Text.words_cons_blank hc] at hwords
  obtain ⟨w, ws, hws⟩ := List.exists_cons_of_ne_nil hwords
  obtain ⟨hne, hall⟩ := Text.isWord_of_mem_words (hws ▸ List.mem_cons_self : w ∈ u.words)
  obtain ⟨d, v, rfl⟩ := List.exists_cons_of_ne_nil hne
  -- the first character of the words is the first one of the first word
  have hd : d = c := by
    rw [hws] at hsqueeze
    cases ws with
    | nil => exact (List.cons.inj hsqueeze).1
    | cons x ws => exact (List.cons.inj hsqueeze).1
  rw [← hd, hall d List.mem_cons_self] at hc
  cases hc

structure Clean (ts : List Text) : Prop where
  usable : ∀ t ∈ ts, Usable t
  distinct : ts.Pairwise fun s t => s.lower ≠ t.lower

theorem clean_nil : Clean [] := ⟨fun _ h => absurd h List.not_mem_nil, .nil⟩

/-- one trigger more leaves the list clean -/
theorem clean_keepNew {kept : List Text} (h : Clean kept) (asked : Text) :
    Clean (keepNew kept asked) := by
  unfold keepNew
  dsimp only
  split
  · exact h
  · next hnew =>
    rw [Bool.or_eq_true, not_or, List.isEmpty_iff, List.any_eq_true] at hnew
    obtain ⟨hne, hall⟩ := hnew
    refine ⟨fun t ht => ?_, ?_⟩
    · rcases List.mem_append.1 ht with ht | ht
      · exact h.usable t ht
      · rw [List.mem_singleton.1 ht]
        exact ⟨hne, Text.squeeze_squeeze asked⟩
    · rw [List.pairwise_append]
      refine ⟨h.distinct, List.pairwise_singleton _ _, fun s hs t ht heq => hall ⟨s, hs, ?_⟩⟩
      rw [heq, List.mem_singleton.1 ht]
      exact beq_self_eq_true _

theorem clean_usableTriggers (asked : List Text) : Clean (usableTriggers asked) := by
  have hfold (as kept : List Text) (h : Clean kept) : Clean (as.foldl keepNew kept) := by
    induction as generalizing kept with
    | nil => exact h
    | cons a as ih => exact ih _ (clean_keepNew h a)
  exact hfold asked [] clean_nil

theorem usableTriggers_defaultTriggers : usableTriggers defaultTriggers = defaultTriggers := by
  decide

theorem clean_triggersFrom (asked : List Text) : Clean (triggersFrom asked) := by
  unfold triggersFrom
  dsimp only
  split
  · rw [← usableTriggers_defaultTriggers]
    exact clean_usableTriggers _
  · exact clean_usableTriggers asked

/-! ## contexts as options make them -/

def ofOptions (locale : Text) (asked : List Text) (cleanup : Bool) : Context :=
  ⟨locale, triggersFrom asked, cleanup⟩

theorem default_eq_ofOptions : default = ofOptions defaultLocale [] false := rfl

theorem clean_ofOptions (locale : Text) (asked : List Text) (cleanup : Bool) :
    Clean (ofOptions locale asked cleanup).triggers :=
  clean_triggersFrom asked

end Context

/-! ## every context is made by options -/

namespace Schema

theorem exists_triggersFrom {fs : Fields} {ts : List Text}
    (h : withDefault "prefixes" triggers Context.defaultTriggers fs = .ok ts) :
    ∃ asked, ts = Context.triggersFrom asked := by
  unfold withDefault at h
  split at h
  · next v _ =>
    rw [Checked.within_eq_ok_iff, triggers] at h
    cases hv : listOf text v with
    | error ps => rw [hv] at h; cases h
    | ok asked =>
      rw [hv] at h
      cases h
      exact ⟨asked, rfl⟩
  · cases h
    exact ⟨[], rfl⟩

theorem exists_ofOptions {v : Json} {ctx : Context} (h : context v = .ok ctx) :
    ∃ locale asked cleanup, ctx = Context.ofOptions locale asked cleanup := by
  unfold context record at h
  split at h
  · obtain ⟨locale, rest, -, hrest, rfl⟩ := Checked.both_eq_ok_iff.1 h
    obtain ⟨ts, cleanup, hts, -, rfl⟩ := Checked.both_eq_ok_iff.1 hrest
    obtain ⟨asked, rfl⟩ := exists_triggersFrom hts
    exact ⟨locale, asked, cleanup, rfl⟩
  · cases h

end Schema

theorem CommandLine.Options.exists_ofOptions (o : Options) :
    ∃ asked, o.context = Context.ofOptions o.locale asked o.cleanup := by
  unfold context
  dsimp only
  split
  · exact ⟨[], rfl⟩
  · exact ⟨o.triggers, rfl⟩

end Dictation
