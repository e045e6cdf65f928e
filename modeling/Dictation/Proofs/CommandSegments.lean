import Dictation.Proofs.Spelling
import Dictation.Proofs.Tiling

/-!
# Command segments in a text

Without clean-up, a command segment is a trigger as it was heard, a gap of blanks and a spelling of
a phrase, with a blank or the end of the text after it.  A scan finds it exactly there.

* `atTrigger_of_spelling`, `atTrigger_cases`   the segment of a trigger, from its characters and back;
* `cuts_command`    a step of the scan that makes a command;
* `quiet_of_allBlank`   no trigger begins in a gap.
-/

namespace Dictation

namespace Trigger

section
variable {lenient : Bool} {triggers : List Text} {done gap rest : Text}

/-- no trigger begins in a gap of blanks -/
theorem quiet_of_allBlank (husable : ∀ u ∈ triggers, Context.Usable u) (h : gap.allBlank = true) :
    Quiet lenient triggers (done ++ (gap ++ rest)) done.length (done ++ gap).length := by
  refine quiet_of_gap fun a c b hgap u hu hne => ?_
  rw [Bool.eq_false_iff]
  intro hstands
  obtain ⟨d, v, rfl⟩ := List.exists_cons_of_ne_nil hne
  have halike := ((stands_iff _ _ _ _).1 hstands).2.1
  rw [List.map_cons, List.map_cons, List.cons_prefix_cons] at halike
  have hblank : isBlank c = true := Text.isBlank_of_mem h (by rw [hgap]; simp)
  have hkey := isBlank_of_caseKey_eq halike.1
  rw [hblank, (husable _ hu).head_not_blank] at hkey
  cases hkey

end
end Trigger

namespace Segment

section
variable {ctx : Context} {done lead heard gap q rest t : Text} {n offset : Nat}
  (hcleanup : ctx.cleanup = false)
include hcleanup

theorem lenient_lexicon : (lexicon ctx).lenient = false := hcleanup

/-! ## the segment of a trigger -/

theorem atTrigger_of_spelling (hheard : heard ≠ []) (hgap : gap.allBlank = true)
    (hq : q.lower ∈ Command.phrases) (hrest : rest.head?.all isBlank = true) (offset : Nat) :
    atTrigger (lexicon ctx) offset (heard.length - 1) (heard ++ (gap ++ (q ++ rest))) =
      ⟨offset, heard ++ (gap ++ q), .command heard q.lower false⟩ := by
  have hlen : heard.length - 1 + 1 = heard.length := by
    have := List.length_pos_iff.2 hheard
    omega
  have hsplit : heard ++ (gap ++ (q ++ rest)) = (heard ++ (gap ++ q)) ++ rest := by simp
  have htake : (heard ++ (gap ++ (q ++ rest))).take (heard.length + (gap.length + q.length)) =
      heard ++ (gap ++ q) := by
    rw [hsplit, ← List.length_append, ← List.length_append, List.take_left]
  unfold atTrigger
  rw [hlen, List.drop_left, Phrase.match?_of_spelling hcleanup hgap hq hrest]
  dsimp only
  rw [htake, List.take_left]

/-- a lone trigger, or a trigger with a phrase after it -/
theorem atTrigger_cases {before : Option Char}
    (h : Trigger.tailAt? (lexicon ctx).lenient before t (lexicon ctx).triggers = some n)
    (offset : Nat) :
    atTrigger (lexicon ctx) offset n t = ⟨offset, t.take (n + 1), .trigger⟩ ∨
      ∃ heard gap q rest, t = heard ++ (gap ++ (q ++ rest)) ∧ heard.length = n + 1 ∧
        gap ≠ [] ∧ gap.allBlank = true ∧ q.lower ∈ Command.phrases ∧
        rest.head?.all isBlank = true ∧
        atTrigger (lexicon ctx) offset n t =
          ⟨offset, heard ++ (gap ++ q), .command heard q.lower false⟩ := by
  cases hm : Phrase.match? (lexicon ctx) (t.drop (n + 1)) with
  | none =>
    refine .inl ?_
    rw [atTrigger, hm]
  | some m =>
    obtain ⟨gap, q, rest, hdrop, hgap, hq, hrest, -⟩ := Phrase.exists_of_match? hcleanup hm
    have hlt : n + 1 < t.length := by
      obtain ⟨c, r, rfl, -⟩ := Command.exists_cons_of_spelling hq
      have hlen := congrArg List.length hdrop
      simp only [List.length_drop, List.length_append, List.length_cons] at hlen
      omega
    have hheard : (t.take (n + 1)).length = n + 1 := List.length_take_of_le hlt.le
    have hsplit : t = t.take (n + 1) ++ (gap ++ (q ++ rest)) := by
      rw [← hdrop, List.take_append_drop]
    have hne : t.take (n + 1) ≠ [] := by
      intro hnil
      rw [hnil] at hheard
      cases hheard
    -- a phrase begins with a letter, and after a trigger there is a boundary
    have hgapne : gap ≠ [] := by
      rintro rfl
      obtain ⟨c, r, rfl, hc⟩ := Command.exists_cons_of_spelling hq
      have hafter := (Trigger.isBoundary_of_tailAt? h).2
      rw [hdrop, lenient_lexicon hcleanup, Phrase.isBoundary_strict] at hafter
      rw [show isBlank c = true from hafter] at hc
      cases hc
    refine .inr ⟨t.take (n + 1), gap, q, rest, hsplit, hheard, hgapne, hgap, hq, hrest, ?_⟩
    have hat := atTrigger_of_spelling hcleanup hne hgap hq hrest offset
    rwa [hheard, Nat.add_sub_cancel, ← hsplit] at hat

/-! ## a step of the scan -/

/-- **A trigger and a spelling after it are cut off as a command.** -/
theorem cuts_command {earlier later : List Text} {trigger : Text} {ss : List Segment}
    (hts : ctx.triggers = earlier ++ trigger :: later) (hne : trigger ≠ [])
    (hheard : heard.map caseKey = trigger.map caseKey)
    (hbefore : isBoundary false (done ++ lead).getLast? = true)
    (hfirst : ∀ u ∈ earlier, u ≠ [] →
      Trigger.stands false (done ++ lead).getLast? u (heard ++ (gap ++ (q ++ rest))) = false)
    (hgapne : gap ≠ []) (hgap : gap.allBlank = true) (hq : q.lower ∈ Command.phrases)
    (hrest : rest.head?.all isBlank = true)
    (hquiet : Trigger.Quiet false ctx.triggers (done ++ (lead ++ (heard ++ (gap ++ (q ++ rest)))))
      done.length (done ++ lead).length)
    (hss : Cuts (lexicon ctx) (done ++ (lead ++ (heard ++ (gap ++ q)))) rest ss) :
    Cuts (lexicon ctx) done (lead ++ (heard ++ (gap ++ (q ++ rest))))
      (leading done.length lead.length lead ++
        ⟨(done ++ lead).length, heard ++ (gap ++ q), .command heard q.lower false⟩ :: ss) := by
  have hlen : heard.length = trigger.length := by
    rw [← List.length_map caseKey, hheard, List.length_map]
  have hheardne : heard ≠ [] := by
    rintro rfl
    exact hne (List.length_eq_zero_iff.1 hlen.symm)
  have hstands : Trigger.stands false (done ++ lead).getLast? trigger
      (heard ++ (gap ++ (q ++ rest))) = true := by
    obtain ⟨c, g, rfl⟩ := List.exists_cons_of_ne_nil hgapne
    refine Trigger.stands_of_alike hheard hbefore ?_
    rw [Phrase.isBoundary_strict]
    exact Text.isBlank_of_mem hgap List.mem_cons_self
  have htail : Trigger.tailAt? (lexicon ctx).lenient (done ++ lead).getLast?
      (heard ++ (gap ++ (q ++ rest))) (lexicon ctx).triggers = some (heard.length - 1) := by
    rw [lenient_lexicon hcleanup, show (lexicon ctx).triggers = ctx.triggers from rfl, hts,
      Trigger.tailAt?_of_first hne hstands hfirst, hlen]
  have hat := atTrigger_of_spelling hcleanup hheardne hgap hq hrest (done ++ lead).length
  have hsplit : heard ++ (gap ++ (q ++ rest)) = (heard ++ (gap ++ q)) ++ rest := by simp
  rw [← lenient_lexicon hcleanup] at hquiet
  rw [hsplit] at hquiet htail hat ⊢
  exact .trigger (s := ⟨(done ++ lead).length, heard ++ (gap ++ q), .command heard q.lower false⟩)
    hquiet htail hat hss

end
end Segment
end Dictation
