import Dictation.Proofs.Locales
import Dictation.Proofs.Meaning
import Dictation.Proofs.Seams

/-!
# The utterances that are commands

A scan listens for the phrases of the table, and a whole utterance is read by the tables of replies,
where a formatting phrase may end its line.  The two have the same phrases: of a normalized
utterance, in which no line ends, what follows the trigger has a reply of its own exactly if it is
a phrase of the table, "period" aside.

* `Reply.Acts`              asks first, or runs one operation;
* `Command.parse_acts_iff`  the phrases that have such a reply;
* `Command.Opens`, `Command.FirstOpens`   a trigger at the start of an utterance, and the first
                            listed one;
* `Command.interpret_accepts`   the reply to every utterance.
-/

namespace Dictation

/-- asks before it runs, or runs exactly one operation -/
def Reply.Acts (r : Reply) : Prop :=
  (∃ ops prompt, r = .confirm ops prompt) ∨ ∃ op, r = .run [op] .high

namespace Command

/-! ## the phrases -/

section
variable {phrase : Text}

theorem not_acts_run_nil (confidence : Confidence) : ¬ (Reply.run [] confidence).Acts := by
  rintro (⟨ops, prompt, h⟩ | ⟨op, h⟩)
  · cases h
  · cases h

/-- a phrase acts, or it is not known -/
theorem Answer.acts_or_unknown {r : Reply} (h : Answer r) : r.Acts ∨ r = Command.unknown := by
  cases h with
  | unknown => exact .inr rfl
  | deleteLastSentence => exact .inl (.inl ⟨_, _, rfl⟩)
  | _ => exact .inl (.inr ⟨_, rfl⟩)

theorem parse_acts_iff_ne : (parse phrase).Acts ↔ parse phrase ≠ unknown := by
  constructor
  · intro h hunknown
    rw [hunknown] at h
    exact not_acts_run_nil _ h
  · exact (answer_parse phrase).acts_or_unknown.resolve_right

/-- **The phrases that act.**  Within a line they are those of the table, "period" aside. -/
theorem parse_acts_iff (h : '\n' ∉ phrase) :
    (parse phrase).Acts ↔ phrase ∈ phrases ∧ phrase ≠ period := by
  rw [parse_acts_iff_ne]
  constructor
  · intro hknown
    refine ⟨mem_phrases_of_parse hknown fun hl => h (List.mem_of_getLast? hl), ?_⟩
    rintro rfl
    exact hknown (by decide)
  · rintro ⟨hmem, hne⟩ hunknown
    exact hne (eq_period_of_parse phrase hmem hunknown)

end

/-! ## normalized utterances -/

section
variable {word new t : Text} {c : Char}

/-- a text with words replaced ends as it did, or as the new word does -/
theorem getLast?_of_replaceWordAfter (hnew : new ≠ []) {inWord : Bool} {skip : Nat}
    (h : (replaceWordAfter word new inWord skip t).getLast? = some c) :
    new.getLast? = some c ∨ t.getLast? = some c := by
  induction t generalizing inWord skip with
  | nil => cases h
  | cons x t ih =>
    -- what ends the rest ends the text, if there is a rest
    have hrest (r : Text) (hr : new.getLast? = some c ∨ t.getLast? = some c) :
        new.getLast? = some c ∨ (x :: t).getLast? = some c := by
      refine hr.imp_right fun ht => ?_
      rw [List.getLast?_cons, ht]
      rfl
    cases skip with
    | succ skip =>
      rw [replaceWordAfter] at h
      exact hrest t (ih h)
    | zero =>
      rw [replaceWordAfter_cons] at h
      split at h
      · rw [List.getLast?_append] at h
        cases hl : (replaceWordAfter word new (isWordChar x) (word.length - 1) t).getLast? with
        | none =>
          rw [hl] at h
          exact .inl h
        | some d =>
          rw [hl] at h
          exact hrest t (ih (hl.trans h))
      · cases hl : (replaceWordAfter word new (isWordChar x) 0 t).getLast? with
        | none =>
          have hnil := replaceWordAfter_eq_nil hnew (List.getLast?_eq_none_iff.1 hl)
          rw [List.getLast?_cons, hl] at h
          rw [hnil]
          exact .inr h
        | some d =>
          rw [List.getLast?_cons, hl] at h
          exact hrest t (ih (hl.trans h))

end

section
variable (ctx : Context) (t : Text)

theorem normalize_getLast? : (normalize t).getLast? ≠ some ' ' := by
  intro h
  have hne : t.lower.words ≠ [] := by
    intro hnil
    rw [normalize, Text.squeeze, hnil] at h
    cases h
  have hsolid : Text.EndsSolid (normalize t) :=
    Text.endsSolid_joinWith hne fun _ => Text.isWord_of_mem_words
  rw [Text.EndsSolid, h] at hsolid
  exact absurd hsolid (by decide)

/-- a normalized utterance ends with no space -/
theorem normalizeIn_getLast? : (normalizeIn ctx t).getLast? ≠ some ' ' := by
  unfold normalizeIn
  split
  · intro h
    rcases getLast?_of_replaceWordAfter fullStop_ne_nil h with h | h
    · exact absurd h (by decide)
    · exact normalize_getLast? t h
  · exact normalize_getLast? t

/-- no line ends in a normalized utterance -/
theorem lineEnd_not_mem_normalizeIn : '\n' ∉ normalizeIn ctx t := by
  have hplain : '\n' ∉ normalize t := fun h =>
    absurd (Text.eq_space_of_mem_squeeze h (by decide)) (by decide)
  unfold normalizeIn
  split
  · intro h
    rcases mem_replaceWordAfter h with h | h
    · exact absurd h (by decide)
    · exact hplain h
  · exact hplain

end

/-! ## the trigger -/

/-- an utterance is the trigger, or begins with the trigger and a space -/
def Opens (trigger utterance : Text) : Prop :=
  utterance = normalize trigger ∨ normalize trigger ++ [' '] <+: utterance

/-- the first trigger of a list that opens an utterance -/
def FirstOpens (triggers : List Text) (utterance trigger : Text) : Prop :=
  ∃ earlier later, triggers = earlier ++ trigger :: later ∧ Opens trigger utterance ∧
    ∀ u ∈ earlier, ¬ Opens u utterance

section
variable {ctx : Context} {t u utterance rest : Text}

theorem Leaves.opens (h : Leaves u utterance rest) : Opens u utterance := by
  rcases h with ⟨h, -⟩ | h
  · exact .inl h
  · exact .inr ⟨rest, by rw [h]; simp⟩

theorem Opens.exists_leaves (h : Opens u utterance) : ∃ rest, Leaves u utterance rest := by
  rcases h with h | ⟨rest, h⟩
  · exact ⟨[], .inl ⟨h, rfl⟩⟩
  · exact ⟨rest, .inr (by rw [← h]; simp)⟩

/-- what follows the first trigger that opens an utterance -/
theorem FirstOpens.afterTrigger? {triggers : List Text} (h : FirstOpens triggers utterance u)
    (hl : Leaves u utterance rest) : afterTrigger? utterance triggers = some rest := by
  obtain ⟨earlier, later, hts, -, hearlier⟩ := h
  exact afterTrigger?_eq_some_iff.2
    ⟨earlier, u, later, hts, hl, fun v hv r hvl => hearlier v hv hvl.opens⟩

theorem exists_firstOpens {triggers : List Text}
    (h : Command.afterTrigger? utterance triggers = some rest) :
    ∃ u, FirstOpens triggers utterance u ∧ Leaves u utterance rest := by
  obtain ⟨earlier, u, later, hts, hl, hearlier⟩ := exists_of_afterTrigger? h
  refine ⟨u, ⟨earlier, later, hts, hl.opens, fun v hv hopens => ?_⟩, hl⟩
  obtain ⟨r, hr⟩ := hopens.exists_leaves
  exact hearlier v hv r hr

theorem afterTrigger?_eq_none_iff {triggers : List Text} :
    Command.afterTrigger? utterance triggers = none ↔ ∀ u ∈ triggers, ¬ Opens u utterance := by
  constructor
  · intro h u hu hopens
    obtain ⟨r, hr⟩ := hopens.exists_leaves
    exact afterTrigger?_eq_none h u hu r hr
  · intro h
    cases hafter : Command.afterTrigger? utterance triggers with
    | none => rfl
    | some rest =>
      obtain ⟨u, ⟨earlier, later, rfl, hopens, -⟩, -⟩ := exists_firstOpens hafter
      exact absurd hopens (h u (by simp))

/-- where the trigger is not all, something follows it -/
theorem eq_normalize_of_leaves_nil (h : Leaves u (normalizeIn ctx t) []) :
    normalizeIn ctx t = normalize u := by
  rcases h with ⟨h, -⟩ | h
  · exact h
  · refine absurd ?_ (normalizeIn_getLast? ctx t)
    rw [h, List.getLast?_concat]

/-! ## the reply -/

theorem interpret_of_phrase (h : Command.afterTrigger? (normalizeIn ctx t) ctx.triggers = some rest)
    (hne : rest ≠ []) : interpret ctx t = parse rest := by
  rw [interpret_of_afterTrigger? h, if_neg hne]

theorem interpret_eq_insert_iff :
    interpret ctx t = .insert t ↔ ∀ u ∈ ctx.triggers, ¬ Opens u (normalizeIn ctx t) := by
  rw [← afterTrigger?_eq_none_iff]
  refine ⟨fun h => ?_, interpret_of_eq_none⟩
  cases hafter : Command.afterTrigger? (normalizeIn ctx t) ctx.triggers with
  | none => rfl
  | some rest =>
    by_cases hnil : rest = []
    · rw [interpret_of_afterTrigger? hafter, if_pos hnil] at h
      cases h
    · have hliteral := (answer_parse rest).not_literal
      rw [← interpret_of_phrase hafter hnil, h] at hliteral
      cases hliteral

theorem interpret_eq_nothing_iff : interpret ctx t = .run [] .high ↔
    ∃ u, FirstOpens ctx.triggers (normalizeIn ctx t) u ∧ normalizeIn ctx t = normalize u := by
  constructor
  · intro h
    cases hafter : Command.afterTrigger? (normalizeIn ctx t) ctx.triggers with
    | none =>
      rw [interpret_of_eq_none hafter] at h
      cases h
    | some rest =>
      obtain ⟨u, hfirst, hl⟩ := exists_firstOpens hafter
      by_cases hnil : rest = []
      · subst hnil
        exact ⟨u, hfirst, eq_normalize_of_leaves_nil hl⟩
      · rw [interpret_of_phrase hafter hnil] at h
        rcases (answer_parse rest).acts_or_unknown with hacts | hunknown
        · rw [h] at hacts
          exact absurd hacts (not_acts_run_nil _)
        · rw [hunknown] at h
          cases h
  · rintro ⟨u, hfirst, hu⟩
    rw [interpret_of_afterTrigger? (hfirst.afterTrigger? (.inl ⟨hu, rfl⟩)), if_pos rfl]

/-- **The utterances that are commands.**  An utterance that no trigger opens is literal text, one
that is a trigger and nothing else is no operation, and what follows the first trigger that opens it
acts exactly if it is a phrase of the table, "period" aside; any other words are dropped. -/
theorem interpret_accepts (ctx : Context) (t : Text) :
    (interpret ctx t = .insert t ↔ ∀ u ∈ ctx.triggers, ¬ Opens u (normalizeIn ctx t)) ∧
      (interpret ctx t = .run [] .high ↔
        ∃ u, FirstOpens ctx.triggers (normalizeIn ctx t) u ∧ normalizeIn ctx t = normalize u) ∧
      ∀ u phrase, FirstOpens ctx.triggers (normalizeIn ctx t) u →
        normalizeIn ctx t = normalize u ++ ' ' :: phrase →
        ((interpret ctx t).Acts ↔ phrase ∈ phrases ∧ phrase ≠ period) ∧
          (¬ (phrase ∈ phrases ∧ phrase ≠ period) → interpret ctx t = .run [] .medium) := by
  refine ⟨interpret_eq_insert_iff, interpret_eq_nothing_iff, fun u phrase hfirst hsplit => ?_⟩
  have hne : phrase ≠ [] := by
    rintro rfl
    refine normalizeIn_getLast? ctx t ?_
    rw [hsplit, List.getLast?_concat]
  have hline : '\n' ∉ phrase := by
    intro hc
    refine lineEnd_not_mem_normalizeIn ctx t ?_
    rw [hsplit]
    exact List.mem_append_right _ (List.mem_cons_of_mem _ hc)
  rw [interpret_of_phrase (hfirst.afterTrigger? (.inr hsplit)) hne, ← parse_acts_iff hline]
  exact ⟨Iff.rfl, (answer_parse phrase).acts_or_unknown.resolve_left⟩

end
end Command
end Dictation
