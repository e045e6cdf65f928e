import Dictation.Dispatch
import Dictation.Proofs.Contexts
import Dictation.Proofs.Spoken

/-!
# What a locale changes

Some locales read "period" as a full stop, before the trigger is looked for.  Where neither word is
part of a trigger this changes one command and no other: the same trigger is found first, and what
follows it means the same, unless it is "period" alone.

* `Command.exists_of_replaceWordAfter`   what was there before "period" was replaced;
* `Command.leaves_replaceWord`     a trigger stands in the one text if it does in the other;
* `Command.parse_replaceWord`      no phrase comes about and none is lost;
* `Command.SaysPeriod`             the utterances that the locale changes;
* `Context.SameButPeriod`, `Context.reads_same_but_period`   two contexts, one with such a locale.
-/

namespace Dictation

namespace Command

/-- what a full stop begins with -/
def full : Text := "full".toList

theorem period_eq : period = 'p' :: "eriod".toList := by decide
theorem fullStop_eq : fullStop = 'f' :: "ull stop".toList := by decide
theorem fullStop_ne_nil : fullStop ≠ [] := by decide
theorem isWord_period : Text.IsWord period := Text.isWord_of_all (by decide) (by decide)
theorem isWord_full : Text.IsWord full := Text.isWord_of_all (by decide) (by decide)

/-! ## a word replaced, and back -/

section
variable {word new t : Text} {c : Char}

theorem replaceWordAfter_of_not_infix (h : ¬ word <:+: t) (inWord : Bool) :
    replaceWordAfter word new inWord 0 t = t := by
  induction t generalizing inWord with
  | nil => rfl
  | cons c t ih =>
    have hb : word.beginsWith (c :: t) = false := by
      rw [Bool.eq_false_iff, ne_eq, Text.beginsWith_iff]
      rintro ⟨r, hr⟩
      exact h ⟨[], r, hr.symm⟩
    rw [replaceWordAfter_cons, hb, Bool.and_false, Bool.false_and, if_neg Bool.false_ne_true,
      ih fun ht => h (List.infix_cons ht)]

/-- the rest of a word just replaced is left out -/
theorem replaceWordAfter_append_skip (s t : Text) (inWord : Bool) :
    ∃ after, replaceWordAfter word new inWord s.length (s ++ t) =
      replaceWordAfter word new after 0 t := by
  induction s generalizing inWord with
  | nil => exact ⟨inWord, rfl⟩
  | cons x s ih =>
    obtain ⟨after, h⟩ := ih (isWordChar x)
    exact ⟨after, by rw [List.length_cons, List.cons_append, replaceWordAfter, h]⟩

theorem replaceWordAfter_eq_nil (hnew : new ≠ []) {inWord : Bool}
    (h : replaceWordAfter word new inWord 0 t = []) : t = [] := by
  cases t with
  | nil => rfl
  | cons c t =>
    rw [replaceWordAfter_cons] at h
    split at h
    · exact absurd (List.append_eq_nil_iff.1 h).1 hnew
    · cases h

theorem mem_replaceWordAfter {inWord : Bool} {skip : Nat}
    (h : c ∈ replaceWordAfter word new inWord skip t) : c ∈ new ∨ c ∈ t := by
  induction t generalizing inWord skip with
  | nil => exact .inr h
  | cons x t ih =>
    cases skip with
    | succ skip =>
      rw [replaceWordAfter] at h
      exact (ih h).imp_right (List.mem_cons_of_mem _)
    | zero =>
      rw [replaceWordAfter_cons] at h
      split at h
      · rcases List.mem_append.1 h with h | h
        · exact .inl h
        · exact (ih h).imp_right (List.mem_cons_of_mem _)
      · rcases List.mem_cons.1 h with rfl | h
        · exact .inr List.mem_cons_self
        · exact (ih h).imp_right (List.mem_cons_of_mem _)

end

/-! ## "period" replaced -/

section
variable {s t u rest : Text} {inWord : Bool}

/-- a text that begins with a full stop, and a part of it that ends where a word does -/
theorem full_isPrefix {r : Text} (h : fullStop ++ r = s ++ rest)
    (hrest : rest.head?.all (· == ' ') = true) : full <+: s := by
  rw [show fullStop = full ++ " stop".toList by decide, List.append_assoc] at h
  rcases List.append_eq_append_iff.1 h with ⟨as, rfl, -⟩ | ⟨bs, hbs, rfl⟩
  · exact List.prefix_append _ _
  -- a part that ended within the word would have a letter after it
  · cases bs with
    | nil => exact ⟨[], by rw [hbs, List.append_nil, List.append_nil]⟩
    | cons b bs =>
      obtain rfl : b = ' ' := by simpa using hrest
      have hb : ' ' ∈ full := hbs ▸ List.mem_append_right _ List.mem_cons_self
      exact absurd hb (by decide)

/-- **What was there before "period" was replaced.**  A part without "full" that ends where a word
does is as it was. -/
theorem exists_of_replaceWordAfter (h : replaceWordAfter period fullStop inWord 0 t = s ++ rest)
    (hs : ¬ full <:+: s) (hrest : rest.head?.all (· == ' ') = true) :
    ∃ u after, t = s ++ u ∧ rest = replaceWordAfter period fullStop after 0 u := by
  -- on the part: where a word is replaced, "full" would stand in it
  induction s generalizing inWord t with
  | nil => exact ⟨t, inWord, rfl, h.symm⟩
  | cons x s ih =>
    cases t with
    | nil => cases h
    | cons c t =>
      rw [replaceWordAfter_cons] at h
      split at h
      · exact absurd (full_isPrefix h hrest).isInfix hs
      · rw [List.cons_append] at h
        obtain ⟨rfl, hrest⟩ := List.cons.inj h
        obtain ⟨u, after, rfl, hu⟩ := ih hrest fun hi => hs (List.infix_cons hi)
        exact ⟨u, after, rfl, hu⟩

/-- a text without "full" is as it was -/
theorem eq_of_replaceWordAfter (h : replaceWordAfter period fullStop inWord 0 t = s)
    (hs : ¬ full <:+: s) : t = s := by
  rw [← List.append_nil s] at h
  obtain ⟨u, after, rfl, hu⟩ := exists_of_replaceWordAfter h hs rfl
  rw [replaceWordAfter_eq_nil fullStop_ne_nil hu.symm, List.append_nil]

/-- a blank was there before -/
theorem exists_cons_of_replaceWordAfter
    (h : replaceWordAfter period fullStop inWord 0 u = ' ' :: rest) :
    ∃ v, u = ' ' :: v ∧ rest = replaceWord period fullStop v := by
  cases u with
  | nil => cases h
  | cons c u =>
    rw [replaceWordAfter_cons] at h
    split at h
    · rw [fullStop_eq, List.cons_append] at h
      exact absurd (List.cons.inj h).1 (by decide)
    · obtain ⟨rfl, h⟩ := List.cons.inj h
      rw [isWordChar_space] at h
      exact ⟨u, rfl, h.symm⟩

theorem replaceWord_eq_nil_iff : replaceWord period fullStop t = [] ↔ t = [] := by
  refine ⟨replaceWordAfter_eq_nil fullStop_ne_nil, ?_⟩
  rintro rfl
  rfl

/-! ## the trigger -/

/-- a trigger stands in the text if it stands there with "period" replaced -/
theorem leaves_replaceWord {trigger utterance : Text} (hperiod : ¬ period <:+: normalize trigger)
    (hfull : ¬ full <:+: normalize trigger) :
    Leaves trigger (replaceWord period fullStop utterance) rest ↔
      ∃ left, Leaves trigger utterance left ∧ rest = replaceWord period fullStop left := by
  have hsame : replaceWord period fullStop (normalize trigger) = normalize trigger :=
    replaceWordAfter_of_not_infix hperiod false
  constructor
  · rintro (⟨h, rfl⟩ | h)
    · exact ⟨[], .inl ⟨eq_of_replaceWordAfter h hfull, rfl⟩, rfl⟩
    · obtain ⟨u, after, rfl, hu⟩ := exists_of_replaceWordAfter h hfull rfl
      obtain ⟨v, rfl, hv⟩ := exists_cons_of_replaceWordAfter hu.symm
      exact ⟨v, .inr rfl, hv⟩
  · rintro ⟨left, ⟨rfl, rfl⟩ | rfl, rfl⟩
    · exact .inl ⟨hsame, rfl⟩
    · refine .inr ?_
      rw [replaceWord_append_cons isWordChar_space (by decide) (by decide), hsame]

/-- the same trigger comes first -/
theorem afterTrigger?_replaceWord {triggers : List Text} (utterance : Text)
    (h : ∀ u ∈ triggers, ¬ period <:+: normalize u ∧ ¬ full <:+: normalize u) :
    afterTrigger? (replaceWord period fullStop utterance) triggers =
      (afterTrigger? utterance triggers).map (replaceWord period fullStop) := by
  induction triggers with
  | nil => rfl
  | cons u us ih =>
    obtain ⟨⟨hperiod, hfull⟩, hus⟩ := List.forall_mem_cons.1 h
    rcases afterTrigger?_cons utterance u us with ⟨left, hl, hafter⟩ | ⟨hnot, hafter⟩
    · have hl' := (leaves_replaceWord hperiod hfull).2 ⟨left, hl, rfl⟩
      rw [hafter, afterTrigger?_cons_of_leaves hl']
      rfl
    · have hnot' (rest : Text) : ¬ Leaves u (replaceWord period fullStop utterance) rest := by
        intro hl
        obtain ⟨left, hl, -⟩ := (leaves_replaceWord hperiod hfull).1 hl
        exact hnot left hl
      rw [hafter, afterTrigger?_cons_of_not_leaves hnot', ih hus]

/-! ## the phrase -/

theorem phrases_full : ∀ p ∈ phrases, full <:+: p → p = fullStop := by decide +kernel

theorem eq_of_replaceWord_eq_fullStop (h : replaceWord period fullStop t = fullStop) :
    t = period ∨ t = fullStop := by
  cases t with
  | nil => exact absurd h.symm fullStop_ne_nil
  | cons c t =>
    rw [replaceWord, replaceWordAfter_cons] at h
    split at h
    · next hb =>
      refine .inl ?_
      rw [Bool.and_eq_true, Bool.and_eq_true] at hb
      obtain ⟨r, hr⟩ := (Text.beginsWith_iff _ _).1 hb.1.2
      rw [period_eq, List.cons_append] at hr
      obtain ⟨rfl, rfl⟩ := List.cons.inj hr
      obtain ⟨after, hskip⟩ :
          ∃ after, replaceWordAfter period fullStop (isWordChar 'p') "eriod".toList.length
            ("eriod".toList ++ r) = replaceWordAfter period fullStop after 0 r :=
        replaceWordAfter_append_skip _ _ _
      rw [List.append_right_eq_self, show period.length - 1 = "eriod".toList.length by decide,
        hskip] at h
      rw [replaceWordAfter_eq_nil fullStop_ne_nil h, List.append_nil, period_eq]
    · refine .inr ?_
      obtain ⟨hc, h⟩ := List.cons.inj (h.trans fullStop_eq)
      rw [hc, eq_of_replaceWordAfter h (by decide +kernel), fullStop_eq]

/-- only "period" becomes another phrase -/
theorem eq_of_replaceWord_mem (h : replaceWord period fullStop t ∈ phrases) (hne : t ≠ period) :
    t = replaceWord period fullStop t := by
  by_cases hfull : full <:+: replaceWord period fullStop t
  · have hstop := phrases_full _ h hfull
    rw [hstop]
    exact (eq_of_replaceWord_eq_fullStop hstop).resolve_left hne
  · exact eq_of_replaceWordAfter rfl hfull

/-- what follows a trigger means the same, unless it is "period" -/
theorem parse_replaceWord (hline : '\n' ∉ t) (hne : t ≠ period) :
    parse (replaceWord period fullStop t) = parse t := by
  have hlast {s : Text} (hs : '\n' ∉ s) : s.getLast? ≠ some '\n' := fun hl =>
    hs (List.mem_of_getLast? hl)
  by_cases hnew : parse (replaceWord period fullStop t) = unknown
  · by_cases hold : parse t = unknown
    · rw [hnew, hold]
    · have ht := replaceWord_phrase t (mem_phrases_of_parse hold (hlast hline))
      rw [if_neg (by simpa using hne)] at ht
      rw [ht]
  · have hline' : '\n' ∉ replaceWord period fullStop t := by
      intro hc
      rcases mem_replaceWordAfter hc with hc | hc
      · exact absurd hc (by decide)
      · exact hline hc
    rw [← eq_of_replaceWord_mem (mem_phrases_of_parse hnew (hlast hline')) hne]

end

/-! ## the command -/

/-- what follows the first trigger that the utterance begins with is "period" -/
def SaysPeriod (ctx : Context) (t : Text) : Prop :=
  ∃ earlier trigger later, ctx.triggers = earlier ++ trigger :: later ∧
    Leaves trigger (normalize t) period ∧ ∀ u ∈ earlier, ∀ rest, ¬ Leaves u (normalize t) rest

theorem saysPeriod_iff (ctx : Context) (t : Text) :
    SaysPeriod ctx t ↔ afterTrigger? (normalize t) ctx.triggers = some period :=
  afterTrigger?_eq_some_iff.symm

/-- what follows a trigger has no line end in it -/
theorem lineEnd_not_mem {t trigger rest : Text} (h : Leaves trigger (normalize t) rest) :
    '\n' ∉ rest := by
  intro hc
  have hmem : '\n' ∈ normalize t := by
    rcases h with ⟨-, rfl⟩ | h
    · cases hc
    · rw [h]
      exact List.mem_append_right _ (List.mem_cons_of_mem _ hc)
  exact absurd (Text.eq_space_of_mem_squeeze hmem (by decide)) (by decide)

end Command

/-! ## two contexts -/

open Command

/-- contexts with the same triggers, of which one reads "period" as a full stop, and neither word
in a trigger -/
structure Context.SameButPeriod (ctx ctx' : Context) : Prop where
  triggers : ctx.triggers = ctx'.triggers
  cleanup : ctx.cleanup = ctx'.cleanup
  reads : ctx.readsPeriod = true
  leaves : ctx'.readsPeriod = false
  apart : ∀ u ∈ ctx.triggers, ¬ period <:+: u.lower ∧ ¬ full <:+: u.lower

section
variable {ctx ctx' : Context} {t : Text}

theorem Context.SameButPeriod.afterTrigger?_plain (h : ctx.SameButPeriod ctx') (t : Text) :
    afterTrigger? (normalizeIn ctx' t) ctx'.triggers =
      afterTrigger? (normalize t) ctx.triggers := by
  rw [normalizeIn, h.leaves, if_neg Bool.false_ne_true, h.triggers]

theorem Context.SameButPeriod.afterTrigger?_alias (h : ctx.SameButPeriod ctx') (t : Text) :
    afterTrigger? (normalizeIn ctx t) ctx.triggers =
      (afterTrigger? (normalize t) ctx.triggers).map (replaceWord period fullStop) := by
  rw [normalizeIn, h.reads, if_pos rfl]
  refine afterTrigger?_replaceWord _ fun u hu => ⟨fun hp => ?_, fun hf => ?_⟩
  · exact (h.apart u hu).1 (Text.isInfix_of_squeeze isWord_period hp)
  · exact (h.apart u hu).2 (Text.isInfix_of_squeeze isWord_full hf)

theorem Command.interpret_of_saysPeriod (h : ctx.SameButPeriod ctx') (hp : SaysPeriod ctx t) :
    interpret ctx t = .run [.insertText ".".toList] .high ∧
      interpret ctx' t = .run [] .medium := by
  have hplain := h.afterTrigger?_plain t
  have halias := h.afterTrigger?_alias t
  rw [(saysPeriod_iff ctx t).1 hp] at hplain halias
  rw [interpret_of_afterTrigger? halias, interpret_of_afterTrigger? hplain]
  exact ⟨by decide, by decide⟩

theorem Command.interpret_of_not_saysPeriod (h : ctx.SameButPeriod ctx')
    (hp : ¬ SaysPeriod ctx t) : interpret ctx t = interpret ctx' t := by
  have hplain := h.afterTrigger?_plain t
  have halias := h.afterTrigger?_alias t
  cases hrest : afterTrigger? (normalize t) ctx.triggers with
  | none =>
    rw [hrest] at hplain halias
    rw [interpret_of_eq_none hplain, interpret_of_eq_none halias]
  | some rest =>
    have hne : rest ≠ period := by
      rintro rfl
      exact hp ((saysPeriod_iff ctx t).2 hrest)
    obtain ⟨_, -, hl⟩ := exists_leaves_of_afterTrigger? hrest
    rw [hrest] at hplain halias
    rw [interpret_of_afterTrigger? halias, interpret_of_afterTrigger? hplain]
    by_cases hnil : rest = []
    · rw [if_pos hnil, if_pos (replaceWord_eq_nil_iff.2 hnil)]
    · rw [if_neg hnil, if_neg (mt replaceWord_eq_nil_iff.1 hnil),
        parse_replaceWord (lineEnd_not_mem hl) hne]

/-! ## the commands of an utterance -/

theorem Command.phrases_period : ∀ p ∈ phrases, p.words.getLast? = some period → p = period := by
  decide

/-- a command that says "period" has that phrase: nothing else ends with the word -/
theorem Command.eq_period_of_saysPeriod {heard p : Text} (hp : p ∈ phrases)
    (h : SaysPeriod ctx (Inline.spoken heard p)) : p = period := by
  obtain ⟨_, trigger, _, -, ⟨-, hl⟩ | hl, -⟩ := h
  · cases hl
  · have hwords := congrArg Text.words hl
    rw [normalize, Text.words_squeeze, Inline.spoken, Text.lower_append_blank (by decide),
      phrases_lower p hp, Text.words_append_blank (by decide),
      Text.words_append_blank (by decide)] at hwords
    have hlast := congrArg List.getLast? hwords
    rw [show Text.words period = [period] by decide, List.getLast?_concat,
      List.getLast?_append_of_ne_nil _ (phrases_usable p hp).words_ne_nil] at hlast
    exact phrases_period p hp hlast

theorem Context.SameButPeriod.alike (h : ctx.SameButPeriod ctx')
    (hperiod : ∀ s ∈ Segment.ofText ctx t, s.phrase ≠ period) : ctx.Alike ctx' t where
  cleanup := h.cleanup
  segments := by
    have hlexicon : Segment.lexicon ctx = Segment.lexicon ctx' := by
      rw [Segment.lexicon, Segment.lexicon, h.triggers, h.cleanup]
    rw [Segment.ofText, Segment.ofText, hlexicon]
  replies := by
    intro s hs trigger phrase corrected hk
    have hfound := Segment.found_of_mem hs
    have hne := hperiod s hs
    rw [Segment.Found, hk] at hfound
    rw [Segment.phrase, hk] at hne
    exact interpret_of_not_saysPeriod h fun hsays =>
      hne (eq_period_of_saysPeriod hfound.2 hsays)

/-- **A locale changes the command "period" and nothing else.**  Said after the first trigger, the
word is a full stop in one locale and no command in the other.  Any other utterance is read the same
way and sent to the editor the same way, and one without a "period" among its commands, as the
compilers cut it, is compiled the same way. -/
theorem Context.reads_same_but_period (h : ctx.SameButPeriod ctx') (t : Text) :
    (SaysPeriod ctx t → interpret ctx t = .run [.insertText ".".toList] .high ∧
      interpret ctx' t = .run [] .medium) ∧
    (¬ SaysPeriod ctx t → interpret ctx t = interpret ctx' t ∧
      Dispatch.ofText ctx t = Dispatch.ofText ctx' t) ∧
    ((∀ s ∈ Segment.ofText ctx (Inline.cleaned ctx t), s.phrase ≠ period) →
      Inline.compile ctx t = Inline.compile ctx' t ∧
        Mixed.compile ctx t = Mixed.compile ctx' t) := by
  refine ⟨interpret_of_saysPeriod h, fun hp => ?_, fun hperiod => ?_⟩
  · have hsame := interpret_of_not_saysPeriod h hp
    exact ⟨hsame, by rw [Dispatch.ofText, Dispatch.ofText, hsame]⟩
  · have halike := h.alike hperiod
    exact ⟨Inline.compile_congr halike, Mixed.compile_congr halike⟩

/-- the default triggers, in a locale with a period and in one with a full stop -/
theorem Context.period_in_two_locales :
    let us : Context := ⟨"en-US".toList, defaultTriggers, true⟩
    let gb : Context := ⟨"en-GB".toList, defaultTriggers, true⟩
    us.SameButPeriod gb ∧
      interpret us "Voice Mark\tPERIOD".toList = .run [.insertText ".".toList] .high ∧
      interpret gb "Voice Mark\tPERIOD".toList = .run [] .medium ∧
      interpret us "voicemark period dash".toList = interpret gb "voicemark period dash".toList ∧
      Mixed.compile us "one period voicemark comma two".toList =
        Mixed.compile gb "one period voicemark comma two".toList := by
  intro us gb
  have h : us.SameButPeriod gb :=
    ⟨rfl, rfl, by decide +kernel, by decide +kernel, by decide +kernel⟩
  have hsays : SaysPeriod us "Voice Mark\tPERIOD".toList :=
    (saysPeriod_iff _ _).2 (by decide +kernel)
  have hnot : ¬ SaysPeriod us "voicemark period dash".toList :=
    fun hp => absurd ((saysPeriod_iff _ _).1 hp) (by decide +kernel)
  obtain ⟨hus, hgb⟩ := (reads_same_but_period h _).1 hsays
  have hdash := ((reads_same_but_period h _).2.1 hnot).1
  have hcompile := ((reads_same_but_period h "one period voicemark comma two".toList).2.2
    (by decide +kernel)).2
  exact ⟨h, hus, hgb, hdash, hcompile⟩

end
end Dictation
