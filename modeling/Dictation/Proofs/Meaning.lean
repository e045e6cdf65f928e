import Dictation.Proofs.Spoken

/-!
# What a command segment means

A scan finds a trigger up to the case of each letter, in the text as it is.  The grammar looks for
it at the start of the normalized command, whichever trigger of the list is there first.  So a
command means its phrase where lower case tells no more letters apart than the scan does, and where
no trigger listed before the one that was heard goes on with words of the phrase.

* `Trigger.Extends`    a trigger, and first words of a phrase after it, as one trigger;
* `Trigger.Plain`      a trigger that was heard and that the grammar sees as it was heard;
* `Command.interpret_of_segment`   the reply to any command segment, and when it is the phrase's.
-/

namespace Dictation

namespace Trigger

/-- `u` is the trigger with the first words of a phrase, or with all of it -/
def Extends (u trigger phrase : Text) : Prop :=
  ∃ v, u.lower = trigger.lower ++ ' ' :: v ∧ (v = phrase ∨ v ++ [' '] <+: phrase)

/-- lower case and the locale leave the trigger as it was heard -/
structure Plain (ctx : Context) (earlier : List Text) (trigger heard : Text) : Prop where
  lower : heard.lower = trigger.lower
  /-- no word of the trigger is read as another one -/
  normal : Command.normalizeIn ctx trigger = trigger.lower
  undotted : ∀ u ∈ trigger :: earlier, capitalDottedI ∉ u

section
variable {ctx : Context} {earlier : List Text} {u trigger heard : Text}

theorem HeardAs.undotted (h : HeardAs earlier trigger heard)
    (hp : Plain ctx earlier trigger heard) : capitalDottedI ∉ heard := by
  have hcount := List.count_eq_zero.2 (hp.undotted trigger List.mem_cons_self)
  have hlen : heard.length = trigger.length := by
    rw [← List.length_map caseKey, h.alike, List.length_map]
  have hlower := congrArg List.length hp.lower
  rw [Text.length_lower, Text.length_lower, hcount, hlen] at hlower
  exact List.count_eq_zero.1 (by omega)

/-- an earlier trigger is not the first words of the one that was heard, nor all of them -/
theorem HeardAs.lower_ne_append (h : HeardAs earlier trigger heard)
    (hp : Plain ctx earlier trigger heard) (hu : u ∈ earlier) (hne : u ≠ []) {v : Text}
    (hv : v.head?.all isBlank = true) : trigger.lower ≠ u.lower ++ v := by
  intro heq
  have hkeys : heard.map caseKey = u.map caseKey ++ v.map sharedKey := by
    rw [← Text.map_sharedKey_lower (h.undotted hp), hp.lower, heq, List.map_append,
      Text.map_sharedKey_lower (hp.undotted u (List.mem_cons_of_mem _ hu))]
  obtain ⟨a, r, hsplit, ha, hr⟩ := List.map_eq_append_iff.1 hkeys
  refine h.first u hu hne a r hsplit ?_ ha
  cases r with
  | nil => rfl
  | cons c r =>
    cases v with
    | nil => cases hr
    | cons d v =>
      have hd : isBlank d = true := hv
      have hkey : caseKey d = caseKey c := by
        rw [caseKey_eq_sharedKey d, lowered_of_blank hd]
        exact (List.cons.inj hr).1.symm
      show isBlank c = true
      rw [← isBlank_of_caseKey_eq hkey, hd]

end
end Trigger

namespace Command

section
variable {ctx : Context} {earlier : List Text} {u trigger heard phrase rest : Text}

theorem normalizeIn_congr (ctx : Context) {s t : Text} (h : s.lower = t.lower) :
    normalizeIn ctx s = normalizeIn ctx t := by
  unfold normalizeIn normalize
  rw [h]

/-- what an earlier trigger takes of a command is the trigger and words of the phrase -/
theorem leaves_of_earlier (h : Trigger.HeardAs earlier trigger heard)
    (hp : Trigger.Plain ctx earlier trigger heard) (hu : u ∈ earlier)
    (husable : Context.Usable u) (hl : Leaves u (trigger.lower ++ ' ' :: phrase) rest) :
    (u.lower = trigger.lower ++ ' ' :: phrase ∧ rest = []) ∨
      ∃ v, u.lower = trigger.lower ++ ' ' :: v ∧ phrase = v ++ ' ' :: rest := by
  have hnot {v : Text} (hv : v.head?.all isBlank = true) : trigger.lower ≠ u.lower ++ v :=
    h.lower_ne_append hp hu husable.1 hv
  unfold Leaves at hl
  rw [normalize_of_squeezed husable.2] at hl
  rcases hl with ⟨hl, hr⟩ | hl
  · exact .inl ⟨hl.symm, hr⟩
  · rcases List.append_eq_append_iff.1 hl with ⟨a, ha, hrest⟩ | ⟨a, ha, hrest⟩
    · cases a with
      | nil => exact absurd (by rw [ha, List.append_nil, List.append_nil]) (hnot (v := []) rfl)
      | cons c v =>
        obtain ⟨rfl, hv⟩ := List.cons.inj hrest
        exact .inr ⟨v, ha, hv⟩
    · cases a with
      | nil => exact absurd ha (hnot rfl)
      | cons c v =>
        obtain ⟨rfl, -⟩ := List.cons.inj hrest
        exact absurd ha (hnot (by show isBlank ' ' = true; decide))

/-- an earlier trigger takes part of a command exactly if it extends the one that was heard -/
theorem afterTrigger?_earlier_eq_none_iff (h : Trigger.HeardAs earlier trigger heard)
    (hp : Trigger.Plain ctx earlier trigger heard) (husable : ∀ u ∈ earlier, Context.Usable u) :
    afterTrigger? (trigger.lower ++ ' ' :: phrase) earlier = none ↔
      ∀ u ∈ earlier, ¬ Trigger.Extends u trigger phrase := by
  constructor
  · rintro hnone u hu ⟨v, hv, rfl | ⟨r, rfl⟩⟩
    · refine afterTrigger?_eq_none hnone u hu [] (.inl ⟨?_, rfl⟩)
      rw [normalize_of_squeezed (husable u hu).2, hv]
    · refine afterTrigger?_eq_none hnone u hu r (.inr ?_)
      rw [normalize_of_squeezed (husable u hu).2, hv]
      simp only [List.append_assoc, List.cons_append, List.nil_append]
  · intro hext
    cases hrest : afterTrigger? (trigger.lower ++ ' ' :: phrase) earlier with
    | none => rfl
    | some rest =>
      obtain ⟨u, hu, hl⟩ := exists_leaves_of_afterTrigger? hrest
      refine absurd ?_ (hext u hu)
      rcases leaves_of_earlier h hp hu (husable u hu) hl with ⟨hlower, -⟩ | ⟨v, hlower, hv⟩
      · exact ⟨phrase, hlower, .inl rfl⟩
      · exact ⟨v, hlower, .inr ⟨rest, by rw [hv, List.append_assoc]; rfl⟩⟩

/-! ## the reply -/

theorem Answer.ne_run_nil {r : Reply} (h : Answer r) : r ≠ .run [] .high := by
  rintro rfl
  cases h

/-- the one phrase of the table that not every locale has a reply to -/
theorem eq_period_of_parse : ∀ p ∈ phrases, parse p = unknown → p = period := by decide

/-- fewer words than those of a phrase have another reply than the phrase -/
theorem reply_ne_of_suffix (hp : phrase ∈ phrases)
    (h : rest = [] ∨ ' ' :: rest <:+ phrase) :
    (if rest = [] then .run [] .high else parse rest) ≠ parse phrase := by
  split
  · exact (answer_parse phrase).ne_run_nil.symm
  · next hne =>
    rcases h with h | h
    · exact absurd h hne
    · rw [parse_eq_unknown hp (.inl h)]
      intro hunknown
      rw [eq_period_of_parse phrase hp hunknown.symm] at h
      exact absurd (h.subset List.mem_cons_self) (by decide)

/-- **A plain command has the reply to its phrase, unless an earlier trigger extends its own.** -/
theorem interpret_spoken_iff {later : List Text}
    (hts : ctx.triggers = earlier ++ trigger :: later)
    (husable : ∀ t ∈ ctx.triggers, Context.Usable t)
    (h : Trigger.HeardAs earlier trigger heard) (hp : Trigger.Plain ctx earlier trigger heard)
    (hphrase : phrase ∈ phrases) :
    interpret ctx (Inline.spoken heard phrase) = parse (meant ctx phrase) ↔
      ∀ u ∈ earlier, ¬ Trigger.Extends u trigger (meant ctx phrase) := by
  have hheard := Trigger.Heard.usable husable ⟨earlier, trigger, later, hts, h⟩
  have hearlier (u : Text) (hu : u ∈ earlier) : Context.Usable u :=
    husable u (by rw [hts]; exact List.mem_append_left _ hu)
  have htrigger := husable trigger (by rw [hts]; simp)
  have hmeant := meant_mem ctx hphrase
  have hnormal : normalizeIn ctx (Inline.spoken heard phrase) =
      trigger.lower ++ ' ' :: meant ctx phrase := by
    rw [normalizeIn_spoken ctx hheard hphrase, normalizeIn_congr ctx hp.lower, hp.normal]
  have hafter : afterTrigger? (normalizeIn ctx (Inline.spoken heard phrase)) ctx.triggers =
      (afterTrigger? (trigger.lower ++ ' ' :: meant ctx phrase) earlier).or
        (some (meant ctx phrase)) := by
    rw [hnormal, hts, afterTrigger?_append]
    congr 1
    exact afterTrigger?_cons_of_leaves
      (.inr (by rw [normalize_of_squeezed htrigger.2])) later
  rw [← afterTrigger?_earlier_eq_none_iff h hp hearlier]
  cases hrest : afterTrigger? (trigger.lower ++ ' ' :: meant ctx phrase) earlier with
  | none =>
    rw [hrest] at hafter
    rw [interpret_of_afterTrigger? hafter, if_neg (phrases_usable _ hmeant).1]
    exact ⟨fun _ => rfl, fun _ => rfl⟩
  | some rest =>
    rw [hrest] at hafter
    rw [interpret_of_afterTrigger? hafter]
    obtain ⟨u, hu, hl⟩ := exists_leaves_of_afterTrigger? hrest
    have hsuffix : rest = [] ∨ ' ' :: rest <:+ meant ctx phrase := by
      rcases leaves_of_earlier h hp hu (hearlier u hu) hl with ⟨-, hr⟩ | ⟨v, -, hv⟩
      · exact .inl hr
      · exact .inr (by rw [hv]; exact List.suffix_append _ _)
    exact ⟨fun heq => absurd heq (reply_ne_of_suffix hmeant hsuffix), fun hnone => nomatch hnone⟩

end

/-- **What a command segment means.**  The scan hears the first listed trigger that is spoken there
up to case.  The reply is that to the phrase, or there is no operation, or the command is typed
out; and where the trigger is plain it is that to the phrase exactly if no trigger listed before it
extends it with words of the phrase. -/
theorem interpret_of_segment (locale : Text) (asked : List Text) (cleanup : Bool) (t : Text)
    {s : Segment} (hs : s ∈ Segment.ofText (Context.ofOptions locale asked cleanup) t)
    {heard phrase : Text} {corrected : Bool} (hk : s.kind = .command heard phrase corrected) :
    let ctx := Context.ofOptions locale asked cleanup
    let reply := interpret ctx (Inline.spoken heard phrase)
    (reply = parse (meant ctx phrase) ∨ (∃ confidence, reply = .run [] confidence) ∨
        reply = .insert (Inline.spoken heard phrase)) ∧
      ∃ earlier trigger later, ctx.triggers = earlier ++ trigger :: later ∧
        heard.map caseKey = trigger.map caseKey ∧
        (∀ u ∈ earlier, heard.map caseKey ≠ u.map caseKey) ∧
        (Trigger.Plain ctx earlier trigger heard →
          (reply = parse (meant ctx phrase) ↔
            ∀ u ∈ earlier, ¬ Trigger.Extends u trigger (meant ctx phrase))) := by
  have husable := (Context.clean_ofOptions locale asked cleanup).usable
  have hfound := Segment.found_of_mem hs
  rw [Segment.Found, hk] at hfound
  obtain ⟨hheard, hphrase⟩ := hfound
  refine ⟨interpret_spoken _ (hheard.usable husable) hphrase, ?_⟩
  obtain ⟨earlier, trigger, later, hts, h⟩ := hheard
  refine ⟨earlier, trigger, later, hts, h.alike, fun u hu => ?_, fun hp =>
    interpret_spoken_iff hts husable h hp hphrase⟩
  have hne := (husable u (by rw [hts]; exact List.mem_append_left _ hu)).1
  exact h.first u hu hne heard [] (List.append_nil heard).symm rfl

/-- the command that the default triggers are there for -/
theorem voicemark_comma_means_comma :
    (⟨0, "voicemark comma".toList, .command "voicemark".toList "comma".toList false⟩ : Segment) ∈
        Segment.ofText (Context.ofOptions Context.defaultLocale [] false)
          "voicemark comma".toList ∧
      Trigger.Plain (Context.ofOptions Context.defaultLocale [] false) [] "voicemark".toList
        "voicemark".toList ∧
      interpret (Context.ofOptions Context.defaultLocale [] false)
          (Inline.spoken "voicemark".toList "comma".toList) =
        parse (meant (Context.ofOptions Context.defaultLocale [] false) "comma".toList) := by
  have hplain : Trigger.Plain (Context.ofOptions Context.defaultLocale [] false) []
      "voicemark".toList "voicemark".toList :=
    ⟨rfl, by decide +kernel, by decide +kernel⟩
  have hmem : (⟨0, "voicemark comma".toList,
      .command "voicemark".toList "comma".toList false⟩ : Segment) ∈
        Segment.ofText (Context.ofOptions Context.defaultLocale [] false)
          "voicemark comma".toList := by decide +kernel
  refine ⟨hmem, hplain, ?_⟩
  obtain ⟨-, earlier, trigger, later, hts, -, hfirst, hiff⟩ :=
    interpret_of_segment Context.defaultLocale [] false "voicemark comma".toList hmem rfl
  cases earlier with
  | nil =>
    obtain ⟨rfl, -⟩ := List.cons.inj hts
    exact (hiff hplain).2 fun u hu => absurd hu List.not_mem_nil
  | cons u us =>
    obtain ⟨rfl, -⟩ := List.cons.inj hts
    exact absurd rfl (hfirst _ List.mem_cons_self)

/-- an utterance that is one command, with a reply that is not the phrase's -/
def Drifts (ctx : Context) (t heard phrase : Text) (reply : Reply) : Prop :=
  (Segment.ofText ctx t).map Segment.kind = [.command heard phrase false] ∧
    interpret ctx (Inline.spoken heard phrase) = reply ∧ reply ≠ parse (meant ctx phrase)

instance (ctx : Context) (t heard phrase : Text) (reply : Reply) :
    Decidable (Drifts ctx t heard phrase reply) :=
  inferInstanceAs (Decidable (_ ∧ _ ∧ _))

/-- a dotless i, a trigger that the locale reads as another word, a capital I with a dot, and a
trigger that ends with the first word of a phrase each keep a command from its phrase -/
theorem commands_drift :
    Drifts (.ofOptions "en-GB".toList [] false) "vo\u0131cemark comma".toList
        "vo\u0131cemark".toList "comma".toList (.insert "vo\u0131cemark comma".toList) ∧
      Drifts (.ofOptions "en-US".toList ["period".toList] false) "period comma".toList
        "period".toList "comma".toList (.insert "period comma".toList) ∧
      Drifts (.ofOptions "en-GB".toList ["i\u0307".toList, "\u0130 a".toList] false)
        "\u0130 a comma".toList "\u0130 a".toList "comma".toList (.run [] .medium) ∧
      Drifts (.ofOptions "en-GB".toList ["voicemark new".toList, "voicemark".toList] false)
        "voicemark  new line".toList "voicemark".toList "new line".toList (.run [] .medium) := by
  -- evaluation is faster on texts that are spelled out
  simp only [String.reduceToList]
  exact ⟨by decide +kernel, by decide +kernel, by decide +kernel, by decide +kernel⟩

end Command
end Dictation
