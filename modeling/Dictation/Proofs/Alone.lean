import Dictation.Proofs.Agreement
import Dictation.Proofs.CommandSegments

/-!
# A command spoken alone

An utterance can be read as one command, in lower case and with single spaces, or it can be
compiled, which scans it as it is.  The two agree where the scan hears one command and nothing else
but blanks.

* `Segment.HeardAlone`    the segments of such an utterance;
* `Segment.SpelledAlone`  its characters; `heardAlone_iff`: the two are the same;
* `Command.interpret_spelled`   read as a whole, it is the command that the scan hears;
* `Command.interpret_alone`     the operations are the same on every path.
-/

namespace Dictation

namespace Segment

/-- text without words -/
def isGap (s : Segment) : Bool := s.kind == .text && s.source.allBlank

/-- one command is heard and nothing else but blanks -/
def HeardAlone (ctx : Context) (t heard phrase : Text) : Prop :=
  ((ofText ctx t).filter fun s => !s.isGap).map Segment.kind = [.command heard phrase false]

/-- the first listed trigger that stands there, as it was heard, and blanks and the phrase, up to
case, after it; blanks may stand around the command -/
def SpelledAlone (ctx : Context) (t heard phrase : Text) : Prop :=
  ∃ lead gap spelling tail, t = lead ++ (heard ++ (gap ++ (spelling ++ tail))) ∧
    lead.allBlank = true ∧ gap ≠ [] ∧ gap.allBlank = true ∧ tail.allBlank = true ∧
    spelling.lower = phrase ∧ phrase ∈ Command.phrases ∧
    ∃ earlier trigger later, ctx.triggers = earlier ++ trigger :: later ∧
      heard.map caseKey = trigger.map caseKey ∧
      ∀ u ∈ earlier, ¬ Trigger.StandsAt false u t lead.length

/-! ## gaps -/

section
variable {lx : Lexicon} {done gap t : Text} {ss : List Segment}

theorem isGap_of_kind {s : Segment} (h : s.kind ≠ .text) : s.isGap = false := by
  rw [isGap, beq_eq_false_iff_ne.2 h, Bool.false_and]

theorem filter_leading_eq_nil_iff (offset : Nat) :
    (leading offset gap.length gap).filter (fun s => !s.isGap) = [] ↔ gap.allBlank = true := by
  by_cases hne : gap = []
  · subst hne
    exact ⟨fun _ => rfl, fun _ => rfl⟩
  · rw [leading_of_ne_nil _ hne, List.filter_eq_nil_iff]
    simp [isGap]

/-- a scan that makes nothing but gaps goes over blanks -/
theorem allBlank_of_cuts (h : Cuts lx done t ss) (hss : ss.filter (fun s => !s.isGap) = []) :
    t.allBlank = true := by
  cases h with
  | rest _ => exact (filter_leading_eq_nil_iff _).1 hss
  | @trigger _ gap t n s ss _ _ hs _ =>
    have hkind : s.isGap = false := isGap_of_kind (hs ▸ kind_atTrigger _ _ _ _)
    rw [List.filter_append, List.append_eq_nil_iff, List.filter_cons_of_pos (by simp [hkind])] at hss
    exact absurd hss.2 (List.cons_ne_nil _ _)

/-- a scan that makes one segment besides gaps finds one trigger between blanks -/
theorem exists_of_cuts_single {kind : Kind} (hkind : kind ≠ .text) (h : Cuts lx done t ss)
    (hss : (ss.filter fun s => !s.isGap).map Segment.kind = [kind]) :
    ∃ lead rest n s, t = lead ++ (s.source ++ rest) ∧ lead.allBlank = true ∧
      rest.allBlank = true ∧ s.kind = kind ∧
      Trigger.tailAt? lx.lenient (done ++ lead).getLast? (s.source ++ rest) lx.triggers = some n ∧
      atTrigger lx (done ++ lead).length n (s.source ++ rest) = s := by
  cases h with
  | rest _ =>
    -- without a trigger there is only text
    obtain ⟨s, hs, hk⟩ := List.mem_map.1 (hss ▸ List.mem_singleton_self _)
    obtain ⟨-, rfl⟩ := mem_leading (List.mem_filter.1 hs).1
    exact absurd hk.symm hkind
  | @trigger _ lead t n s ss _ htail hs hrest =>
    have hgap : s.isGap = false := isGap_of_kind (hs ▸ kind_atTrigger _ _ _ _)
    rw [List.filter_append, List.filter_cons_of_pos (by simp [hgap]), List.map_append,
      List.map_cons, List.append_eq_singleton_iff] at hss
    rcases hss with ⟨hleading, hcons⟩ | ⟨-, hcons⟩
    · obtain ⟨hk, hnil⟩ := List.cons.inj hcons
      exact ⟨lead, t, n, s, rfl, (filter_leading_eq_nil_iff _).1 (List.map_eq_nil_iff.1 hleading),
        allBlank_of_cuts hrest (List.map_eq_nil_iff.1 hnil), hk, htail, hs⟩
    · cases hcons

end

/-- which of the triggers was heard -/
theorem exists_first_of_tailAt? {before : Option Char} {triggers : List Text} {heard rest : Text}
    (h : Trigger.tailAt? false before (heard ++ rest) triggers = some (heard.length - 1))
    (hheard : heard ≠ []) :
    ∃ earlier trigger later, triggers = earlier ++ trigger :: later ∧
      heard.map caseKey = trigger.map caseKey ∧
      ∀ u ∈ earlier, u ≠ [] → Trigger.stands false before u (heard ++ rest) = false := by
  obtain ⟨earlier, trigger, later, hts, hlen, hstands, hearlier⟩ := Trigger.exists_of_tailAt? h
  have hpos := List.length_pos_iff.2 hheard
  have hkeys := Trigger.map_take_of_prefix ((Trigger.stands_iff _ _ _ _).1 hstands).2.1
  rw [hlen, Nat.sub_add_cancel hpos, List.take_left] at hkeys
  exact ⟨earlier, trigger, later, hts, hkeys, hearlier⟩

/-! ## one command -/

section
variable {ctx : Context} {t heard phrase : Text} (hcleanup : ctx.cleanup = false)
  (husable : ∀ u ∈ ctx.triggers, Context.Usable u)
include hcleanup

theorem spelledAlone_of_heardAlone (h : HeardAlone ctx t heard phrase) :
    SpelledAlone ctx t heard phrase := by
  obtain ⟨lead, tail, n, s, rfl, hlead, htailblank, hk, htail, hs⟩ :=
    exists_of_cuts_single Kind.noConfusion (cuts_cut (lexicon ctx) [] t) h
  rcases atTrigger_cases hcleanup htail ([] ++ lead).length with hat |
    ⟨heard', gap, q, rest, hsplit, hheard, hgapne, hgap, hq, -, hat⟩
  · rw [← hs, hat] at hk
    cases hk
  · rw [hat] at hs
    subst hs
    obtain ⟨rfl, rfl⟩ : heard' = heard ∧ q.lower = phrase := by
      simpa using hk
    obtain rfl : tail = rest := by simpa using hsplit
    have hn : n = heard'.length - 1 := by omega
    have hne : heard' ≠ [] := by
      rintro rfl
      cases hheard
    rw [lenient_lexicon hcleanup, hsplit, hn] at htail
    obtain ⟨earlier, trigger, later, hts, hkeys, hearlier⟩ := exists_first_of_tailAt? htail hne
    refine ⟨lead, gap, q, tail, by simp, hlead, hgapne, hgap, htailblank, rfl, hq,
      earlier, trigger, later, hts, hkeys, fun u hu hat => ?_⟩
    obtain ⟨hune, hstands⟩ := (Trigger.standsAt_append_iff _ _ _ _).1 hat
    have hnot := hearlier u hu hune
    rw [List.nil_append, ← hsplit, hstands] at hnot
    cases hnot

include husable

theorem heardAlone_of_spelledAlone (h : SpelledAlone ctx t heard phrase) :
    HeardAlone ctx t heard phrase := by
  obtain ⟨lead, gap, q, tail, rfl, hlead, hgapne, hgap, htail, rfl, hq, earlier, trigger, later,
    hts, hheard, hearlier⟩ := h
  have htrigger := husable trigger (by rw [hts]; simp)
  have hbefore : isBoundary false ([] ++ lead).getLast? = true := by
    rw [Phrase.isBoundary_strict, Option.all_eq_true]
    intro c hc
    exact Text.isBlank_of_mem hlead (List.mem_of_getLast? hc)
  have hrest : tail.head?.all isBlank = true := by
    rw [Option.all_eq_true]
    intro c hc
    exact Text.isBlank_of_mem htail (List.mem_of_head? hc)
  have hend : Trigger.Quiet (lexicon ctx).lenient (lexicon ctx).triggers
      (([] ++ (lead ++ (heard ++ (gap ++ q)))) ++ (tail ++ []))
      ([] ++ (lead ++ (heard ++ (gap ++ q)))).length
      (([] ++ (lead ++ (heard ++ (gap ++ q)))) ++ tail).length :=
    Trigger.quiet_of_allBlank husable htail
  rw [List.append_nil tail] at hend
  have hfirst : ∀ u ∈ earlier, u ≠ [] → Trigger.stands false ([] ++ lead).getLast? u
      (heard ++ (gap ++ (q ++ tail))) = false := by
    intro u hu hne
    rw [Bool.eq_false_iff]
    intro hstands
    exact hearlier u hu ((Trigger.standsAt_append_iff _ _ _ _).2 ⟨hne, hstands⟩)
  have hcuts := cuts_command hcleanup hts htrigger.1 hheard hbefore hfirst hgapne hgap hq hrest
    (Trigger.quiet_of_allBlank husable hlead) (.rest hend)
  unfold HeardAlone ofText segments
  rw [show cut (lexicon ctx) 0 none _ = _ from cuts_iff.1 hcuts, List.filter_append,
    (filter_leading_eq_nil_iff _).2 hlead, List.filter_cons_of_pos rfl,
    (filter_leading_eq_nil_iff _).2 htail]
  rfl

/-- **One command is heard alone exactly where it is spelled alone.** -/
theorem heardAlone_iff : HeardAlone ctx t heard phrase ↔ SpelledAlone ctx t heard phrase :=
  ⟨spelledAlone_of_heardAlone hcleanup, heardAlone_of_spelledAlone hcleanup husable⟩

end
end Segment

/-! ## read as a whole -/

namespace Command

section
variable {ctx : Context} {s t heard phrase : Text} {ops : List Operation} {confidence : Confidence}

/-- an utterance with operations is read by its normalized words alone -/
theorem interpret_eq_run_of_normalize (h : normalize s = normalize t)
    (hrun : interpret ctx s = .run ops confidence) : interpret ctx t = .run ops confidence := by
  have hnormal : normalizeIn ctx s = normalizeIn ctx t := by rw [normalizeIn, h, normalizeIn]
  unfold interpret at hrun ⊢
  rw [← hnormal]
  split at hrun
  · cases hrun
  · exact hrun
  · exact hrun

/-- blanks around a command, and how many stand within it, do not count -/
theorem normalize_of_spelling {lead gap q tail : Text} (hlead : lead.allBlank = true)
    (hgapne : gap ≠ []) (hgap : gap.allBlank = true) (htail : tail.allBlank = true)
    (hq : q.lower ∈ phrases) (heard : Text) :
    normalize (lead ++ (heard ++ (gap ++ (q ++ tail)))) =
      normalize (Inline.spoken heard q.lower) := by
  obtain ⟨c, g, rfl⟩ := List.exists_cons_of_ne_nil hgapne
  rw [Text.allBlank_cons, Bool.and_eq_true] at hgap
  have hwords : Text.words (Text.lower (lead ++ (heard ++ (c :: g ++ (q ++ tail))))) =
      heard.lower.words ++ q.lower.words := by
    rw [Text.words_lower_gap_append hlead, List.cons_append,
      Text.words_lower_append_blank hgap.1, Text.words_lower_gap_append hgap.2,
      Text.words_lower_append_gap htail]
  rw [normalize, Text.squeeze, hwords, normalize, Text.squeeze, Inline.spoken,
    Text.words_lower_append_blank (by decide), phrases_lower _ hq]

/-- **Read as a whole, an utterance is the command that the scan hears in it.** -/
theorem interpret_spelled (h : Segment.SpelledAlone ctx t heard phrase)
    (hrun : interpret ctx t = .run ops confidence) :
    interpret ctx (Inline.spoken heard phrase) = .run ops confidence := by
  obtain ⟨lead, gap, q, tail, rfl, hlead, hgapne, hgap, htail, rfl, hq, -⟩ := h
  exact interpret_eq_run_of_normalize (normalize_of_spelling hlead hgapne hgap htail hq heard) hrun

end
end Command

/-! ## compiled -/

theorem Inline.appendText_nil (ops : List Operation) : appendText ops [] = ops := by
  rw [appendText_eq, if_pos Text.allBlank_nil]

/-- the one segment that counts where a command is heard alone -/
theorem Segment.exists_of_heardAlone {ctx : Context} {t heard phrase : Text}
    (h : HeardAlone ctx t heard phrase) : ∃ s, s.kind = .command heard phrase false ∧
      (ofText ctx t).filter (fun s => !s.isGap) = [s] := by
  obtain ⟨s, hs, hk⟩ := List.map_eq_singleton_iff.1 h
  exact ⟨s, hk, hs⟩

section
variable {ctx : Context} {t heard phrase : Text} {ops : List Operation} {confidence : Confidence}
  (hcleanup : ctx.cleanup = false)
include hcleanup

theorem Inline.step_of_isGap {s : Segment} (h : s.isGap = true) (ops : List Operation) :
    step ctx ops s = ops := by
  rw [Segment.isGap, Bool.and_eq_true, beq_iff_eq] at h
  unfold step dictated
  rw [h.1]
  dsimp only
  rw [hcleanup, if_neg Bool.false_ne_true, Text.trimRight_of_allBlank h.2, appendText_nil]

theorem Chunk.ofSegment_of_isGap {s : Segment} (h : s.isGap = true) : ofSegment ctx s = [] := by
  rw [Segment.isGap, Bool.and_eq_true, beq_iff_eq] at h
  unfold ofSegment dictated
  rw [h.1, hcleanup, if_neg Bool.false_ne_true]
  dsimp only
  rw [(Text.trim_eq_nil_iff _).2 h.2]
  rfl

/-- gaps count for nothing when segments are compiled -/
theorem Inline.ofSegments_filter (ss : List Segment) :
    ofSegments ctx (ss.filter fun s => !s.isGap) = ofSegments ctx ss := by
  have hfold (ops : List Operation) :
      (ss.filter fun s => !s.isGap).foldl (step ctx) ops = ss.foldl (step ctx) ops := by
    induction ss generalizing ops with
    | nil => rfl
    | cons s ss ih =>
      cases hs : s.isGap with
      | true =>
        rw [List.filter_cons_of_neg (by simp [hs]), List.foldl_cons, step_of_isGap hcleanup hs]
        exact ih ops
      | false =>
        rw [List.filter_cons_of_pos (by simp [hs]), List.foldl_cons, List.foldl_cons]
        exact ih _
  exact hfold []

theorem Chunk.ofSegments_filter (ss : List Segment) :
    ofSegments ctx (ss.filter fun s => !s.isGap) = ofSegments ctx ss := by
  induction ss with
  | nil => rfl
  | cons s ss ih =>
    cases hs : s.isGap with
    | true =>
      rw [List.filter_cons_of_neg (by simp [hs]), ih, ofSegments_cons,
        ofSegment_of_isGap hcleanup hs, List.nil_append]
    | false => rw [List.filter_cons_of_pos (by simp [hs]), ofSegments_cons, ih, ofSegments_cons]

theorem Inline.compile_of_heardAlone (h : Segment.HeardAlone ctx t heard phrase)
    (hrun : Command.interpret ctx (spoken heard phrase) = .run ops confidence) :
    compile ctx t = ops := by
  obtain ⟨s, hk, hs⟩ := Segment.exists_of_heardAlone h
  rw [compile, cleaned, hcleanup, if_neg Bool.false_ne_true, ← ofSegments_filter hcleanup, hs]
  show step ctx [] s = ops
  unfold step
  rw [hk]
  dsimp only
  rw [hrun]
  exact List.nil_append ops

theorem Mixed.immediate_of_heardAlone (husable : ∀ u ∈ ctx.triggers, Context.Usable u)
    (h : Segment.HeardAlone ctx t heard phrase)
    (hrun : Command.interpret ctx (Inline.spoken heard phrase) = .run ops confidence) :
    (compile ctx t).immediate = ops := by
  obtain ⟨s, hk, hs⟩ := Segment.exists_of_heardAlone h
  have hchunks : Chunk.ofText ctx t = [.command (Inline.spoken heard phrase)
      (.run ops confidence)] := by
    rw [Chunk.ofText, ← Chunk.ofSegments_filter hcleanup, hs, Chunk.ofSegments_cons,
      Chunk.ofSegments_nil, List.append_nil]
    unfold Chunk.ofSegment
    rw [hk]
    dsimp only
    rw [hrun]
  rw [compile_eq_ofText hcleanup husable, hchunks]
  show (Gate.step ctx.cleanup {} (.command (Inline.spoken heard phrase)
    (.run ops confidence))).immediate = ops
  rw [Gate.step_run, hcleanup, Bool.and_false, if_neg Bool.false_ne_true]
  exact List.nil_append ops

end
/-! ## ASCII commands with single spaces -/

namespace Command

section
variable {ctx : Context} {s t tail u : Text} {ops : List Operation} {confidence : Confidence}

/-- a trigger that stands at the start of some words is one that the whole of them can begin with -/
theorem leaves_of_stands (hs : s.squeeze = s) (hsascii : s.Ascii) (hu : Context.Usable u)
    (huascii : u.Ascii) (htail : tail.allBlank = true) {before : Option Char}
    (h : Trigger.stands false before u (s ++ tail) = true) : ∃ rest, Leaves u s.lower rest := by
  obtain ⟨-, hprefix, hafter⟩ := (Trigger.stands_iff _ _ _ _).1 h
  have hkeys := Trigger.map_take_of_prefix hprefix
  by_cases hlen : u.length ≤ s.length
  · rw [List.take_append_of_le_length hlen] at hkeys
    rw [List.drop_append_of_le_length hlen, Phrase.isBoundary_strict] at hafter
    have hlower : Text.lower (s.take u.length) = normalize u := by
      rw [normalize_of_squeezed hu.2]
      exact Text.lower_eq_of_map_caseKey
        (fun c hc => hsascii c (List.mem_of_mem_take hc)) huascii hkeys
    have hsplit := List.take_append_drop u.length s
    cases hr : s.drop u.length with
    | nil =>
      rw [hr, List.append_nil] at hsplit
      exact ⟨[], .inl ⟨by rw [← hlower, hsplit], rfl⟩⟩
    | cons c r =>
      rw [hr] at hsplit hafter
      have hmem : c ∈ s.squeeze := by
        rw [hs, ← hsplit]
        simp
      obtain rfl := Text.eq_space_of_mem_squeeze hmem hafter
      refine ⟨Text.lower r, .inr ?_⟩
      rw [← hlower, ← Text.lower_append_blank hafter, hsplit]
  · -- it would end with a blank
    obtain ⟨k, hk⟩ := Nat.exists_eq_add_of_lt (Nat.lt_of_not_le hlen)
    rw [hk, Nat.add_assoc, List.take_length_add_append] at hkeys
    have hblank : Text.allBlank (tail.take (k + 1)) = true :=
      Text.allBlank_of_sublist (List.take_sublist _ _) htail
    have hsqueeze := Text.squeeze_of_map_caseKey hkeys hu.2
    rw [Text.squeeze, Text.words_append_allBlank hblank, ← Text.squeeze, hs] at hsqueeze
    have h1 := congrArg List.length hkeys
    have h2 := congrArg List.length hsqueeze
    rw [List.length_map, List.length_map] at h1
    omega

/-- words that are a trigger and a phrase in lower case are so letter by letter -/
theorem exists_of_lower_eq {rest : Text} (hs : s.squeeze = s) (hsascii : s.Ascii)
    (huascii : u.Ascii) (h : s.lower = u.lower ++ ' ' :: rest) :
    ∃ heard q, s = heard ++ ' ' :: q ∧ heard.map caseKey = u.map caseKey ∧
      Text.lower q = rest := by
  rw [Text.lower_of_ascii hsascii, Text.lower_of_ascii huascii] at h
  obtain ⟨heard, r, rfl, hheard, hr⟩ := List.map_eq_append_iff.1 h
  obtain ⟨c, q, rfl, hc, hq⟩ := List.map_eq_cons_iff.1 hr
  have hblank : isBlank c = true := by
    rw [← isBlank_lowered, (Text.ascii_case (hsascii c (by simp))).1, hc]
    decide
  have hmem : c ∈ Text.squeeze (heard ++ c :: q) := by
    rw [hs]
    simp
  obtain rfl := Text.eq_space_of_mem_squeeze hmem hblank
  have hheardascii : Text.Ascii heard := fun c hc => hsascii c (by simp [hc])
  have hqascii : Text.Ascii q := fun c hc => hsascii c (by simp [hc])
  refine ⟨heard, q, rfl, ?_, ?_⟩
  · rw [Text.map_caseKey_of_ascii hheardascii, hheard, Text.map_caseKey_of_ascii huascii]
  · rw [Text.lower_of_ascii hqascii, hq]

/-- what an utterance with operations says after the trigger -/
theorem exists_of_interpret (h : interpret ctx t = .run ops confidence) (hne : ops ≠ []) :
    ∃ rest, afterTrigger? (normalizeIn ctx t) ctx.triggers = some rest ∧ rest ≠ [] ∧
      parse rest = .run ops confidence := by
  cases hrest : afterTrigger? (normalizeIn ctx t) ctx.triggers with
  | none =>
    rw [interpret_of_eq_none hrest] at h
    cases h
  | some rest =>
    rw [interpret_of_afterTrigger? hrest] at h
    split at h
    · cases h
      exact absurd rfl hne
    · next hrestne => exact ⟨rest, rfl, hrestne, h⟩

theorem normalize_of_padded {lead : Text} (hlead : lead.allBlank = true)
    (htail : tail.allBlank = true) (hs : s.squeeze = s) :
    normalize (lead ++ (s ++ tail)) = s.lower := by
  rw [normalize, Text.squeeze, Text.words_lower_gap_append hlead, Text.words_lower_append_gap htail]
  exact normalize_of_squeezed hs

/-- no line end is left in an utterance with single spaces, so what is parsed is a phrase itself -/
theorem mem_phrases_of_squeezed {rest : Text} (hs : s.squeeze = s)
    (hcommand : s.lower = u.lower ++ ' ' :: rest) (hparse : parse rest = .run ops confidence)
    (hne : ops ≠ []) : rest ∈ phrases := by
  refine mem_phrases_of_parse ?_ fun hlast => ?_
  · rw [hparse, unknown]
    intro heq
    cases heq
    exact hne rfl
  · have hend : '\n' ∈ Text.squeeze s.lower := by
      rw [Text.squeeze_lower hs, hcommand]
      simp [List.mem_of_getLast? hlast]
    exact absurd (Text.eq_space_of_mem_squeeze hend (by decide)) (by decide)

/-- **An ASCII command with single spaces is spelled as the scan hears it.** -/
theorem spelledAlone_of_ascii (husable : ∀ u ∈ ctx.triggers, Context.Usable u)
    (h : interpret ctx t = .run ops confidence) (hne : ops ≠ []) (hascii : t.Ascii)
    (htriggers : ∀ u ∈ ctx.triggers, u.Ascii) (hnormal : normalizeIn ctx t = normalize t)
    (hspaces : t.trim = t.squeeze) : ∃ heard phrase, Segment.SpelledAlone ctx t heard phrase := by
  obtain ⟨rest, hrest, hrestne, hparse⟩ := exists_of_interpret h hne
  obtain ⟨earlier, trigger, later, hts, hleaves, hearlier⟩ := exists_of_afterTrigger? hrest
  obtain ⟨lead, tail, ht, hlead, htail⟩ := Text.exists_of_trim t
  rw [hspaces] at ht
  have hs := Text.squeeze_squeeze t
  have hsascii : t.squeeze.Ascii := by
    intro c hc
    refine hascii c ?_
    rw [ht]
    simp [hc]
  generalize t.squeeze = s at ht hs hsascii
  subst ht
  have hmem (u : Text) (hu : u ∈ earlier) : u ∈ ctx.triggers := by
    rw [hts]
    exact List.mem_append_left _ hu
  have htrigger : trigger ∈ ctx.triggers := by
    rw [hts]
    simp
  rw [hnormal, normalize_of_padded hlead htail hs] at hleaves hearlier
  have hcommand : s.lower = trigger.lower ++ ' ' :: rest := by
    rcases hleaves with ⟨-, hnil⟩ | hleaves
    · exact absurd hnil hrestne
    · rwa [normalize_of_squeezed (husable _ htrigger).2] at hleaves
  obtain ⟨heard, q, rfl, hheard, hqlower⟩ :=
    exists_of_lower_eq hs hsascii (htriggers _ htrigger) hcommand
  have hphrase := mem_phrases_of_squeezed hs hcommand hparse hne
  refine ⟨heard, rest, lead, [' '], q, tail, by simp, hlead, List.cons_ne_nil _ _, by decide,
    htail, hqlower, hphrase, earlier, trigger, later, hts, hheard, fun u hu hstands => ?_⟩
  obtain ⟨r, hr⟩ := leaves_of_stands hs hsascii (husable u (hmem u hu)) (htriggers u (hmem u hu))
    htail ((Trigger.standsAt_append_iff _ _ _ _).1 hstands).2
  exact hearlier u hu r hr

end

/-! ## every path -/

/-- **A command spoken alone means the same on every path.**  Let an utterance have operations when
it is read as one command.  The scan hears a command and nothing else but blanks in it exactly where
it is spelled so, with the spaces of the trigger and of the phrase as they are listed; there the
operations are the same, compiled in place and behind the gate.  An ASCII utterance with single
spaces is spelled so, if the triggers are ASCII and the locale changes no word of it. -/
theorem interpret_alone (locale : Text) (asked : List Text) (t : Text) {ops : List Operation}
    {confidence : Confidence}
    (h : interpret (Context.ofOptions locale asked false) t = .run ops confidence)
    (hne : ops ≠ []) :
    let ctx := Context.ofOptions locale asked false
    (∀ heard phrase, Segment.HeardAlone ctx t heard phrase ↔
        Segment.SpelledAlone ctx t heard phrase) ∧
      (∀ heard phrase, Segment.HeardAlone ctx t heard phrase →
        Inline.compile ctx t = ops ∧ (Mixed.compile ctx t).immediate = ops) ∧
      (t.Ascii → (∀ u ∈ ctx.triggers, u.Ascii) → normalizeIn ctx t = normalize t →
        t.trim = t.squeeze → ∃ heard phrase, Segment.HeardAlone ctx t heard phrase) := by
  intro ctx
  have husable : ∀ u ∈ ctx.triggers, Context.Usable u :=
    (Context.clean_ofOptions locale asked false).usable
  have hiff (heard phrase : Text) : Segment.HeardAlone ctx t heard phrase ↔
      Segment.SpelledAlone ctx t heard phrase := Segment.heardAlone_iff rfl husable
  refine ⟨hiff, fun heard phrase halone => ?_, fun hascii htriggers hnormal hspaces => ?_⟩
  · have hrun := interpret_spelled ((hiff heard phrase).1 halone) h
    exact ⟨Inline.compile_of_heardAlone rfl halone hrun,
      Mixed.immediate_of_heardAlone rfl husable halone hrun⟩
  · obtain ⟨heard, phrase, hspelled⟩ :=
      spelledAlone_of_ascii husable h hne hascii htriggers hnormal hspaces
    exact ⟨heard, phrase, (hiff heard phrase).2 hspelled⟩

/-- capitals, and blanks around the command -/
theorem full_stop_alone :
    Inline.compile (Context.ofOptions "en-US".toList [] false) " VoiceMark FULL stop\n".toList =
        [.insertText ".".toList] ∧
      (Mixed.compile (Context.ofOptions "en-US".toList [] false)
        " VoiceMark FULL stop\n".toList).immediate = [.insertText ".".toList] := by
  have hrun : interpret (Context.ofOptions "en-US".toList [] false)
      " VoiceMark FULL stop\n".toList = .run [.insertText ".".toList] .high := by decide +kernel
  obtain ⟨-, hsame, hascii⟩ := interpret_alone "en-US".toList [] " VoiceMark FULL stop\n".toList
    hrun (List.cons_ne_nil _ _)
  obtain ⟨heard, phrase, halone⟩ :=
    hascii (by decide) (by decide) (by decide +kernel) (by decide +kernel)
  exact hsame heard phrase halone

/-- an utterance with operations when it is read as one command, and others when it is compiled -/
def PartsWays (ctx : Context) (t : Text) (ops : List Operation) : Prop :=
  ops ≠ [] ∧ interpret ctx t = .run ops .high ∧
    Inline.compile ctx t ≠ ops ∧ (Mixed.compile ctx t).immediate ≠ ops

instance (ctx : Context) (t : Text) (ops : List Operation) : Decidable (PartsWays ctx t ops) :=
  inferInstanceAs (Decidable (_ ∧ _ ∧ _ ∧ _))

/-- two blanks within a trigger or a phrase, a trigger that only the locale makes of another word,
and a dotless i in a trigger that is listed before the one that was spoken -/
theorem paths_part :
    PartsWays (.ofOptions "en-GB".toList [] false) "voice  mark comma".toList
        [.insertText ",".toList] ∧
      PartsWays (.ofOptions "en-GB".toList [] false) "voicemark full  stop".toList
        [.insertText ".".toList] ∧
      PartsWays (.ofOptions "en-US".toList ["full stop".toList] false) "period comma".toList
        [.insertText ",".toList] ∧
      PartsWays (.ofOptions "en-GB".toList ["vo\u0131cemark comma".toList, "voicemark".toList] false)
        "voicemark comma".toList [.insertText ",".toList] := by
  -- evaluation is faster on texts that are spelled out
  simp only [String.reduceToList]
  exact ⟨by decide +kernel, by decide +kernel, by decide +kernel, by decide +kernel⟩

end Command
end Dictation
