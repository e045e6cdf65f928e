import Dictation.Proofs.Seams

/-!
# Blanks at the ends of a text

Without clean-up, what is scanned may have blanks before it and behind it: they belong to no trigger
and to no phrase, and a chunk of text is written without them.

* `Text.EndsSolid.exists_of_append`   blanks behind a part that ends with no blank;
* `Chunk.ofSegments_leading`          the chunk of the text before a trigger;
* `Segment.exists_cuts_lead`, `Segment.exists_cuts_tail`   a scan with more blanks before it, or
                                      without the blanks behind it;
* `Chunk.ofText_trim`                 the chunks of a text and of the text without them.
-/

namespace Dictation

/-! ## blanks and what is solid -/

namespace Text

theorem getLast?_of_allBlank {t : Text} (h : t.allBlank = true) :
    t.getLast?.all isBlank = true := by
  cases hl : t.getLast? with
  | none => rfl
  | some c => exact isBlank_of_mem h (List.mem_of_getLast? hl)

theorem head?_of_allBlank {t : Text} (h : t.allBlank = true) : t.head?.all isBlank = true := by
  cases t with
  | nil => rfl
  | cons c t => exact isBlank_of_mem h List.mem_cons_self

/-- blanks at the end of a text come after a part that ends with no blank -/
theorem EndsSolid.exists_of_append {s t u tail : Text} (hs : s.EndsSolid)
    (htail : tail.allBlank = true) (h : t ++ tail = s ++ u) :
    ∃ r, t = s ++ r ∧ u = r ++ tail := by
  rcases List.append_eq_append_iff.1 h with ⟨r, rfl, hr⟩ | h
  · by_cases hne : r = []
    · subst hne
      exact ⟨[], by simp, by simpa using hr.symm⟩
    · rw [hr, allBlank_append, Bool.and_eq_true] at htail
      have hall := getLast?_of_allBlank htail.1
      rw [← Trigger.getLast?_append_of_ne_nil hne t, hs.not_allBlank] at hall
      cases hall
  · exact h

end Text

/-! ## the chunks of a gap -/

namespace Chunk

section
variable {ctx : Context}

theorem ofSegments_map_shift (ctx : Context) (k : Nat) (ss : List Segment) :
    ofSegments ctx (ss.map (Segment.shift k)) = ofSegments ctx ss := by
  rw [ofSegments, List.flatMap_map]
  rfl

theorem ofSegments_append (ctx : Context) (rs ss : List Segment) :
    ofSegments ctx (rs ++ ss) = ofSegments ctx rs ++ ofSegments ctx ss :=
  List.flatMap_append

/-- text before a trigger is a chunk without the blanks around it, and blanks are none -/
theorem ofSegments_leading (hcleanup : ctx.cleanup = false) (offset : Nat) (gap : Text) :
    ofSegments ctx (Segment.leading offset gap.length gap) =
      if gap.trim.isEmpty then [] else [.text gap.trim] := by
  by_cases hne : gap = []
  · subst hne
    rfl
  · rw [Segment.leading_of_ne_nil _ hne, ofSegments_cons, ofSegments_nil, List.append_nil]
    unfold ofSegment dictated
    dsimp only
    rw [hcleanup, if_neg Bool.false_ne_true]

end
end Chunk

/-! ## blanks before a scan and behind it -/

namespace Segment

section
variable {ctx : Context} (hcleanup : ctx.cleanup = false)
  (husable : ∀ u ∈ ctx.triggers, Context.Usable u) {done lead t tail : Text} {ss : List Segment}

include hcleanup husable

/-- the segment of a trigger ends with no blank -/
theorem endsSolid_atTrigger {n : Nat}
    (h : Trigger.tailAt? (lexicon ctx).lenient done.getLast? t (lexicon ctx).triggers = some n)
    (offset : Nat) : (atTrigger (lexicon ctx) offset n t).source.EndsSolid := by
  rcases atTrigger_cases hcleanup h offset with hat | ⟨heard, gap, q, rest, -, -, -, -, hq, -, hat⟩
  · rw [hat]
    exact Text.endsSolid_of_usable ((Trigger.heard_of_tailAt? h).usable husable)
  · rw [hat]
    exact ((Text.endsSolid_of_spelling hq).append_left gap).append_left heard

/-- a scan that begins before some blanks -/
theorem exists_cuts_lead (hlead : lead.allBlank = true)
    (h : Cuts (lexicon ctx) (done ++ lead) t ss) :
    ∃ ss', Cuts (lexicon ctx) done (lead ++ t) ss' ∧
      Chunk.ofSegments ctx ss' = Chunk.ofSegments ctx ss := by
  have hblank (rest : Text) : Trigger.Quiet (lexicon ctx).lenient (lexicon ctx).triggers
      (done ++ (lead ++ rest)) done.length (done ++ lead).length :=
    Trigger.quiet_of_allBlank husable hlead
  generalize hd : done ++ lead = d at h
  cases h with
  | rest hquiet =>
    subst hd
    refine ⟨leading done.length (lead ++ t).length (lead ++ t), .rest ?_, ?_⟩
    · rw [List.append_assoc] at hquiet
      exact (hblank t).append hquiet
    · rw [Chunk.ofSegments_leading hcleanup, Chunk.ofSegments_leading hcleanup,
        Text.trim_gap_append hlead]
  | @trigger _ gap t n s ss hquiet htail hs hcuts =>
    subst hd
    have hsplit : lead ++ (gap ++ (s.source ++ t)) = (lead ++ gap) ++ (s.source ++ t) := by simp
    rw [List.append_assoc] at hquiet htail hs hcuts
    rw [List.append_assoc] at hquiet
    rw [hsplit]
    refine ⟨leading done.length (lead ++ gap).length (lead ++ gap) ++ s :: ss,
      .trigger (n := n) ?_ htail hs ?_, ?_⟩
    · rw [← hsplit]
      exact (hblank _).append hquiet
    · rwa [List.append_assoc]
    · rw [Chunk.ofSegments_append, Chunk.ofSegments_append, Chunk.ofSegments_leading hcleanup,
        Chunk.ofSegments_leading hcleanup, Text.trim_gap_append hlead]

/-- a scan that ends before some blanks -/
theorem exists_cuts_tail (htail : tail.allBlank = true)
    (h : Cuts (lexicon ctx) done (t ++ tail) ss) :
    ∃ ss', Cuts (lexicon ctx) done t ss' ∧
      Chunk.ofSegments ctx ss' = Chunk.ofSegments ctx ss := by
  have hseam (s : Text) : s.Seam tail := .inr (Text.head?_of_allBlank htail)
  generalize hu : t ++ tail = u at h
  induction h generalizing t with
  | @rest done u hquiet =>
    subst hu
    refine ⟨leading done.length t.length t, cuts_gap_before_seam husable ?_ (hseam _), ?_⟩
    · exact fun i hi hj => hquiet i hi (Nat.lt_of_lt_of_le hj (by simp))
    · rw [Chunk.ofSegments_leading hcleanup, Chunk.ofSegments_leading hcleanup,
        Text.trim_append_gap htail]
  | @trigger done gap u n s ss hquiet hat hs hcuts ih =>
    -- a segment ends with no blank, so it ends before the blanks
    have hsolid : s.source.EndsSolid := hs ▸ endsSolid_atTrigger hcleanup husable hat _
    rw [← List.append_assoc] at hu
    obtain ⟨r, rfl, rfl⟩ := (hsolid.append_left gap).exists_of_append htail hu
    obtain ⟨ss', hss', hchunks⟩ := ih rfl
    rw [List.append_assoc]
    refine ⟨leading done.length gap.length gap ++ s :: ss',
      cuts_before_seam hcleanup husable hquiet hat hs (hseam _) hss', ?_⟩
    rw [Chunk.ofSegments_append, Chunk.ofSegments_append, Chunk.ofSegments_cons,
      Chunk.ofSegments_cons, hchunks]

end
end Segment

/-! ## whole texts -/

namespace Chunk

section
variable {ctx : Context} (hcleanup : ctx.cleanup = false)
  (husable : ∀ u ∈ ctx.triggers, Context.Usable u)
include hcleanup husable

theorem ofText_gap_append {lead : Text} (h : lead.allBlank = true) (t : Text) :
    ofText ctx (lead ++ t) = ofText ctx t := by
  -- a scan that goes on after the blanks is one that begins there
  have hbegin : ofSegments ctx (Segment.cut (Segment.lexicon ctx) lead.length lead.getLast? t) =
      ofText ctx t := by
    have hbefore := isBoundary_of_all (Text.getLast?_of_allBlank h) (Segment.lexicon ctx).lenient
    rw [Segment.cut_of_isBoundary _ hbefore, ← Nat.zero_add lead.length, Segment.cut_shift,
      ofSegments_map_shift]
    rfl
  have hcuts : Segment.Cuts (Segment.lexicon ctx) ([] ++ lead) t
      (Segment.cut (Segment.lexicon ctx) lead.length lead.getLast? t) :=
    Segment.cuts_cut (Segment.lexicon ctx) lead t
  obtain ⟨ss, hss, hchunks⟩ := Segment.exists_cuts_lead hcleanup husable h hcuts
  rw [← hbegin, ← hchunks, ← Segment.cuts_iff.1 hss]
  rfl

theorem ofText_append_gap {tail : Text} (h : tail.allBlank = true) (t : Text) :
    ofText ctx (t ++ tail) = ofText ctx t := by
  obtain ⟨ss, hss, hchunks⟩ := Segment.exists_cuts_tail hcleanup husable h
    (Segment.cuts_cut (Segment.lexicon ctx) [] (t ++ tail))
  rw [← Segment.cuts_iff.1 hss] at hchunks
  exact hchunks.symm

/-- **Blanks at the ends of a text make no difference to its chunks.** -/
theorem ofText_trim (t : Text) : ofText ctx t.trim = ofText ctx t := by
  obtain ⟨lead, tail, ht, hlead, htail⟩ := Text.exists_of_trim t
  conv => rhs; rw [ht]
  rw [ofText_gap_append hcleanup husable hlead, ofText_append_gap hcleanup husable htail]

end
end Chunk

end Dictation
