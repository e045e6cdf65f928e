import Dictation.Proofs.Agreement
import Dictation.Proofs.Margins
import Mathlib.Data.List.Forall2

/-!
# Rebuilding an utterance from its chunks

The chunks of an utterance have all of its characters in order, blanks aside.  Only the phrase of a
command may stand in another case, and it does so letter by letter.

* `Text.solid`         a text without its blanks;
* `LowersAs`           characters that lower case takes for the same; `lower_of_forall₂`: texts of
                       such characters have one lower case;
* `Chunk.MadeOf`       the part of an utterance that a chunk was made of;
* `Mixed.compile_rebuilds`   the parts of all chunks are the utterance.
-/

namespace Dictation

namespace Text

/-! ## without blanks -/

/-- the characters that are not blank -/
def solid (t : Text) : Text := t.filter (!isBlank ·)

section
variable {s t : Text}

theorem solid_append (s t : Text) : solid (s ++ t) = solid s ++ solid t :=
  List.filter_append s t

theorem solid_of_allBlank (h : allBlank t = true) : solid t = [] := by
  rw [solid, List.filter_eq_nil_iff]
  intro c hc
  rw [isBlank_of_mem h hc]
  simp

theorem solid_trim (t : Text) : solid (trim t) = solid t := by
  obtain ⟨lead, tail, ht, hlead, htail⟩ := exists_of_trim t
  have hsolid := congrArg solid ht
  rw [solid_append, solid_append, solid_of_allBlank hlead, solid_of_allBlank htail,
    List.nil_append, List.append_nil] at hsolid
  exact hsolid.symm

theorem solid_map_lowered (t : Text) : solid (t.map lowered) = (solid t).map lowered := by
  rw [solid, List.filter_map]
  congr 1
  refine List.filter_congr fun c _ => ?_
  show (!isBlank (lowered c)) = !isBlank c
  rw [isBlank_lowered]

end
end Text

/-! ## characters that lower case takes for the same -/

/-- one lower case, and the same effect on a capital sigma nearby -/
structure LowersAs (a b : Char) : Prop where
  lowered : lowered a = lowered b
  cased : isCased a = isCased b
  ignorable : isCaseIgnorable a = isCaseIgnorable b
  sigma : (a == capitalSigma) = (b == capitalSigma)
  dotted : (a == capitalDottedI) = (b == capitalDottedI)

theorem LowersAs.refl (a : Char) : LowersAs a a := ⟨rfl, rfl, rfl, rfl, rfl⟩

namespace Text

section
variable {s t : Text}

theorem beginsCased_of_forall₂ (h : List.Forall₂ LowersAs s t) : beginsCased s = beginsCased t := by
  induction h with
  | nil => rfl
  | cons hab _ ih => rw [beginsCased, beginsCased, hab.ignorable, hab.cased, ih]

/-- **Texts of such characters have one lower case.** -/
theorem lower_of_forall₂ (h : List.Forall₂ LowersAs s t) : lower s = lower t := by
  have hall (cased : Bool) : lowerAfter cased s = lowerAfter cased t := by
    induction h generalizing cased with
    | nil => rfl
    | cons hab hrest ih =>
      rw [lowerAfter, lowerAfter, hab.ignorable, hab.cased, hab.sigma, hab.dotted, hab.lowered,
        beginsCased_of_forall₂ hrest, ih]
  exact hall false

end
end Text

namespace Command

/-- the runs with a capital that an ASCII letter is the lower case of -/
def letterRuns : List CaseRun :=
  [⟨0x41, 0x5a, 1, 32⟩, ⟨0x130, 0x130, 1, -199⟩, ⟨0x212a, 0x212a, 1, -8383⟩]

theorem letterRuns_eq : (capitalRuns.filter fun r => decide ((r.first : Int) + r.shift < 128)) =
    letterRuns := rfl

/-- blanks, letters and the sign that is a capital k -/
def letterRanges : Ranges := [(0x20, 0x20), (0x41, 0x5a), (0x61, 0x7a), (0x212a, 0x212a)]

theorem letterRanges_apart : letterRanges.apart caseIgnorableRanges = true := by decide +kernel
theorem letters_in_ranges : (letters.all fun l => letterRanges.contains l.toNat) = true := by
  decide

/-- where a run has a capital for a letter of the phrases, it has case as the letter has -/
theorem capitals_of_letters : (letterRuns.all fun r => letters.all fun l =>
    let n := (l.toNat - r.shift).toNat
    !r.covers n || n == capitalDottedI.toNat ||
      (casedRanges.contains n == isCased l && letterRanges.contains n)) = true := by
  decide

section
variable {c : Char} (h : lowered c ∈ letters)
include h

/-- the run that has a capital for a letter is one of those, and leads back from the letter -/
theorem letterRun_of_lowered {r : CaseRun} (hr : r ∈ capitalRuns) (hc : r.covers c.toNat = true)
    (hl : lowered c = Char.ofNat (r.goal c.toNat)) :
    r ∈ letterRuns ∧ ((lowered c).toNat - r.shift).toNat = c.toNat := by
  have hzero : Char.ofNat 0 ∉ letters := by decide
  have hgoal : (lowered c).toNat = (c.toNat + r.shift).toNat := by
    rcases ofNat_cases (r.goal c.toNat) with hn | hn
    · rw [hl, hn, CaseRun.goal]
    · rw [hl, hn] at h
      exact absurd h hzero
  have hpos : (lowered c).toNat ≠ 0 := by
    intro hnull
    refine hzero ?_
    rwa [← hnull, Char.ofNat_toNat]
  have hfirst := ((r.covers_iff _).1 hc).1
  have hascii := letters_ascii _ h
  rw [← letterRuns_eq, List.mem_filter, decide_eq_true_eq]
  exact ⟨⟨hr, by omega⟩, by omega⟩

theorem cased_of_letters (hdotted : c ≠ capitalDottedI) :
    isCased (lowered c) = isCased c ∧ isCaseIgnorable (lowered c) = isCaseIgnorable c := by
  rcases lowered_cases c with hc | ⟨r, hr, hc, hl⟩
  · rw [hc]
    exact ⟨rfl, rfl⟩
  · obtain ⟨hrun, hback⟩ := letterRun_of_lowered h hr hc hl
    have hcapital := List.all_eq_true.1 (List.all_eq_true.1 capitals_of_letters r hrun) _ h
    dsimp only at hcapital
    rw [hback, hc, Bool.not_true, Bool.false_or, Bool.or_eq_true, Bool.and_eq_true, beq_iff_eq,
      beq_iff_eq] at hcapital
    rcases hcapital with hI | ⟨hcased, hrange⟩
    · exact absurd (Char.toNat_inj.1 hI) hdotted
    · have hletter := List.all_eq_true.1 letters_in_ranges _ h
      refine ⟨hcased.symm, ?_⟩
      rw [isCaseIgnorable, isCaseIgnorable,
        Ranges.not_contains_of_apart letterRanges_apart hrange,
        Ranges.not_contains_of_apart letterRanges_apart hletter]

/-- a letter of a phrase, and a character that has it for its lower case -/
theorem lowersAs_of_letters (hsigma : c ≠ capitalSigma) (hdotted : c ≠ capitalDottedI) :
    LowersAs (lowered c) c := by
  have hsmall : lowered (lowered c) = lowered c ∧ lowered c ≠ capitalSigma ∧
      lowered c ≠ capitalDottedI := by
    have := List.all_eq_true.1 letters_small _ h
    simpa [and_assoc] using this
  obtain ⟨hlowered, hsigma', hdotted'⟩ := hsmall
  obtain ⟨hcased, hignorable⟩ := cased_of_letters h hdotted
  refine ⟨hlowered, hcased, hignorable, ?_, ?_⟩
  · rw [beq_eq_false_iff_ne.2 hsigma', beq_eq_false_iff_ne.2 hsigma]
  · rw [beq_eq_false_iff_ne.2 hdotted', beq_eq_false_iff_ne.2 hdotted]

end

/-- a phrase and a spelling of it, blanks aside, letter by letter -/
theorem lowersAs_of_spelling {q : Text} (h : q.lower ∈ phrases) :
    List.Forall₂ LowersAs q.lower.solid q.solid := by
  obtain ⟨hmap, hall⟩ := lowered_of_spelling h
  rw [← hmap, Text.solid_map_lowered, List.forall₂_map_left_iff, List.forall₂_same]
  intro c hc
  have hq : c ∈ q := (List.mem_filter.1 hc).1
  have hletter : lowered c ∈ letters := by
    refine letters_of_phrase h _ ?_
    rw [← hmap]
    exact List.mem_map_of_mem hq
  exact lowersAs_of_letters hletter (hall c hq).1 (hall c hq).2

end Command

/-! ## chunks -/

namespace Chunk

/-- the characters of a chunk -/
def source : Chunk → Text
  | text t => t
  | command s _ => s

/-- the part of an utterance that a chunk was made of, without its blanks: its own characters, but
for the case of the phrase of a command -/
def MadeOf : Chunk → Text → Prop
  | text t, part => part = t.solid
  | command s _, part => ∃ heard phrase spelling, s = Inline.spoken heard phrase ∧
      phrase ∈ Command.phrases ∧ Text.lower spelling = phrase ∧
      part = Text.solid heard ++ Text.solid spelling

section
variable {ctx : Context} {done t : Text} {ss : List Segment} {cs : List Chunk} {parts : List Text}

/-- a chunk has the characters that it was made of, case aside -/
theorem lowersAs_of_madeOf {c : Chunk} {part : Text} (h : c.MadeOf part) :
    List.Forall₂ LowersAs c.source.solid part := by
  cases c with
  | text t =>
    rw [show part = t.solid from h]
    exact List.forall₂_same.2 fun c _ => .refl c
  | command s reply =>
    obtain ⟨heard, phrase, spelling, rfl, hphrase, rfl, rfl⟩ := h
    have hsolid : Text.solid (Inline.spoken heard spelling.lower) =
        Text.solid heard ++ Text.solid spelling.lower := by
      rw [Inline.spoken, Text.solid_append]
      rfl
    rw [source, hsolid]
    exact List.rel_append (List.forall₂_same.2 fun c _ => .refl c)
      (Command.lowersAs_of_spelling hphrase)

theorem lowersAs_of_forall₂ (h : List.Forall₂ MadeOf cs parts) :
    List.Forall₂ LowersAs (Text.solid (cs.flatMap source)) parts.flatten := by
  induction h with
  | nil => exact .nil
  | cons hc _ ih =>
    rw [List.flatMap_cons, Text.solid_append, List.flatten_cons]
    exact List.rel_append (lowersAs_of_madeOf hc) ih

variable (hcleanup : ctx.cleanup = false)
include hcleanup

/-- text before a trigger -/
theorem exists_parts_leading (offset : Nat) (gap : Text) :
    ∃ parts, List.Forall₂ MadeOf (ofSegments ctx (Segment.leading offset gap.length gap)) parts ∧
      parts.flatten = gap.solid := by
  rw [ofSegments_leading hcleanup]
  split
  · next hnil =>
    have hblank := (Text.trim_eq_nil_iff gap).1 (List.isEmpty_iff.1 hnil)
    exact ⟨[], .nil, (Text.solid_of_allBlank hblank).symm⟩
  · exact ⟨[gap.solid], .cons (Text.solid_trim gap).symm .nil, List.append_nil _⟩

/-- a trigger, alone or with a phrase -/
theorem exists_of_atTrigger {before : Option Char} {n : Nat}
    (h : Trigger.tailAt? (Segment.lexicon ctx).lenient before t (Segment.lexicon ctx).triggers =
      some n) (offset : Nat) :
    ∃ c, ofSegment ctx (Segment.atTrigger (Segment.lexicon ctx) offset n t) = [c] ∧
      c.MadeOf (Segment.atTrigger (Segment.lexicon ctx) offset n t).source.solid := by
  rcases Segment.atTrigger_cases hcleanup h offset with hat |
    ⟨heard, gap, q, rest, -, -, -, hgap, hq, -, hat⟩
  · rw [hat]
    exact ⟨_, rfl, rfl⟩
  · rw [hat]
    refine ⟨_, rfl, heard, q.lower, q, rfl, hq, rfl, ?_⟩
    rw [Text.solid_append, Text.solid_append, Text.solid_of_allBlank hgap, List.nil_append]

/-- **The chunks of a scan are made of what was scanned.** -/
theorem exists_parts (h : Segment.Cuts (Segment.lexicon ctx) done t ss) :
    ∃ parts, List.Forall₂ MadeOf (ofSegments ctx ss) parts ∧ parts.flatten = t.solid := by
  induction h with
  | rest _ => exact exists_parts_leading hcleanup _ _
  | @trigger done gap t n s ss _ htail hs _ ih =>
    obtain ⟨before, hbefore, hgap⟩ := exists_parts_leading hcleanup done.length gap
    obtain ⟨c, hc, hmade⟩ := exists_of_atTrigger hcleanup htail (done ++ gap).length
    obtain ⟨after, hafter, ht⟩ := ih
    rw [hs] at hc hmade
    refine ⟨before ++ s.source.solid :: after, ?_, ?_⟩
    · rw [ofSegments_append, ofSegments_cons, hc]
      exact List.rel_append hbefore (.cons hmade hafter)
    · rw [List.flatten_append, List.flatten_cons, hgap, ht, Text.solid_append, Text.solid_append]

end
end Chunk

/-- **An utterance can be rebuilt from its chunks.**  Without clean-up, each chunk is made of a part
of the utterance, and the parts in order are all of it but for its blanks.  A part has the very
characters of its chunk, except that the phrase of a command may stand in another case in it; so
the chunks and the utterance, without their blanks, have the same lower case. -/
theorem Mixed.compile_rebuilds (locale : Text) (asked : List Text) (t : Text) :
    let chunks := (compile (Context.ofOptions locale asked false) t).chunks
    (∃ parts, List.Forall₂ Chunk.MadeOf chunks parts ∧ parts.flatten = t.solid) ∧
      (Text.solid (chunks.flatMap Chunk.source)).lower = t.solid.lower := by
  intro chunks
  have husable := (Context.clean_ofOptions locale asked false).usable
  have hchunks : chunks = Chunk.ofText (Context.ofOptions locale asked false) t := by
    show (compile (Context.ofOptions locale asked false) t).chunks = _
    rw [compile_eq_ofText rfl husable]
    rfl
  have hcleanup : (Context.ofOptions locale asked false).cleanup = false := rfl
  obtain ⟨parts, hparts, hflatten⟩ := Chunk.exists_parts hcleanup (Segment.cuts_cut _ [] t)
  rw [hchunks]
  refine ⟨⟨parts, hparts, hflatten⟩, ?_⟩
  rw [← hflatten]
  exact Text.lower_of_forall₂ (Chunk.lowersAs_of_forall₂ hparts)

end Dictation
